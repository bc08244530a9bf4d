import ResourceTable.Proofs.CrownedStatement
import ResourceTable.Proofs.RowChanges

/-!
# Reading insertions

The `INSERT` of a record names the columns that its table inserts and gives each of them
the value of its placeholder, or the clock's reading.  If the names are plain, the database
reads just that.

## Main definitions

* `Table.IsWritable`: the names of a table can be written into an insertion.
* `Column.given`: what an insertion gives a column.
* `enclosedInks`, `insertParts`: the parts of an insertion.

## Main results

* `exists_of_insertQuery` — a record whose insertion is built has a value for every column.
* `read_insertQuery` — **what the database reads of the insertion of a record gives the
  columns what the record has.**
-/

namespace ResourceTable

open Sql Sql.Parse

/-- The names of a table can be written into an insertion: its own and those of the columns
that it inserts are bare names, and no two of these name the same column. -/
structure Table.IsWritable (t : Table) : Prop where
  name : isBareName t.name.toList = true
  columns : ∀ c ∈ t.columns.inserted, isBareName c.name.toList = true
  apart : t.columns.insertedNames.Pairwise fun a b => sameName a b = false

/-! ### Lists in parentheses -/

/-- Parts with commas between them, in parentheses. -/
def enclosedInks {α : Type} (parts : List (List (Ink α))) : List (Ink α) :=
  .mark "(" :: (commaInks parts ++ [.mark ")"])

section Enclosed

variable {params : Params} {parts : List (List (Ink (String × Param)))}

theorem print_enclosedInks {α : Type} (fill : α → List Char) (parts : List (List (Ink α))) :
    String.ofList (print fill (enclosedInks parts)) =
      "(" ++ String.intercalate ", " (parts.map fun part => String.ofList (print fill part)) ++
        ")" := by
  rw [← String.toList_inj, String.toList_ofList, enclosedInks, print_cons, print_append,
    commaInks, print_joinInks, String.toList_append, String.toList_append]
  rfl

theorem namedText_enclosedInks (parts : List (List (Ink (String × Param)))) :
    namedText (enclosedInks parts) =
      "(" ++ String.intercalate ", " (parts.map namedText) ++ ")" :=
  print_enclosedInks _ parts

theorem holesOf_enclosedInks (parts : List (List (Ink (String × Param)))) :
    holesOf (enclosedInks parts) = parts.flatMap holesOf := by
  have hmark (s : String) (is : List (Ink (String × Param))) :
      holesOf (.mark s :: is) = holesOf is := rfl
  rw [enclosedInks, hmark, holesOf_append, commaInks, holesOf_joinInks (by rfl)]
  exact List.append_nil _

/-- The last ink of parts with commas between them is the last one of a part. -/
theorem exists_getLast?_of_commaInks {i : Ink (String × Param)} :
    ∀ {parts : List (List (Ink (String × Param)))}, (∀ part ∈ parts, part ≠ []) →
      i ∈ (commaInks parts).getLast? → ∃ part ∈ parts, i ∈ part.getLast? := by
  intro parts
  induction parts with
  | nil => exact fun _ hi => nomatch hi
  | cons part rest ih =>
    intro hne hi
    cases rest with
    | nil => exact ⟨part, List.mem_cons_self, hi⟩
    | cons next more =>
      obtain ⟨-, hrest⟩ := List.forall_mem_cons.1 hne
      have hlast : (commaInks (part :: next :: more)).getLast? =
          (commaInks (next :: more)).getLast? := by
        have hsome : commaInks (next :: more) ≠ [] := by
          have hnext := hrest next List.mem_cons_self
          cases more with
          | nil => exact hnext
          | cons other tail => exact List.append_ne_nil_of_left_ne_nil hnext _
        rw [commaInks, joinInks, List.getLast?_append_of_ne_nil part (by simp),
          List.getLast?_append_of_ne_nil _ hsome]
      rw [hlast] at hi
      obtain ⟨p, hp, hi⟩ := ih hrest hi
      exact ⟨p, List.mem_cons_of_mem part hp, hi⟩

/-- Named parts are named in parentheses too. -/
theorem named_enclosedInks (h : ∀ part ∈ parts, NamedPart params part) :
    Named params (enclosedInks parts) := by
  have hmark {s : String} (hs : s ∈ Ink.printedMarks) : Named params [.mark s] :=
    .of_holesOf_eq_nil ⟨List.forall_mem_singleton.2 hs, .singleton _⟩ rfl
  have hback : Named params (commaInks parts ++ [.mark ")"]) := by
    refine (named_commaInks h).append (hmark (by decide)) fun i hi j hj => ?_
    obtain ⟨part, hpart, hi⟩ :=
      exists_getLast?_of_commaInks (fun part hpart => (h part hpart).closes.nonempty) hi
    obtain rfl := (Option.some.inj hj).symm
    exact (h part hpart).closes.last i hi
  refine (hmark (s := "(") (by decide)).append hback fun i hi j _ => ?_
  cases hi
  cases j <;> rfl

theorem tokensOf_enclosedInks (parts : List (List (Ink (String × Param)))) :
    tokensOf Param.tokens ((enclosedInks parts).map (Ink.map Prod.snd)) =
      .mark "(" :: (tokensOf Param.tokens ((commaInks parts).map (Ink.map Prod.snd)) ++
        [.mark ")"]) := by
  rw [enclosedInks, List.map_cons, List.map_append]
  exact congrArg (Token.mark "(" :: ·) (tokensOf_append _ _ _)

theorem ne_comma_of_close {t : Option Token} (h : t = some (.mark ")")) : t ≠ some (.mark ",") := by
  rintro rfl
  exact absurd (Token.mark.inj (Option.some.inj h)) (by decide)

/-- Parts in parentheses are read part by part. -/
theorem covers_enclosedInks {ι α : Type} {p : Parse α} {next : Option Token → Prop}
    {f : ι → List (Ink (String × Param))} {g : ι → α} {l : List ι} (hne : l ≠ [])
    (h : ∀ x ∈ l, Covers p (tokensOf Param.tokens ((f x).map (Ink.map Prod.snd)))
      (OrComma (· = some (.mark ")"))) (· = g x)) (fuel : Nat) :
    Covers (enclosed (separated p fuel))
      (tokensOf Param.tokens ((enclosedInks (l.map f)).map (Ink.map Prod.snd))) next
      (· = l.map g) := by
  rw [tokensOf_enclosedInks]
  have hall : Covers (enclosed (separated p fuel)) _ next (List.Forall₂ (fun x a => a = g x) l) :=
    covers_enclosed (covers_commaInks hne h (fun _ ht => ne_comma_of_close ht) fuel)
  exact hall.mono (fun _ ht => ht) fun _ ha => eq_map_of_forall₂ ha

end Enclosed

/-- What covers some tokens yields what it gives. -/
theorem Sql.Parse.Covers.yields {α : Type} {p : Parse α} {ts : List Token}
    {next : Option Token → Prop} {P : α → Prop} {rest : List Lexeme} (h : Covers p ts next P)
    (hnext : next (headToken rest)) : Yields p ts rest P :=
  fun ls out a hls ha => (h ls rest out a hls hnext ha).2

/-! ### The parts of an insertion -/

namespace Column

/-- The value that a flattened record has for a column. -/
def valueIn (c : Column) (flat : Flattened) : Value :=
  ((flat.get? c.name).map Leaf.value).getD (.string none)

theorem valueIn_of_get? {c : Column} {flat : Flattened} {leaf : Leaf}
    (h : flat.get? c.name = some leaf) : c.valueIn flat = leaf.value := by
  rw [valueIn, h]
  rfl

/-- What an insertion gives a column: the clock's reading, or the value that the record
has. -/
def given (flat : Flattened) (c : Column) : Term :=
  if c.type = .time then .clock .now else .literal (c.valueIn flat).cell

/-- The print of what an insertion gives a column. -/
def sourceInks (flat : Flattened) (c : Column) : List (Ink (String × Param)) :=
  if c.type = .time then [.word "now", .mark "(", .mark ")"]
  else [.hole (c.name, .single (c.valueIn flat))]

/-- The print of the name of a column. -/
def nameInks (c : Column) : List (Ink (String × Param)) := [.word c.name]

theorem namedText_sourceInks (flat : Flattened) (c : Column) :
    namedText (c.sourceInks flat) = c.source := by
  unfold sourceInks source
  split
  · rfl
  · rw [← String.toList_inj, namedText, String.toList_ofList, print_cons, String.toList_append]
    exact List.append_nil _

variable {params : Params} {c : Column}

theorem namedPart_nameInks (hname : isBareName c.name.toList = true) :
    NamedPart params c.nameInks :=
  .of_legible (legible_cons hname .nil (by simp)) rfl ⟨List.cons_ne_nil _ _, by
    simp [nameInks, Ink.joins]⟩

theorem namedPart_sourceInks {flat : Flattened} (hname : isBareName c.name.toList = true)
    (hbound : c.type ≠ .time → params.get? c.name = some (.single (c.valueIn flat))) :
    NamedPart params (c.sourceInks flat) := by
  unfold sourceInks
  split
  · refine .of_legible ⟨?_, by simp [Ink.joins, Ink.closedMarks]⟩ rfl ⟨List.cons_ne_nil _ _, by
      simp [Ink.joins, Ink.closedMarks]⟩
    simp [Ink.IsSound, Ink.printedMarks]
    decide
  · next htime =>
    have hholes : holesOf [(.hole (c.name, .single (c.valueIn flat)) : Ink (String × Param))] =
        [(c.name, .single (c.valueIn flat))] := rfl
    refine ⟨⟨⟨List.forall_mem_singleton.2 trivial, .singleton _⟩, ?_, ?_, ?_⟩,
      List.cons_ne_nil _ _, by simp [Ink.joins]⟩
    · rw [hholes, List.forall_mem_singleton]
      exact hname
    · rw [hholes, List.forall_mem_singleton]
      exact hbound htime
    · rw [hholes, List.forall_mem_singleton]
      exact List.cons_ne_nil _ _

/-- What ends a value in a list. -/
theorem endsTerm_inList {t : Option Token} (h : OrComma (· = some (.mark ")")) t) : EndsTerm t := by
  rcases h with rfl | rfl <;> exact endsTerm_mark (by decide)

theorem covers_sourceInks (flat : Flattened) (c : Column) (fuel : Nat) :
    Covers (term fuel) (tokensOf Param.tokens ((c.sourceInks flat).map (Ink.map Prod.snd)))
      (OrComma (· = some (.mark ")"))) (· = c.given flat) := by
  unfold sourceInks given
  split
  · exact covers_now (fun _ ht => endsTerm_inList ht) fuel
  · exact covers_term_operand (covers_operand_bound _) (fun _ ht => endsTerm_inList ht) fuel

end Column

/-- The parts of the insertion of a flattened record. -/
def insertParts (t : Table) (flat : Flattened) : List (List (Ink (String × Param))) :=
  [[.word "INSERT"], [.word "INTO"], [.word t.name],
    enclosedInks (t.columns.inserted.map Column.nameInks), [.word "VALUES"],
    enclosedInks (t.columns.inserted.map (Column.sourceInks flat))]

section Insertion

variable {t : Table} {record : Record} {q : Query}

/-- What a flattened record binds is its values. -/
theorem get?_of_foldlM {flat : Flattened} : ∀ {columns : List String} {bound params : Params},
    columns.foldlM (fun params column =>
      match flat.get? column with
      | some leaf => .ok (params.insert column (.single leaf.value))
      | none => .error (.valueMissing t.name column)) bound = (.ok params : Checked Params) →
    (∀ column ∈ columns, ∃ leaf, flat.get? column = some leaf ∧
      params.get? column = some (.single leaf.value)) ∧
    ∀ name ∉ columns, params.get? name = bound.get? name := by
  intro columns
  induction columns with
  | nil =>
    intro bound params h
    cases h
    exact ⟨List.forall_mem_nil _, fun _ _ => rfl⟩
  | cons column rest ih =>
    intro bound params h
    rw [List.foldlM_cons] at h
    obtain ⟨middle, hmiddle, h⟩ := Rule.bind_eq_ok h
    split at hmiddle
    · next leaf hleaf =>
      cases hmiddle
      obtain ⟨hrest, hothers⟩ := ih h
      refine ⟨List.forall_mem_cons.2 ⟨⟨leaf, hleaf, ?_⟩, hrest⟩, fun name hname => ?_⟩
      · by_cases hmem : column ∈ rest
        · obtain ⟨other, hother, hbound⟩ := hrest column hmem
          cases hleaf.symm.trans hother
          exact hbound
        · rw [hothers column hmem, NameMap.get?_insert_self]
      · have hne : column ≠ name := fun he => hname (he ▸ List.mem_cons_self)
        rw [hothers name (List.not_mem_of_not_mem_cons hname), NameMap.get?_insert, if_neg hne]
    · cases hmiddle

/-- **A record whose insertion is built has a value for every column** that takes one, which
is bound to the name of the column. -/
theorem exists_of_insertQuery (h : t.insertQuery record = .ok q) :
    ∃ flat, record.flatten = .ok flat ∧ q.sql = t.insertSql ∧
      ∀ c ∈ t.columns.inserted, c.type ≠ .time → ∃ leaf, flat.get? c.name = some leaf ∧
        q.params.get? c.name = some (.single leaf.value) := by
  unfold Table.insertQuery at h
  obtain ⟨flat, hflat, h⟩ := Rule.bind_eq_ok h
  obtain ⟨params, hparams, h⟩ := Rule.bind_eq_ok h
  cases h
  refine ⟨flat, hflat, rfl, fun c hc htime => ?_⟩
  refine (get?_of_foldlM hparams).1 c.name (List.mem_map_of_mem (List.mem_filter.2 ⟨hc, ?_⟩))
  simpa using htime

/-- The names of the columns are legible in parentheses, -/
theorem named_nameInks {params : Params}
    (hcolumns : ∀ c ∈ t.columns.inserted, isBareName c.name.toList = true) :
    Named params (enclosedInks (t.columns.inserted.map Column.nameInks)) :=
  named_enclosedInks (List.forall_mem_map.2 fun c hc => Column.namedPart_nameInks (hcolumns c hc))

/-- and so are their sources, if the values of the record are bound to the names. -/
theorem named_sourceInks {params : Params} {flat : Flattened}
    (hcolumns : ∀ c ∈ t.columns.inserted, isBareName c.name.toList = true)
    (hbound : ∀ c ∈ t.columns.inserted, c.type ≠ .time → ∃ leaf, flat.get? c.name = some leaf ∧
      params.get? c.name = some (.single leaf.value)) :
    Named params (enclosedInks (t.columns.inserted.map (Column.sourceInks flat))) := by
  refine named_enclosedInks (List.forall_mem_map.2 fun c hc => ?_)
  refine Column.namedPart_sourceInks (hcolumns c hc) fun htime => ?_
  obtain ⟨leaf, hleaf, hparam⟩ := hbound c hc htime
  rw [hparam, Column.valueIn_of_get? hleaf]

/-- The insertion of a record is printed in its parts. -/
theorem printedIn_insertParts (hw : t.IsWritable) (h : t.insertQuery record = .ok q)
    {flat : Flattened} (hflat : record.flatten = .ok flat) :
    q.PrintedIn (insertParts t flat) [] := by
  obtain ⟨flat', hflat', hsql, hbound⟩ := exists_of_insertQuery h
  cases hflat.symm.trans hflat'
  refine ⟨?_, "", .nothing, ?_⟩
  · simp only [insertParts, List.forall_mem_cons]
    exact ⟨.word (by decide), .word (by decide), .word hw.name, named_nameInks hw.columns,
      .word (by decide), named_sourceInks hw.columns hbound, List.forall_mem_nil _⟩
  · have hnames : (t.columns.inserted.map Column.nameInks).map namedText =
        t.columns.insertedNames := by
      rw [List.map_map]
      exact List.map_congr_left fun c _ => namedText_word c.name
    have hsources : (t.columns.inserted.map (Column.sourceInks flat)).map namedText =
        t.columns.inserted.map Column.source := by
      rw [List.map_map]
      exact List.map_congr_left fun c _ => Column.namedText_sourceInks flat c
    rw [hsql]
    unfold Table.insertSql Registry.insertList Registry.insertSources
    simp only [insertParts, List.map_cons, List.map_nil, namedText_word, namedText_enclosedInks,
      hnames, hsources, String.intercalate_cons_cons, String.intercalate_singleton,
      String.append_assoc, String.append_empty]
    rw [← String.toList_inj]
    simp only [String.toList_append]
    rfl

/-- If the insertion is executed, cells hold the values that the record has. -/
theorem toCell_of_insertQuery (hw : t.IsWritable) (h : t.insertQuery record = .ok q)
    {flat : Flattened} (hflat : record.flatten = .ok flat) {sql : String} {cells : List Cell}
    (hbound : q.bound = .ok (sql, cells)) {c : Column} (hc : c ∈ t.columns.inserted)
    (htime : c.type ≠ .time) : (c.valueIn flat).toCell = .ok (c.valueIn flat).cell := by
  have hprint := printedIn_insertParts hw h hflat
  rw [hprint.eq_mk] at hbound
  obtain ⟨rfl, -⟩ := hprint.named_all.eq_of_bound hbound
  refine hprint.named_all.toCell_of_bound hbound (c.name, .single (c.valueIn flat)) ?_ _
    (List.mem_singleton.2 rfl)
  have hhole : (c.name, .single (c.valueIn flat)) ∈ holesOf (c.sourceInks flat) := by
    rw [Column.sourceInks, if_neg htime]
    exact List.mem_singleton.2 rfl
  have hsources : (c.name, .single (c.valueIn flat)) ∈
      holesOf (enclosedInks (t.columns.inserted.map (Column.sourceInks flat))) := by
    rw [holesOf_enclosedInks, List.flatMap_map]
    exact List.mem_flatMap.2 ⟨c, hc, hhole⟩
  rw [List.append_nil, spacedInks, holesOf_joinInks (by rfl)]
  refine List.mem_flatMap.2 ⟨_, ?_, hsources⟩
  simp [insertParts]

/-! ### What is read -/

/-- The insertion of a flattened record, as it is read. -/
def insertion (t : Table) (flat : Flattened) : InsertStatement where
  table := t.name
  columns := t.columns.insertedNames
  values := t.columns.inserted.map (Column.given flat)
  onConflict := .fail
  returning := []

/-- The names of the columns, in front of the parenthesis that closes their list. -/
theorem covers_columns {columns : List Column} (hne : columns ≠ []) (fuel : Nat) :
    Covers (separated name fuel)
      (tokensOf Param.tokens ((commaInks (columns.map Column.nameInks)).map (Ink.map Prod.snd)))
      (· = some (.mark ")")) (· = columns.map Column.name) := by
  have hall := covers_commaInks (f := Column.nameInks) (R := fun c n => n = c.name) hne
    (fun c _ => covers_name c.name) (fun _ ht => ne_comma_of_close ht) fuel
  exact hall.mono (fun _ ht => ht) fun _ ha => eq_map_of_forall₂ ha

/-- What follows the columns of an insertion. -/
theorem covers_insertedValues (hne : t.columns.inserted ≠ []) (flat : Flattened)
    (replaces : Option Unit) (hreplaces : replaces = none) (columns : List String) (fuel : Nat) :
    Covers (do
        keywords ["VALUES"]
        let values ← enclosed (separated (term fuel) fuel)
        let updates ← after "ON" (onConflict fuel)
        let returning ← after "RETURNING" (separated name fuel)
        let otherwise := if replaces.isSome then OnConflict.replace else .fail
        return (⟨t.name, columns, values, updates.getD otherwise, returning.getD []⟩ :
          InsertStatement))
      (["VALUES"].map Token.word ++
        tokensOf Param.tokens ((enclosedInks (t.columns.inserted.map (Column.sourceInks flat))).map
          (Ink.map Prod.snd))) EndsCondition
      (· = { insertion t flat with columns }) := by
  subst hreplaces
  have hsources : Covers (enclosed (separated (term fuel) fuel))
      (tokensOf Param.tokens ((enclosedInks (t.columns.inserted.map (Column.sourceInks flat))).map
        (Ink.map Prod.snd))) EndsCondition (· = t.columns.inserted.map (Column.given flat)) :=
    covers_enclosedInks hne (fun c _ => Column.covers_sourceInks flat c fuel) fuel
  have hnone {β : Type} {p : Parse β} {keyword : String} (hk : keyword ≠ "ORDER") :
      Covers (after keyword p) [] EndsCondition (· = none) :=
    covers_not_after.mono (fun _ ht => ht.not_isKeyword hk) fun _ ha => ha
  have hvalues : Covers (keywords ["VALUES"]) (["VALUES"].map Token.word) (fun _ => True)
      fun _ => True := covers_keywords (by decide)
  -- Nothing comes after the values.
  have hend (values : List Term) (hvalues : values = t.columns.inserted.map (Column.given flat)) :
      Covers (do
        let updates ← after "ON" (onConflict fuel)
        let returning ← after "RETURNING" (separated name fuel)
        let otherwise := if (none : Option Unit).isSome then OnConflict.replace else .fail
        return (⟨t.name, columns, values, updates.getD otherwise, returning.getD []⟩ :
          InsertStatement)) ([] ++ ([] ++ [])) EndsCondition
        (· = { insertion t flat with columns }) := by
    refine (hnone (by decide)).bind ?_ fun _ ht => ht
    rintro _ rfl
    refine (hnone (by decide)).bind ?_ fun _ ht => ht
    rintro _ rfl
    rw [hvalues]
    exact .pure rfl
  refine hvalues.bind (fun _ _ => ?_) fun _ _ => trivial
  rw [← List.append_nil (tokensOf _ _)]
  exact hsources.bind hend fun _ ht => ht

/-- The tokens of an insertion, after its first word. -/
def insertTokens (t : Table) (flat : Flattened) : List Token :=
  ["INTO"].map Token.word ++ ([.word t.name] ++ (.mark "(" ::
    (tokensOf Param.tokens ((commaInks (t.columns.inserted.map Column.nameInks)).map
      (Ink.map Prod.snd)) ++ (.mark ")" :: (["VALUES"].map Token.word ++
    tokensOf Param.tokens ((enclosedInks (t.columns.inserted.map (Column.sourceInks flat))).map
      (Ink.map Prod.snd)))))))

theorem partTokens_insertParts (t : Table) (flat : Flattened) :
    partTokens (insertParts t flat) = .word "INSERT" :: insertTokens t flat := by
  simp only [partTokens, insertParts, insertTokens, List.flatMap_cons, List.flatMap_nil,
    List.append_nil, tokensOf_enclosedInks, List.append_assoc, List.cons_append]
  rfl

/-- An insertion is read as its parts say. -/
theorem covers_insertStatement (hne : t.columns.inserted ≠ []) (flat : Flattened) (fuel : Nat) :
    Covers (insertStatement fuel) (insertTokens t flat) EndsCondition (· = insertion t flat) := by
  have hinto : Covers (keywords ["INTO"]) (["INTO"].map Token.word) (fun _ => True) fun _ => True :=
    covers_keywords (by decide)
  have hname : Covers name [.word t.name] (fun _ => True) (· = t.name) := covers_name t.name
  have hnone : Covers (after "OR" (keywords ["REPLACE"])) []
      (fun t => ¬ IsKeyword ["OR"] t) (· = none) := covers_not_after
  unfold insertStatement
  refine hnone.bind ?_ fun _ _ => ?_
  · intro replaces hreplaces
    refine hinto.bind (fun _ _ => hname.bind ?_ fun _ _ => trivial) fun _ _ => trivial
    rintro _ rfl
    -- The parenthesis that opens the list of columns is there.
    refine .whenMark ?_
    refine (covers_columns hne fuel).bind ?_ fun _ _ => rfl
    rintro _ rfl
    refine .afterMark ?_
    exact covers_insertedValues hne flat replaces hreplaces t.columns.insertedNames fuel
  · exact fun h => absurd (isKeyword_word.1 h) (by decide)

/-- **What the database reads of the insertion of a record gives the columns what the record
has.** -/
theorem read_insertQuery (hw : t.IsWritable) (hne : t.columns.inserted ≠ [])
    (h : t.insertQuery record = .ok q) {flat : Flattened} (hflat : record.flatten = .ok flat)
    {sql : String} {cells : List Cell} {s : Statement} (hbound : q.bound = .ok (sql, cells))
    (hs : Statement.read sql cells = .ok s) : s = .insert (insertion t flat) := by
  refine Statement.read_of_parts (P := (· = .insert (insertion t flat)))
    (printedIn_insertParts hw h hflat) hbound hs fun fuel rest hends => ?_
  rw [partTokens_insertParts]
  have hinsert : Yields (insertStatement fuel) (insertTokens t flat) rest (· = insertion t flat) :=
    (covers_insertStatement hne flat fuel).yields hends
  exact .unlessKeyword (by decide) (.whenKeyword (by decide)
    (hinsert.map fun _ ha => congrArg Statement.insert ha))

end Insertion

end ResourceTable
