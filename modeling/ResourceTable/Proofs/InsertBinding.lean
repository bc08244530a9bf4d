import ResourceTable.Proofs.InsertReading
import ResourceTable.Proofs.Traversal
import ResourceTable.Proofs.UpdateBinding
import ResourceTable.Proofs.WrittenColumns

/-!
# Binding insertions

An insertion names the columns of its table, then lists their sources in parentheses: the clock
for a time column, and a placeholder of the column's name for any other.  The columns come from
the registry three times, as names, as sources and as what the record has to bind, so that the
value of a column has to be found at the place of its name.

A record is refused if it cannot be flattened, or if it has no value for a column that takes one.

## Main definitions

* `Table.Takes`, `Table.Refuses`: the records that can be inserted, and why others cannot.
* `Column.Fills`: what is to stand at the place of a column.
* `Table.filledSql`: the text of an insertion with its places filled.
* `Table.InsertsInPlace`: what the query of an insertion does.

## Main results

* `Table.insertParams_eq` — a record is bound by a traversal of the columns.
* `Table.exists_insertsInPlace` — every value is bound at the place of its column.
* `Table.inserted_in_place` — **records are inserted each in its place, or the first that is
  refused decides the error.**
-/

namespace ResourceTable

open Sql (Cell)

/-! ### Values of records -/

/-- Cells can hold what fields have. -/
theorem Leaf.OfField.isStorable {leaf : Leaf} (h : leaf.OfField) :
    leaf.value.isStorable = true := by
  cases h with
  | plain s x | optional s x => cases s <;> rfl
  | absent s => cases s <;> rfl

/-- A query behind a text is executed behind it. -/
theorem Query.bound_ledBy {front : String} (q : Query) (h : Placeholder.IsInert front) :
    (q.ledBy front).bound = q.bound.map fun r => (front ++ " " ++ r.1, r.2) := by
  rw [bound, bound, q.unbound?_ledBy h, q.positional_ledBy h, q.values_ledBy h]
  cases q.unbound? with
  | some name => rfl
  | none => cases q.values.mapM Value.toCell <;> rfl

namespace Column

variable {flat : Flattened} {c : Column}

/-- What is to stand at the place of a column: nothing for a time column, where the clock is
read, and else the cell of the value that the record has for the column. -/
inductive Fills (flat : Flattened) (c : Column) : Option Cell → Prop
  | clock (htime : c.type = .time) : Fills flat c none
  | value {leaf : Leaf} {cell : Cell} (htime : c.type ≠ .time)
    (hleaf : flat.get? c.name = some leaf) (hcell : leaf.value.toCell = .ok cell) :
    Fills flat c (some cell)

/-- What stands at the place of a column. -/
def slot (flat : Flattened) (c : Column) : Option Cell :=
  if c.type = .time then none else some (c.valueIn flat).cell

theorem fills_slot (h : c.type ≠ .time → ∃ leaf, flat.get? c.name = some leaf ∧ leaf.OfField) :
    c.Fills flat (c.slot flat) := by
  unfold slot
  split
  · next htime => exact .clock htime
  · next htime =>
    obtain ⟨leaf, hleaf, hfield⟩ := h htime
    rw [valueIn_of_get? hleaf]
    exact .value htime hleaf (Value.toCell_of_isStorable hfield.isStorable)

/-- The text of a place: a question mark, or the clock. -/
def mark (slot : Option Cell) : String := if slot.isSome then "?" else "now()"

/-- In positional form a source is the text of its place, -/
theorem print_sourceInks (flat : Flattened) (c : Column) :
    String.ofList (print (fun b => (Query.marks b.2).toList) (c.sourceInks flat)) =
      mark (c.slot flat) := by
  unfold sourceInks slot
  split
  · rfl
  · rw [← String.toList_inj, String.toList_ofList, print_cons, Ink.chars, Query.marks]
    simp only [Param.values, List.map_cons, List.map_nil, String.intercalate_singleton]
    exact List.append_nil _

/-- and its cells are what stands there. -/
theorem cells_sourceInks (flat : Flattened) (c : Column) :
    ((holesOf (c.sourceInks flat)).flatMap fun b => b.2.values).map Value.cell =
      (c.slot flat).toList := by
  unfold sourceInks slot
  split <;> rfl

end Column

namespace Table

variable {t : Table} {flat : Flattened} {record : Record} {q : Query}

/-! ### Records that are refused -/

/-- A flattened record has a value for every column that takes one. -/
def IsGivenBy (t : Table) (flat : Flattened) : Prop :=
  ∀ c ∈ t.columns.inserted, c.type ≠ .time → ∃ leaf, flat.get? c.name = some leaf

/-- A record can be inserted. -/
def Takes (t : Table) (record : Record) : Prop :=
  ∃ flat, record.flatten = .ok flat ∧ t.IsGivenBy flat

/-- Why a record cannot be inserted: it cannot be flattened, or there is a first column that it
has no value for. -/
inductive Refuses (t : Table) (record : Record) : RequestError → Prop
  | unflattened {e : RequestError} (h : record.flatten = .error e) : Refuses t record e
  | missing {flat : Flattened} {before after : List Column} {c : Column}
    (hflat : record.flatten = .ok flat) (hcolumns : t.columns.inserted = before ++ c :: after)
    (hbefore : ∀ b ∈ before, b.type ≠ .time → ∃ leaf, flat.get? b.name = some leaf)
    (htime : c.type ≠ .time) (hnone : flat.get? c.name = none) :
    Refuses t record (.valueMissing t.name c.name)

/-- What is bound to the name of a column. -/
def entryFor (t : Table) (flat : Flattened) (column : String) : Checked (String × Param) :=
  match flat.get? column with
  | some leaf => .ok (column, .single leaf.value)
  | none => .error (.valueMissing t.name column)

theorem entryFor_eq_ok_iff {column : String} {entry : String × Param} :
    t.entryFor flat column = .ok entry ↔
      ∃ leaf, flat.get? column = some leaf ∧ entry = (column, .single leaf.value) := by
  unfold entryFor
  cases flat.get? column with
  | none => exact iff_of_false (fun h => nomatch h) fun ⟨_, h, _⟩ => nomatch h
  | some leaf => simp [eq_comm]

theorem entryFor_eq_error_iff {column : String} {e : RequestError} :
    t.entryFor flat column = .error e ↔
      flat.get? column = none ∧ e = .valueMissing t.name column := by
  unfold entryFor
  cases flat.get? column with
  | none => simp [eq_comm]
  | some leaf => exact iff_of_false (fun h => nomatch h) fun h => nomatch h.1

/-- **A record is bound by a traversal of the columns** that take a value. -/
theorem insertParams_eq (t : Table) (flat : Flattened) :
    t.insertParams flat = (t.boundColumns.mapM (t.entryFor flat)).map NameMap.ofList := by
  have hfold : ∀ (columns : List String) (bound : Params),
      columns.foldlM (fun params column =>
        match flat.get? column with
        | some leaf => .ok (params.insert column (.single leaf.value))
        | none => .error (.valueMissing t.name column)) bound =
      (columns.mapM (t.entryFor flat)).map fun entries =>
        entries.foldl (fun params entry => params.insert entry.1 entry.2) bound := by
    intro columns
    induction columns with
    | nil => exact fun _ => rfl
    | cons column rest ih =>
      intro bound
      rw [List.foldlM_cons, List.mapM_cons, entryFor]
      cases flat.get? column with
      | none => rfl
      | some leaf =>
        refine (ih _).trans ?_
        cases rest.mapM (t.entryFor flat) <;> rfl
  exact hfold t.boundColumns .empty

theorem nodup_boundColumns (t : Table) : t.boundColumns.Nodup :=
  t.columns.nodup.sublist ((List.filter_sublist.trans List.filter_sublist).map Column.name)

theorem mem_boundColumns {name : String} :
    name ∈ t.boundColumns ↔ ∃ c ∈ t.columns.inserted, c.type ≠ .time ∧ c.name = name := by
  simp [boundColumns, and_assoc]

/-- The names that are bound before a name are those of the columns before its column, but for
time columns. -/
theorem boundColumns_eq_append {before after : List String} {column : String}
    (h : t.boundColumns = before ++ column :: after) :
    ∃ (front back : List Column) (c : Column), t.columns.inserted = front ++ c :: back ∧
      c.type ≠ .time ∧ c.name = column ∧ ∀ b ∈ front, b.type ≠ .time → b.name ∈ before := by
  obtain ⟨first, last, hfilter, hfirst, hlast⟩ := List.map_eq_append_iff.1 h
  obtain ⟨c, rest, rfl, hname, -⟩ := List.map_eq_cons_iff.1 hlast
  obtain ⟨front, back, hinserted, hfront, hback⟩ := List.filter_eq_append_iff.1 hfilter
  obtain ⟨skipped, back, rfl, hskipped, htime, -⟩ := List.filter_eq_cons_iff.1 hback
  refine ⟨front ++ skipped, back, c, ?_, ?_, hname, List.forall_mem_append.2 ⟨?_, ?_⟩⟩
  · rw [hinserted, List.append_assoc]
  · simpa using htime
  · intro b hb hbound
    rw [← hfirst, ← hfront]
    exact List.mem_map_of_mem (List.mem_filter.2 ⟨hb, by simpa using hbound⟩)
  · intro b hb hbound
    exact absurd (by simpa using hbound) (hskipped b hb)

/-- The first column without a value decides the error. -/
theorem insertParams_eq_error_iff {e : RequestError} : t.insertParams flat = .error e ↔
    ∃ before c after, t.columns.inserted = before ++ c :: after ∧
      (∀ b ∈ before, b.type ≠ .time → ∃ leaf, flat.get? b.name = some leaf) ∧
      c.type ≠ .time ∧ flat.get? c.name = none ∧ e = .valueMissing t.name c.name := by
  have hmap : t.insertParams flat = .error e ↔
      t.boundColumns.mapM (t.entryFor flat) = .error e := by
    rw [insertParams_eq]
    cases t.boundColumns.mapM (t.entryFor flat) <;> simp [Except.map]
  rw [hmap, mapM_eq_error_iff]
  constructor
  · rintro ⟨before, column, after, hcolumns, hbefore, herror⟩
    obtain ⟨front, back, c, hinserted, htime, rfl, hfront⟩ := boundColumns_eq_append hcolumns
    obtain ⟨hnone, he⟩ := entryFor_eq_error_iff.1 herror
    refine ⟨front, c, back, hinserted, fun b hb hbound => ?_, htime, hnone, he⟩
    obtain ⟨entry, hentry⟩ := hbefore b.name (hfront b hb hbound)
    obtain ⟨leaf, hleaf, -⟩ := entryFor_eq_ok_iff.1 hentry
    exact ⟨leaf, hleaf⟩
  · rintro ⟨before, c, after, hinserted, hbefore, htime, hnone, rfl⟩
    refine ⟨(before.filter fun c => c.type != .time).map Column.name, c.name,
      (after.filter fun c => c.type != .time).map Column.name, ?_, ?_,
      entryFor_eq_error_iff.2 ⟨hnone, rfl⟩⟩
    · simp [boundColumns, hinserted, htime]
    · refine List.forall_mem_map.2 fun b hb => ?_
      obtain ⟨hb, hbound⟩ := List.mem_filter.1 hb
      obtain ⟨leaf, hleaf⟩ := hbefore b hb (by simpa using hbound)
      exact ⟨_, entryFor_eq_ok_iff.2 ⟨leaf, hleaf, rfl⟩⟩

/-- A record has no query exactly if it is refused. -/
theorem insertQuery_eq_error_iff {e : RequestError} :
    t.insertQuery record = .error e ↔ t.Refuses record e := by
  unfold insertQuery
  rw [bind_eq_error_iff]
  constructor
  · rintro (hflat | ⟨flat, hflat, h⟩)
    · exact .unflattened hflat
    · rcases bind_eq_error_iff.1 h with hparams | ⟨params, -, h⟩
      · obtain ⟨before, c, after, hcolumns, hbefore, htime, hnone, rfl⟩ :=
          insertParams_eq_error_iff.1 hparams
        exact .missing hflat hcolumns hbefore htime hnone
      · cases h
  · rintro (hflat | ⟨hflat, hcolumns, hbefore, htime, hnone⟩)
    · exact .inl hflat
    · refine .inr ⟨_, hflat, bind_eq_error_iff.2 (.inl ?_)⟩
      exact insertParams_eq_error_iff.2 ⟨_, _, _, hcolumns, hbefore, htime, hnone, rfl⟩

theorem exists_insertQuery_iff : (∃ q, t.insertQuery record = .ok q) ↔ t.Takes record := by
  constructor
  · rintro ⟨q, hq⟩
    obtain ⟨flat, hflat, -, hvalues⟩ := exists_of_insertQuery hq
    refine ⟨flat, hflat, fun c hc htime => ?_⟩
    obtain ⟨leaf, hleaf, -⟩ := hvalues c hc htime
    exact ⟨leaf, hleaf⟩
  · rintro ⟨flat, hflat, hgiven⟩
    cases hq : t.insertQuery record with
    | ok q => exact ⟨q, rfl⟩
    | error e =>
      exfalso
      rcases insertQuery_eq_error_iff.1 hq with hnone | ⟨hother, hcolumns, -, htime, hnone⟩
      · cases hflat.symm.trans hnone
      · cases hflat.symm.trans hother
        obtain ⟨leaf, hleaf⟩ := hgiven _ (hcolumns ▸ by simp) htime
        cases hnone.symm.trans hleaf

/-- The keys of what is bound are the columns that take a value. -/
theorem mem_keys_insertParams {params : Params} (h : t.insertParams flat = .ok params)
    {name : String} : name ∈ params.keys ↔ name ∈ t.boundColumns := by
  rw [insertParams_eq] at h
  cases hentries : t.boundColumns.mapM (t.entryFor flat) with
  | error e =>
    rw [hentries] at h
    cases h
  | ok entries =>
    rw [hentries] at h
    cases h
    have hnames : entries.map Prod.fst = t.boundColumns := by
      refine (List.forall₂_eq_eq_eq ▸ List.forall₂_map_right_iff.2 ?_ :
        t.boundColumns = entries.map Prod.fst).symm
      refine (mapM_eq_ok_iff.1 hentries).imp fun column entry hentry => ?_
      obtain ⟨leaf, -, rfl⟩ := entryFor_eq_ok_iff.1 hentry
      rfl
    rw [NameMap.mem_keys_ofList (hnames ▸ t.nodup_boundColumns), hnames]

/-! ### Values in their places -/

/-- The text of an insertion with its places filled. -/
def filledSql (t : Table) (slots : List (Option Cell)) : String :=
  "INSERT INTO " ++ t.name ++ " (" ++ String.intercalate ", " t.columns.insertedNames ++
    ") VALUES (" ++ String.intercalate ", " (slots.map Column.mark) ++ ")"

/-- The query of an insertion binds every column that takes a value to that of the record, and is
executed with every value at the place of its column. -/
structure InsertsInPlace (t : Table) (flat : Flattened) (q : Query) : Prop where
  /-- The keys of the parameters are the columns that take a value. -/
  keys : ∀ name, name ∈ q.params.keys ↔ ∃ c ∈ t.columns.inserted, c.type ≠ .time ∧ c.name = name
  /-- They are bound to the values of the record. -/
  values : ∀ c ∈ t.columns.inserted, c.type ≠ .time → ∃ leaf, flat.get? c.name = some leaf ∧
    q.params.get? c.name = some (.single leaf.value)
  /-- Behind the name of a table that replaces and quotes nothing, the values are at the places
  of their columns. -/
  bound : Placeholder.IsInert t.name → ∃ slots,
    List.Forall₂ (Column.Fills flat) t.columns.inserted slots ∧
      q.bound = .ok (t.filledSql slots, slots.filterMap id)

/-- The print of an insertion behind the name of its table. -/
def insertInks (t : Table) (flat : Flattened) : List (Ink (String × Param)) :=
  spacedInks [enclosedInks (t.columns.inserted.map Column.nameInks), [.word "VALUES"],
    enclosedInks (t.columns.inserted.map (Column.sourceInks flat))]

/-- Whatever is filled into its places, the names of the columns stay. -/
theorem print_insertInks (t : Table) (flat : Flattened) (fill : String × Param → List Char) :
    String.ofList (print fill (t.insertInks flat)) =
      "(" ++ String.intercalate ", " t.columns.insertedNames ++ ") VALUES (" ++
        String.intercalate ", " (t.columns.inserted.map fun c =>
          String.ofList (print fill (c.sourceInks flat))) ++ ")" := by
  have hname (c : Column) : String.ofList (print fill c.nameInks) = c.name := by
    rw [← String.toList_inj, String.toList_ofList]
    exact List.append_nil _
  rw [insertInks, spacedInks, print_joinInks, String.ofList_toList]
  simp only [List.map_cons, List.map_nil, String.intercalate_cons_cons,
    String.intercalate_singleton, print_enclosedInks, List.map_map, Function.comp_def, hname,
    Registry.insertedNames]
  rw [← String.toList_inj]
  simp only [String.toList_append, String.toList_ofList, List.append_assoc]
  rfl

theorem insertSql_eq (t : Table) (flat : Flattened) :
    t.insertSql = "INSERT INTO" ++ " " ++ t.name ++ " " ++ namedText (t.insertInks flat) := by
  have hsources : (t.columns.inserted.map fun c => namedText (c.sourceInks flat)) =
      t.columns.inserted.map Column.source :=
    List.map_congr_left fun c _ => Column.namedText_sourceInks flat c
  rw [namedText, print_insertInks]
  simp only [← namedText.eq_def]
  rw [hsources, ← String.toList_inj]
  unfold insertSql Registry.insertList Registry.insertSources
  simp only [String.toList_append, List.append_assoc]
  rfl

/-- The holes of the print are those of its sources. -/
theorem holesOf_insertInks (t : Table) (flat : Flattened) :
    holesOf (t.insertInks flat) =
      t.columns.inserted.flatMap fun c => holesOf (c.sourceInks flat) := by
  have hnames : holesOf (enclosedInks (t.columns.inserted.map Column.nameInks)) = [] := by
    rw [holesOf_enclosedInks, List.flatMap_map]
    exact List.flatMap_eq_nil_iff.2 fun _ _ => rfl
  rw [insertInks, spacedInks, holesOf_joinInks (by rfl)]
  simp only [List.flatMap_cons, List.flatMap_nil, List.append_nil, hnames, List.nil_append]
  rw [holesOf_enclosedInks, List.flatMap_map]
  rfl

/-- The print binds what the record has, if the names of the columns can be placeholders. -/
theorem bindable_insertInks {params : Params}
    (hcolumns : ∀ c ∈ t.columns.inserted, isBareName c.name.toList = true)
    (hvalues : ∀ c ∈ t.columns.inserted, c.type ≠ .time → ∃ leaf, flat.get? c.name = some leaf ∧
      leaf.OfField ∧ params.get? c.name = some (.single leaf.value)) :
    Bindable params (t.insertInks flat) := by
  refine ⟨named_spacedInks ?named, fun b hb v hv => ?cells⟩
  case named =>
    simp only [List.forall_mem_cons]
    refine ⟨named_nameInks hcolumns, .word (by decide),
      named_sourceInks hcolumns fun c hc htime => ?_, List.forall_mem_nil _⟩
    obtain ⟨leaf, hleaf, -, hparam⟩ := hvalues c hc htime
    exact ⟨leaf, hleaf, hparam⟩
  case cells =>
    rw [holesOf_insertInks] at hb
    obtain ⟨c, hc, hb⟩ := List.mem_flatMap.1 hb
    by_cases htime : c.type = .time
    · rw [Column.sourceInks, if_pos htime] at hb
      cases hb
    · obtain ⟨leaf, hleaf, hfield, -⟩ := hvalues c hc htime
      rw [Column.sourceInks, if_neg htime] at hb
      obtain rfl := List.mem_singleton.1 hb
      rw [List.mem_singleton.1 hv, Column.valueIn_of_get? hleaf]
      exact Value.toCell_of_isStorable hfield.isStorable

/-- In positional form the print has its places filled. -/
theorem positionalText_insertInks (t : Table) (flat : Flattened) :
    "INSERT INTO" ++ " " ++ t.name ++ " " ++
        positionalText ((t.insertInks flat).map (Ink.map Prod.snd)) =
      t.filledSql (t.columns.inserted.map (Column.slot flat)) := by
  have hsources : (t.columns.inserted.map fun c =>
      String.ofList (print (fun b => (Query.marks b.2).toList) (c.sourceInks flat))) =
        (t.columns.inserted.map (Column.slot flat)).map Column.mark := by
    rw [List.map_map]
    exact List.map_congr_left fun c _ => Column.print_sourceInks flat c
  have htext := t.print_insertInks flat fun b => (Query.marks b.2).toList
  rw [hsources] at htext
  have hprint : positionalText ((t.insertInks flat).map (Ink.map Prod.snd)) =
      String.ofList (print (fun b => (Query.marks b.2).toList) (t.insertInks flat)) := by
    rw [positionalText, print_map]
    rfl
  rw [hprint, htext, ← String.toList_inj]
  unfold filledSql
  simp only [String.toList_append, List.append_assoc]
  rfl

/-- Its cells are at the places of their columns. -/
theorem cellsOf_insertInks (t : Table) (flat : Flattened) :
    cellsOf ((t.insertInks flat).map (Ink.map Prod.snd)) =
      (t.columns.inserted.map (Column.slot flat)).filterMap id := by
  rw [cellsOf, holesOf_map, List.flatMap_map, holesOf_insertInks, List.flatMap_assoc,
    List.map_flatMap, List.filterMap_map, Function.id_comp, List.filterMap_eq_flatMap_toList]
  exact List.flatMap_congr fun c _ => Column.cells_sourceInks flat c

/-- **Every value is bound at the place of its column**, if the names of the columns can be
placeholders. -/
theorem exists_insertsInPlace
    (hcolumns : ∀ c ∈ t.columns.inserted, isBareName c.name.toList = true)
    (h : t.insertQuery record = .ok q) :
    ∃ flat, record.flatten = .ok flat ∧ t.InsertsInPlace flat q := by
  obtain ⟨flat, hflat, hsql, hvalues⟩ := exists_of_insertQuery h
  refine ⟨flat, hflat, ?keys, hvalues, fun hname => ?bound⟩
  case keys =>
    intro name
    unfold insertQuery at h
    obtain ⟨flat', hflat', h⟩ := Rule.bind_eq_ok h
    obtain ⟨params, hparams, h⟩ := Rule.bind_eq_ok h
    cases h
    exact (mem_keys_insertParams hparams).trans mem_boundColumns
  case bound =>
    have hfields : ∀ c ∈ t.columns.inserted, c.type ≠ .time → ∃ leaf,
        flat.get? c.name = some leaf ∧ leaf.OfField ∧
          q.params.get? c.name = some (.single leaf.value) := by
      intro c hc htime
      obtain ⟨leaf, hleaf, hparam⟩ := hvalues c hc htime
      exact ⟨leaf, hleaf, Record.ofField_of_flatten hflat hleaf, hparam⟩
    have hlead : Placeholder.IsInert ("INSERT INTO" ++ " " ++ t.name) :=
      .append_blank (by decide) hname
    have hq : q = (Query.mk (namedText (t.insertInks flat)) q.params).ledBy
        ("INSERT INTO" ++ " " ++ t.name) := by
      rw [Query.ledBy, ← insertSql_eq, ← hsql]
    refine ⟨t.columns.inserted.map (Column.slot flat), ?_, ?_⟩
    · rw [List.forall₂_map_right_iff, List.forall₂_same]
      refine fun c hc => Column.fills_slot fun htime => ?_
      obtain ⟨leaf, hleaf, hfield, -⟩ := hfields c hc htime
      exact ⟨leaf, hleaf, hfield⟩
    · rw [hq, Query.bound_ledBy _ hlead, (bindable_insertInks hcolumns hfields).bound_print,
        Except.map, positionalText_insertInks, cellsOf_insertInks]

/-- **Records are inserted each in its place, or the first that is refused decides the error.**
There are queries for records exactly if every one of them has a value for every column that
takes one; then there is one for each record, in order, which binds its values at the places of
their columns. -/
theorem inserted_in_place (t : Table)
    (hcolumns : ∀ c ∈ t.columns.columns, isBareName c.name.toList = true)
    (records : List Record) :
    ((∃ queries, t.insertQueries records = .ok queries) ↔ ∀ record ∈ records, t.Takes record) ∧
    (∀ queries, t.insertQueries records = .ok queries →
      List.Forall₂ (fun record q => ∃ flat, record.flatten = .ok flat ∧ t.InsertsInPlace flat q)
        records queries) ∧
    ∀ e, t.insertQueries records = .error e ↔ ∃ before record after,
      records = before ++ record :: after ∧ (∀ r ∈ before, t.Takes r) ∧ t.Refuses record e := by
  refine ⟨?taken, ?placed, ?refused⟩
  case taken => simp only [insertQueries, exists_mapM_iff, exists_insertQuery_iff]
  case placed =>
    intro queries h
    refine (mapM_eq_ok_iff.1 h).imp fun record q hq => exists_insertsInPlace (fun c hc => ?_) hq
    exact hcolumns c (List.mem_filter.1 hc).1
  case refused =>
    intro e
    simp only [insertQueries, mapM_eq_error_iff, exists_insertQuery_iff, insertQuery_eq_error_iff]

/-- Hosts whose rows the database numbers.  The second list of columns makes one of the first a
time column, where it stands. -/
def seenHosts : Table :=
  .ofColumns "host" (.ofLists true [
    [.plain "id" .string, .plain "seen" .string, .plain "name" .string],
    [.plain "seen" .time, .plain "memo" .string]])

/-- A host, which has its columns in another order, and one of them in a note that it may lack. -/
def notedHost (note : Option (String × Unit)) (name : String) : Record where
  type := ⟨"Host", .cons "note" (some "note") (.optional (.record "Note"
    (.cons "memo" (some "memo") (.scalar .string) .nil)))
      (.cons "name" (some "name") (.scalar .string) .nil)⟩
  content := (note, name, ())

/-- Two hosts are inserted, and the one of two that has no note is refused. -/
theorem notedHosts_inserted_in_place :
    (∀ c ∈ seenHosts.columns.columns, isBareName c.name.toList = true) ∧
      Placeholder.IsInert seenHosts.name ∧
      (∃ q q', seenHosts.insertQueries [notedHost (some ("m", ())) "a",
          notedHost (some ("n", ())) "b"] = .ok [q, q'] ∧
        q.params.keys = ["memo", "name"] ∧
        q.bound = .ok ("INSERT INTO host (seen, name, memo) VALUES (now(), ?, ?)",
          [.text "a", .text "m"]) ∧
        ∃ flat, (notedHost (some ("n", ())) "b").flatten = .ok flat ∧
          seenHosts.InsertsInPlace flat q') ∧
      seenHosts.insertQueries [notedHost (some ("m", ())) "a", notedHost none "b"] =
        .error (.valueMissing "host" "memo") := by
  have hcolumns : ∀ c ∈ seenHosts.columns.columns, isBareName c.name.toList = true := by decide
  have hname : Placeholder.IsInert seenHosts.name := by decide
  let query (name memo : String) : Query :=
    ⟨"INSERT INTO host (seen, name, memo) VALUES (now(), :name, :memo)",
      .ofList [("memo", .single (.text memo)), ("name", .single (.text name))]⟩
  have hqueries : seenHosts.insertQueries [notedHost (some ("m", ())) "a",
      notedHost (some ("n", ())) "b"] = .ok [query "a" "m", query "b" "n"] := by decide +kernel
  obtain ⟨-, hplaced, -⟩ := seenHosts.inserted_in_place hcolumns
    [notedHost (some ("m", ())) "a", notedHost (some ("n", ())) "b"]
  obtain ⟨-, hsecond⟩ := List.forall₂_cons.1 (hplaced _ hqueries)
  obtain ⟨⟨flat, hflat, hinserted⟩, -⟩ := List.forall₂_cons.1 hsecond
  refine ⟨hcolumns, hname, ⟨_, _, hqueries, by decide +kernel, by decide +kernel, flat, hflat,
    hinserted⟩, ?_⟩
  obtain ⟨-, -, hrefused⟩ := seenHosts.inserted_in_place hcolumns
    [notedHost (some ("m", ())) "a", notedHost none "b"]
  refine (hrefused _).2 ⟨[notedHost (some ("m", ())) "a"], notedHost none "b", [], rfl, ?_, ?_⟩
  · refine List.forall_mem_singleton.2 (exists_insertQuery_iff.1 ⟨query "a" "m", ?_⟩)
    decide +kernel
  · have hflat : (notedHost none "b").flatten = .ok (.ofList [("name", ⟨.text "b", .scalar⟩)]) := by
      decide +kernel
    have hinserted : seenHosts.columns.inserted =
        [.plain "seen" .time, .plain "name" .string] ++ [.plain "memo" .string] := by decide +kernel
    refine .missing hflat hinserted ?_ (by decide) (by decide +kernel)
    refine List.forall_mem_cons.2 ⟨fun htime => absurd rfl htime, List.forall_mem_singleton.2 ?_⟩
    exact fun _ => ⟨⟨.text "b", .scalar⟩, by decide +kernel⟩

end Table

end ResourceTable
