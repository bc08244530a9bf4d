import ResourceTable.Proofs.AvoidedPrint
import ResourceTable.Proofs.Compilation
import ResourceTable.Proofs.StatementReading
import ResourceTable.Statement.Delete
import ResourceTable.Statement.Select
import ResourceTable.Statement.Update

/-!
# The parts of statements in print

Around the clause of its filter a statement names columns: those that it selects, those
that it assigns, and the one that orders the rows.  If these names are plain, their print
is legible, and the database reads it as what it says.

## Main definitions

* `Table.IsPlain`: the names of a table can be written into a statement.
* `commaInks`, `spacedInks`: parts with commas and with blanks between them.
* `Column.inks`, `assignmentInks`, `Page.inks`: the parts of statements.

## Main results

* `covers_commaInks` — parts with commas between them are read part by part.
* `exists_outputsPrint`, `named_assignmentsInks`, `exists_endPrint` — the parts are
  legible.
-/

namespace ResourceTable

open Sql Sql.Parse

/-- The names of a table can be written into a statement: its own and those of its columns
are bare names, and no title holds a double quote. -/
structure Table.IsPlain (t : Table) : Prop where
  name : isBareName t.name.toList = true
  columns : ∀ c ∈ t.columns.columns, isBareName c.name.toList = true ∧ '"' ∉ c.title.toList

/-! ### Joined parts -/

section Joined

variable {α : Type}

/-- Parts with something between them. -/
def joinInks (between : List (Ink α)) : List (List (Ink α)) → List (Ink α)
  | [] => []
  | [part] => part
  | part :: next :: rest => part ++ (between ++ joinInks between (next :: rest))

/-- Parts with commas between them. -/
abbrev commaInks : List (List (Ink α)) → List (Ink α) := joinInks [.mark ",", .blank]

/-- Parts with blanks between them. -/
abbrev spacedInks : List (List (Ink α)) → List (Ink α) := joinInks [.blank]

theorem print_joinInks (fill : α → List Char) (between : List (Ink α)) :
    ∀ parts : List (List (Ink α)), print fill (joinInks between parts) =
      (String.intercalate (String.ofList (print fill between))
        (parts.map fun part => String.ofList (print fill part))).toList := by
  intro parts
  induction parts with
  | nil =>
    rw [List.map_nil, String.intercalate_nil]
    rfl
  | cons part rest ih =>
    cases rest with
    | nil => rw [List.map_cons, List.map_nil, String.intercalate_singleton, String.toList_ofList,
        joinInks]
    | cons next more =>
      rw [joinInks, print_append, print_append, ih]
      simp only [List.map_cons, String.intercalate_cons_cons, String.toList_append,
        String.toList_ofList, List.append_assoc]

theorem map_joinInks {β : Type} (f : α → β) (between : List (Ink α)) :
    ∀ parts : List (List (Ink α)), (joinInks between parts).map (Ink.map f) =
      joinInks (between.map (Ink.map f)) (parts.map (List.map (Ink.map f))) := by
  intro parts
  induction parts with
  | nil => rfl
  | cons part rest ih =>
    cases rest with
    | nil => rfl
    | cons next more =>
      rw [joinInks, List.map_append, List.map_append, ih]
      rfl

/-- Joined parts have the holes of the parts, if there are none between them. -/
theorem holesOf_joinInks {between : List (Ink α)} (h : holesOf between = []) :
    ∀ parts : List (List (Ink α)), holesOf (joinInks between parts) = parts.flatMap holesOf := by
  intro parts
  induction parts with
  | nil => rfl
  | cons part rest ih =>
    cases rest with
    | nil => exact (List.append_nil _).symm
    | cons next more =>
      rw [joinInks, holesOf_append, holesOf_append, h, ih, List.flatMap_cons]
      rfl

/-- Two parts with a blank between them. -/
theorem print_spacedInks_pair (fill : α → List Char) (a b : List (Ink α)) :
    String.ofList (print fill (spacedInks [a, b])) =
      String.ofList (print fill a) ++ " " ++ String.ofList (print fill b) := by
  rw [spacedInks, print_joinInks, String.ofList_toList]
  exact String.intercalate_cons_cons.trans (congrArg _ String.intercalate_singleton)

theorem tokensOf_commaInks (fill : α → List Token) : ∀ parts : List (List (Ink α)),
    tokensOf fill (commaInks parts) = joinedTokens (.mark ",") (tokensOf fill) parts := by
  intro parts
  induction parts with
  | nil => rfl
  | cons part rest ih =>
    cases rest with
    | nil => rfl
    | cons next more =>
      rw [commaInks, joinInks, tokensOf_append, tokensOf_append, ih, joinedTokens]
      rfl

theorem tokensOf_spacedInks (fill : α → List Token) : ∀ parts : List (List (Ink α)),
    tokensOf fill (spacedInks parts) = parts.flatMap (tokensOf fill) := by
  intro parts
  induction parts with
  | nil => rfl
  | cons part rest ih =>
    cases rest with
    | nil => exact (List.append_nil _).symm
    | cons next more =>
      rw [spacedInks, joinInks, tokensOf_append, tokensOf_append, ih, List.flatMap_cons]
      rfl

/-- What can be closed by a parenthesis can be followed by any mark. -/
theorem joins_mark_of_joins_close {i : Ink α} (h : i.joins (Ink.mark ")" : Ink α) = true)
    (m : String) : i.joins (Ink.mark m : Ink α) = true := by
  cases i with
  | mark s => exact h
  | _ => rfl

end Joined

section Named

variable {params other : Params} {parts : List (List (Ink (String × Param)))}

theorem namedText_word (w : String) : namedText [.word w] = w := by
  rw [namedText, print_cons, print_nil, List.append_nil]
  exact String.ofList_toList

theorem Named.word {w : String} (h : isBareName w.toList = true) : Named params [.word w] :=
  .of_holesOf_eq_nil ⟨List.forall_mem_singleton.2 h, .singleton _⟩ rfl

/-- A print stays named if more is bound. -/
theorem Named.mono {is : List (Ink (String × Param))} (h : Named params is)
    (hle : ∀ name p, params.get? name = some p → other.get? name = some p) : Named other is :=
  ⟨h.legible, h.bare, fun b hb => hle b.1 b.2 (h.bound b hb), h.nonempty⟩

/-- Named parts with something between them that they do not run into. -/
theorem named_joinInks {i : Ink (String × Param)} {more : List (Ink (String × Param))}
    (hbetween : Named params (i :: more)) (hblank : (i :: more).getLast? = some .blank)
    (h : ∀ part ∈ parts, Named params part)
    (hmeet : ∀ part ∈ parts, ∀ j ∈ part.getLast?, j.joins i = true) :
    Named params (joinInks (i :: more) parts) := by
  induction parts with
  | nil => exact .of_holesOf_eq_nil .nil rfl
  | cons part rest ih =>
    obtain ⟨hpart, hrest⟩ := List.forall_mem_cons.1 h
    obtain ⟨hlast, hlasts⟩ := List.forall_mem_cons.1 hmeet
    cases rest with
    | nil => exact hpart
    | cons next tail =>
      have hback : Named params ((i :: more) ++ joinInks (i :: more) (next :: tail)) := by
        refine hbetween.append (ih hrest hlasts) fun j hj k _ => ?_
        rw [hblank] at hj
        cases hj
        exact Ink.blank_joins k
      refine hpart.append hback fun j hj k hk => ?_
      cases hk
      exact hlast j hj

/-- A named print that a statement can go on with. -/
structure NamedPart (params : Params) (is : List (Ink (String × Param))) : Prop where
  named : Named params is
  closes : Closes is

/-- Inks without holes that are legible are named, whatever is bound. -/
theorem NamedPart.of_legible {is : List (Ink (String × Param))} (h : Legible is)
    (hnone : holesOf is = []) (hcloses : Closes is) : NamedPart params is :=
  ⟨.of_holesOf_eq_nil h hnone, hcloses⟩

theorem named_commaInks (h : ∀ part ∈ parts, NamedPart params part) :
    Named params (commaInks parts) := by
  have hcomma : Named params [.mark ",", .blank] := by
    refine .of_holesOf_eq_nil ⟨?_, by simp [Ink.joins, Ink.closedMarks]⟩ rfl
    simp [Ink.IsSound, Ink.printedMarks]
  exact named_joinInks hcomma rfl (fun part hpart => (h part hpart).named)
    fun part hpart j hj => joins_mark_of_joins_close ((h part hpart).closes.last j hj) ","

theorem named_spacedInks (h : ∀ part ∈ parts, Named params part) :
    Named params (spacedInks parts) := by
  have hblank : Named params [.blank] :=
    .of_holesOf_eq_nil ⟨List.forall_mem_singleton.2 trivial, .singleton _⟩ rfl
  exact named_joinInks hblank rfl h fun _ _ j _ => Ink.joins_blank j

/-- Parts with commas between them are read part by part. -/
theorem covers_commaInks {ι α : Type} {p : Parse α} {next : Option Token → Prop}
    {f : ι → List (Ink (String × Param))} {l : List ι} {R : ι → α → Prop} (hne : l ≠ [])
    (h : ∀ x ∈ l, Covers p (tokensOf Param.tokens ((f x).map (Ink.map Prod.snd)))
      (OrComma next) (R x))
    (hcomma : ∀ t, next t → t ≠ some (.mark ",")) (fuel : Nat) :
    Covers (separated p fuel)
      (tokensOf Param.tokens ((commaInks (l.map f)).map (Ink.map Prod.snd))) next
      (List.Forall₂ R l) := by
  have htokens : tokensOf Param.tokens ((commaInks (l.map f)).map (Ink.map Prod.snd)) =
      joinedTokens (.mark ",")
        (fun x => tokensOf Param.tokens ((f x).map (Ink.map Prod.snd))) l := by
    rw [commaInks, map_joinInks, List.map_map]
    exact (tokensOf_commaInks _ _).trans (joinedTokens_map _ _ _ _)
  rw [htokens]
  exact covers_separated hne h hcomma fuel

end Named

/-! ### What is selected -/

/-- The print of a selected column. -/
def Column.inks {α : Type} (c : Column) : List (Ink α) :=
  if c.title = c.name then [.word c.name]
  else [.word c.name, .blank, .word "AS", .blank, .title c.title]

section Outputs

variable {params : Params}

theorem print_inks (c : Column) (fill : String × Param → List Char) :
    print fill c.inks = c.projected.toList := by
  unfold Column.inks Column.projected
  split
  · exact List.append_nil _
  · simp [print, Ink.chars]

theorem tokensOf_inks (c : Column) :
    tokensOf Param.tokens (c.inks.map (Ink.map (Prod.snd : String × Param → Param))) =
      columnTokens c := by
  unfold Column.inks columnTokens titleTokens
  split <;> rfl

theorem namedPart_inks {c : Column} (hname : isBareName c.name.toList = true)
    (htitle : '"' ∉ c.title.toList) : NamedPart params c.inks := by
  unfold Column.inks
  split
  · exact .of_legible (legible_cons hname .nil (by simp)) rfl
      ⟨List.cons_ne_nil _ _, by simp [Ink.joins]⟩
  · refine .of_legible ⟨?_, by simp [Ink.joins]⟩ rfl ⟨List.cons_ne_nil _ _, by simp [Ink.joins]⟩
    simp [Ink.IsSound, hname, htitle]
    decide

/-- What is selected: the number of rows, or columns of the table. -/
theorem projection_eq {table : Table} {s : Selection} {text : String}
    (h : s.projection table = .ok text) : text = "COUNT(*)" ∨ ∃ cs : List Column, cs ≠ [] ∧
      (∀ c ∈ cs, c ∈ table.columns.columns) ∧
      text = String.intercalate ", " (cs.map Column.projected) := by
  unfold Selection.projection at h
  split at h
  · exact .inl (Except.ok.inj h).symm
  · dsimp only at h
    split at h
    · cases h
    · next hne =>
      obtain rfl := Except.ok.inj h
      unfold Registry.projectionOf at hne ⊢
      split
      · next hall =>
        rw [if_pos hall] at hne
        refine .inr ⟨table.columns.columns, fun hnil => ?_, fun _ hc => hc, rfl⟩
        rw [Registry.projection, hnil] at hne
        exact hne rfl
      · next hsome =>
        rw [if_neg hsome] at hne
        refine .inr ⟨s.fields.filterMap table.columns.column?, fun hnil => ?_, fun c hc => ?_, rfl⟩
        · rw [hnil] at hne
          exact hne rfl
        · obtain ⟨name, -, hfind⟩ := List.mem_filterMap.1 hc
          exact List.mem_of_find?_eq_some hfind

/-- The print of the number of rows. -/
def countInks {α : Type} : List (Ink α) := [.word "COUNT", .mark "(", .mark "*", .mark ")"]

theorem namedPart_countInks : NamedPart params countInks := by
  refine .of_legible ⟨?_, by simp [countInks, Ink.joins, Ink.closedMarks]⟩ rfl
    ⟨List.cons_ne_nil _ _, by simp [countInks, Ink.joins, Ink.closedMarks]⟩
  simp [countInks, Ink.IsSound, Ink.printedMarks]
  decide

/-- The print of what is selected. -/
structure OutputsPrint (params : Params) (text : String) (is : List (Ink (String × Param))) :
    Prop where
  text : namedText is = text
  named : Named params is
  covers : ∀ fuel, Covers (separated (output fuel) fuel)
    (tokensOf Param.tokens (is.map (Ink.map Prod.snd))) EndsOutputs fun _ => True

theorem outputsPrint_count : OutputsPrint params "COUNT(*)" countInks := by
  refine ⟨by rfl, namedPart_countInks.named, fun fuel => ?_⟩
  have hall := covers_commaInks (l := [countInks]) (f := id) (R := fun _ _ => True)
    (List.cons_ne_nil _ []) (List.forall_mem_singleton.2 (covers_count fuel))
    (fun _ ht => ne_comma_of_endsOutputs ht) fuel
  exact hall.mono (fun _ ht => ht) fun _ _ => trivial

/-- Columns are printed and read as outputs. -/
theorem outputsPrint_columns {cs : List Column} (hne : cs ≠ [])
    (hcolumns : ∀ c ∈ cs, isBareName c.name.toList = true ∧ '"' ∉ c.title.toList) :
    OutputsPrint params (String.intercalate ", " (cs.map Column.projected))
      (commaInks (cs.map Column.inks)) := by
  refine ⟨?_, ?_, fun fuel => ?_⟩
  · rw [namedText, commaInks, print_joinInks, List.map_map, String.ofList_toList]
    refine congrArg (String.intercalate ", ") (List.map_congr_left fun c _ => ?_)
    rw [Function.comp_apply, print_inks, String.ofList_toList]
  · refine named_commaInks ?_
    rintro _ hpart
    obtain ⟨c, hc, rfl⟩ := List.mem_map.1 hpart
    exact namedPart_inks (hcolumns c hc).1 (hcolumns c hc).2
  · have hcolumn (c : Column) : Covers (output fuel)
        (tokensOf Param.tokens ((c.inks : List (Ink (String × Param))).map (Ink.map Prod.snd)))
        (OrComma EndsOutputs) fun _ => True := by
      rw [tokensOf_inks]
      exact covers_output c fuel
    have hall := covers_commaInks (R := fun _ _ => True) hne (fun c _ => hcolumn c)
      (fun _ ht => ne_comma_of_endsOutputs ht) fuel
    exact hall.mono (fun _ ht => ht) fun _ _ => trivial

/-- **What is selected is printed and read as outputs.** -/
theorem exists_outputsPrint {table : Table} (hplain : table.IsPlain) {s : Selection} {text : String}
    (h : s.projection table = .ok text) : ∃ is, OutputsPrint params text is := by
  rcases projection_eq h with rfl | ⟨cs, hne, hcolumns, rfl⟩
  · exact ⟨countInks, outputsPrint_count⟩
  · exact ⟨_, outputsPrint_columns hne fun c hc => hplain.columns c (hcolumns c hc)⟩

end Outputs

/-! ### What is assigned -/

/-- The print of an assignment from the placeholder of the column's name. -/
def assignmentInks (a : String × Param) : List (Ink (String × Param)) :=
  [.word a.1, .blank, .mark "=", .blank, .hole a]

/-- The print of the assignment of the time of the last update. -/
def stampInks : List (Ink (String × Param)) :=
  [.word updatedAt, .blank, .mark "=", .blank, .word "now", .mark "(", .mark ")"]

/-- The print of some assignments and that of the time of the last update. -/
def assignmentsInks (written : List (String × Leaf)) : List (Ink (String × Param)) :=
  commaInks ((written.map fun entry => assignmentInks (entry.1, .single entry.2.value)) ++
    [stampInks])

section Assignments

variable {params : Params} {written : List (String × Leaf)}

theorem print_assignmentInks (a : String × Param) :
    String.ofList (print (fun b => named b.1) (assignmentInks a)) = assignment a.1 := by
  rw [← String.toList_inj, String.toList_ofList]
  simp [assignmentInks, assignment, print, Ink.chars, named]

theorem print_assignmentsInks (written : List (String × Leaf)) :
    namedText (assignmentsInks written) = String.intercalate ", "
      ((written.map Prod.fst).map assignment ++ [updatedAt ++ " = now()"]) := by
  rw [namedText, assignmentsInks, commaInks, print_joinInks, String.ofList_toList,
    List.map_append, List.map_map, List.map_map]
  refine congrArg (String.intercalate ", ") (congrArg₂ _ (List.map_congr_left fun entry _ => ?_) ?_)
  · exact print_assignmentInks (entry.1, .single entry.2.value)
  · rfl

/-- What is assigned is bound to the columns. -/
theorem holesOf_assignmentsInks (written : List (String × Leaf)) :
    holesOf (assignmentsInks written) =
      written.map fun entry => (entry.1, .single entry.2.value) := by
  have hstamp : holesOf stampInks = [] := rfl
  rw [assignmentsInks, commaInks, holesOf_joinInks (by rfl), List.flatMap_append,
    List.flatMap_singleton, hstamp, List.append_nil, List.flatMap_map]
  exact List.flatMap_pure_eq_map _ _

/-- Bound values are assigned. -/
theorem namedPart_assignmentInks {column : String} {p : Param}
    (hcolumn : isBareName column.toList = true) (hbound : params.get? column = some p)
    (hvalues : p.values ≠ []) : NamedPart params (assignmentInks (column, p)) := by
  have hholes : holesOf (assignmentInks (column, p)) = [(column, p)] := rfl
  refine ⟨⟨⟨?_, by simp [assignmentInks, Ink.joins]⟩, ?_, ?_, ?_⟩, List.cons_ne_nil _ _,
    by simp [assignmentInks, Ink.joins]⟩
  · simp [assignmentInks, Ink.IsSound, Ink.printedMarks, hcolumn]
  · rw [hholes, List.forall_mem_singleton]
    exact hcolumn
  · rw [hholes, List.forall_mem_singleton]
    exact hbound
  · rw [hholes, List.forall_mem_singleton]
    exact hvalues

theorem namedPart_stampInks : NamedPart params stampInks := by
  refine .of_legible ⟨?_, by simp [stampInks, Ink.joins, Ink.closedMarks]⟩ rfl
    ⟨List.cons_ne_nil _ _, by simp [stampInks, Ink.joins, Ink.closedMarks]⟩
  simp [stampInks, Ink.IsSound, Ink.printedMarks, updatedAt]
  decide

theorem named_assignmentsInks
    (hcolumns : ∀ entry ∈ written, isBareName entry.1.toList = true)
    (hbound : ∀ entry ∈ written, params.get? entry.1 = some (.single entry.2.value)) :
    Named params (assignmentsInks written) := by
  refine named_commaInks (List.forall_mem_append.2 ⟨?_, ?_⟩)
  · rintro _ hpart
    obtain ⟨entry, hentry, rfl⟩ := List.mem_map.1 hpart
    exact namedPart_assignmentInks (hcolumns entry hentry) (hbound entry hentry)
      (List.cons_ne_nil _ _)
  · exact List.forall_mem_singleton.2 namedPart_stampInks

/-- What the database reads of the assignments. -/
def assignedTerms (written : List (String × Leaf)) : List (String × Term) :=
  (written.map fun entry => (entry.1, .literal entry.2.value.cell)) ++ [(updatedAt, .clock .now)]

/-- **The assignments are read as they are written.** -/
theorem covers_assignmentsInks (written : List (String × Leaf)) (fuel : Nat) :
    Covers (separated (Parse.assignment fuel) fuel)
      (tokensOf Param.tokens ((assignmentsInks written).map (Ink.map Prod.snd))) EndsAssignments
      (· = assignedTerms written) := by
  have hwhere : ∀ t, EndsAssignments t → t ≠ some (.mark ",") := by
    rintro _ ht rfl
    exact not_isKeyword_mark ht
  -- Every part goes with what is read of it.
  let parts : List (List (Ink (String × Param)) × (String × Term)) :=
    (written.map fun entry => (assignmentInks (entry.1, .single entry.2.value),
      (entry.1, .literal entry.2.value.cell))) ++ [(stampInks, (updatedAt, .clock .now))]
  have hinks : assignmentsInks written = commaInks (parts.map Prod.fst) := by
    rw [assignmentsInks, List.map_append, List.map_map]
    rfl
  have hterms : assignedTerms written = parts.map Prod.snd := by
    rw [assignedTerms, List.map_append, List.map_map]
    rfl
  have hparts : ∀ part ∈ parts, Covers (Parse.assignment fuel)
      (tokensOf Param.tokens (part.1.map (Ink.map Prod.snd))) (OrComma EndsAssignments)
      (· = part.2) := by
    refine List.forall_mem_append.2 ⟨fun part hpart => ?_, ?_⟩
    · obtain ⟨entry, -, rfl⟩ := List.mem_map.1 hpart
      exact covers_assigned (entry.1, entry.2.value.cell) fuel
    · exact List.forall_mem_singleton.2 (covers_stamped updatedAt fuel)
  have hne : parts ≠ [] := List.append_ne_nil_of_right_ne_nil _ (List.cons_ne_nil _ [])
  have hall := covers_commaInks (f := Prod.fst) hne hparts hwhere fuel
  rw [hinks, hterms]
  refine hall.mono (fun _ ht => ht) fun l hl => ?_
  have hsame : List.Forall₂ Eq l (parts.map Prod.snd) :=
    List.forall₂_map_right_iff.2 hl.flip
  exact List.forall₂_eq_eq_eq ▸ hsame

end Assignments

/-! ### The end of a statement -/

/-- The print of a name, which may begin like a number. -/
def nameInk {α : Type} (name : String) : Ink α :=
  if isBareName name.toList = true then .word name else .digits name

/-- The print of the order of a page and of its rows. -/
def Page.inks (rules : PageRules) (p : Page) : List (Ink (String × Param)) :=
  [.word "ORDER", .blank, .word "BY", .blank, nameInk (p.sort?.getD rules.defaultSort), .blank,
    .word p.order.keyword, .blank, .word "LIMIT", .blank, .digits (toString p.limit.val), .blank,
    .word "OFFSET", .blank, .digits (toString p.start.val)]

section Ends

variable {params : Params}

theorem isSound_nameInk {α : Type} {name : String} (h : isIdentifier name.toList = true) :
    (nameInk name : Ink α).IsSound := by
  unfold nameInk
  split
  · assumption
  · next hbare =>
    refine ⟨h, fun c hc => ?_⟩
    by_contra hdigit
    refine hbare (isBareName_of_isIdentifier h fun d hd => ?_)
    rw [Option.mem_def.1 hd] at hc
    rw [Option.some.inj hc]
    exact Bool.eq_false_iff.2 hdigit

theorem chars_nameInk (fill : String × Param → List Char) (name : String) :
    (nameInk name).chars fill = name.toList := by
  unfold nameInk
  split <;> rfl

theorem hole?_nameInk {α : Type} (name : String) : (nameInk name : Ink α).hole? = none := by
  unfold nameInk
  split <;> rfl

/-- A number is printed in digits. -/
theorem isSound_number {α : Type} (n : FixedInt .u32) :
    (Ink.digits (toString n.val) : Ink α).IsSound := by
  obtain ⟨m, hm⟩ := Int.eq_ofNat_of_zero_le n.holds.1
  have htext : (toString n.val).toList = Nat.toDigits 10 m := by
    rw [hm]
    exact String.toList_ofList
  have hdigits : ∀ c ∈ (toString n.val).toList, c.isDigit = true := by
    intro c hc
    rw [htext] at hc
    exact Nat.isDigit_of_mem_toDigits (by decide) (by decide) hc
  refine ⟨isIdentifier_iff.2 ⟨?_, fun c hc => ?_⟩, fun c hc => hdigits c (List.mem_of_mem_head? hc)⟩
  · rw [htext]
    exact Nat.toDigits_ne_nil
  · exact (isNamePart_iff c).2 (.inr (hdigits c hc))

theorem isBareName_keyword (o : Order) : isBareName o.keyword.toList = true := by
  cases o <;> decide

theorem legible_pageInks {rules : PageRules} {p : Page}
    (h : isIdentifier (p.sort?.getD rules.defaultSort).toList = true) : Legible (p.inks rules) := by
  refine ⟨?_, by simp [Page.inks]⟩
  have horder : isBareName "ORDER".toList = true := by decide
  have hby : isBareName "BY".toList = true := by decide
  have hlimit : isBareName "LIMIT".toList = true := by decide
  have hoffset : isBareName "OFFSET".toList = true := by decide
  simp only [Page.inks, List.forall_mem_cons]
  exact ⟨horder, trivial, hby, trivial, isSound_nameInk h, trivial, isBareName_keyword p.order,
    trivial, hlimit, trivial, isSound_number p.limit, trivial, hoffset, trivial,
    isSound_number p.start, List.forall_mem_nil _⟩

theorem print_pageInks (rules : PageRules) (p : Page) :
    print (fun b => named b.1) (p.inks rules) =
      ("ORDER BY " ++ p.sort?.getD rules.defaultSort ++ " " ++ p.order.keyword ++ " LIMIT " ++
        toString p.limit.val ++ " OFFSET " ++ toString p.start.val).toList := by
  rw [Page.inks]
  simp only [print_cons, print_nil, chars_nameInk]
  simp only [Ink.chars, String.toList_append, List.append_assoc, List.append_nil]
  rfl

theorem holesOf_pageInks (rules : PageRules) (p : Page) : holesOf (p.inks rules) = [] := by
  simp only [holesOf, Page.inks, List.filterMap_cons, hole?_nameInk]
  rfl

theorem toList_spaced {part : String} (h : part ≠ "") :
    (Selection.spaced part).toList = ' ' :: part.toList := by
  rw [Selection.spaced, if_neg (by simpa using h), String.toList_append]
  rfl

/-- The print of the end of a statement: it stands apart and ends a condition. -/
structure EndPrint (params : Params) (text : String) (is : List (Ink (String × Param))) :
    Prop where
  text : print (fun b => named b.1) is = text.toList
  named : Named params is
  head : ∀ i ∈ is.head?, i = .blank
  ends : EndsCondition (tokensOf Param.tokens (is.map (Ink.map Prod.snd))).head?

theorem EndPrint.nothing : EndPrint params "" [] :=
  ⟨rfl, .of_holesOf_eq_nil .nil rfl, by simp, .inl rfl⟩

/-- The order of a page and its rows stand apart, and begin with `ORDER`, which no condition
can go on with. -/
theorem endPrint_page {rules : PageRules} {p : Page}
    (h : isIdentifier (p.sort?.getD rules.defaultSort).toList = true) :
    EndPrint params (Selection.spaced ("ORDER BY " ++ p.sort?.getD rules.defaultSort ++ " " ++
      p.order.keyword ++ " LIMIT " ++ toString p.limit.val ++ " OFFSET " ++
        toString p.start.val)) (.blank :: p.inks rules) := by
  have hlegible : Legible ((Ink.blank : Ink (String × Param)) :: p.inks rules) := by
    refine .append (b := p.inks rules) ⟨?_, .singleton _⟩ (legible_pageInks h) fun i hi j _ => ?_
    · exact List.forall_mem_singleton.2 trivial
    · cases hi
      exact Ink.blank_joins j
  have hholes : holesOf ((Ink.blank : Ink (String × Param)) :: p.inks rules) = [] :=
    holesOf_pageInks rules p
  refine ⟨?_, .of_holesOf_eq_nil hlegible hholes, ?_, .inr (.inr ⟨"ORDER", rfl, by decide⟩)⟩
  · rw [print_cons, print_pageInks, toList_spaced (by simp)]
    rfl
  · rintro i hi
    cases hi
    rfl

theorem exists_endPrint {s : Selection} {text : String} (h : s.suffix = .ok text) :
    ∃ is, EndPrint params (Selection.spaced text) is := by
  have hnothing : EndPrint params (Selection.spaced "") [] := .nothing
  unfold Selection.suffix at h
  split at h
  · next page rules _ =>
    split at h
    · obtain rfl := Except.ok.inj h
      exact ⟨[], hnothing⟩
    · unfold Page.suffix at h
      split at h
      · obtain rfl := Except.ok.inj h
        exact ⟨[], hnothing⟩
      · dsimp only at h
        split at h
        · next hsort =>
          obtain rfl := Except.ok.inj h
          exact ⟨_, endPrint_page hsort⟩
        · cases h
  · obtain rfl := Except.ok.inj h
    exact ⟨[], hnothing⟩

end Ends

end ResourceTable
