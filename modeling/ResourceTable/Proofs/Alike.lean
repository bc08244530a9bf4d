import ResourceTable.Proofs.Compilation

/-!
# Filters that differ in their values

Filters are alike if they have one shape: the same groups, and rules on the same fields
with the same operators.  Whatever is compiled from them is then alike as well: the
order of the rules, the names that they take, and the prints with these names.

## Main definitions

* `Operand.SameForm`, `Operand.SameLength`: how operands may differ.
* `Filter.Alike same`: filters that differ in operands that are related by `same`.
* `Naming.Alike same`: states of names that differ in what is bound.

## Main results

* `Alike.prioritize`, `Alike.crownedBy`, `Alike.matchesAll_eq` — what the compiler does
  to filters it does alike to filters that are alike.
* `alike_lowered` — **filters that are alike have the same print with names.**
-/

namespace ResourceTable

/-! ### Operands -/

namespace Operand

/-- Both are single values, or both are lists. -/
def SameForm : Operand → Operand → Prop
  | .single _, .single _ => True
  | .list _, .list _ => True
  | _, _ => False

/-- Both are single values, or both are lists of the same length. -/
def SameLength : Operand → Operand → Prop
  | .single _, .single _ => True
  | .list vs, .list ws => vs.length = ws.length
  | _, _ => False

theorem SameForm.refl (a : Operand) : a.SameForm a := by
  cases a <;> trivial

theorem SameLength.refl (a : Operand) : a.SameLength a := by
  cases a with
  | single v => trivial
  | list vs => exact rfl

end Operand

/-- Parameters that stand for as many values. -/
def Param.SameCount (a b : Param) : Prop := a.values.length = b.values.length

/-! ### Rules and filters -/

variable {same : Operand → Operand → Prop}

/-- Rules with one field and one operator, the operands of which are related.  The key
path of a rule on key paths is a part of its text, so that it has to be the same. -/
structure Rule.Alike (same : Operand → Operand → Prop) (r s : Rule) : Prop where
  field : r.field = s.field
  op : r.op = s.op
  operand : same r.operand s.operand
  key : r.op.checksKey = true → r.operand = s.operand

/-- Filters of one shape, the rules of which are alike. -/
inductive Filter.Alike (same : Operand → Operand → Prop) : Filter → Filter → Prop
  | rule {r s : Rule} (h : r.Alike same s) : Alike same (.rule r) (.rule s)
  | group (op : Connective) {fs gs : List Filter} (h : List.Forall₂ (Alike same) fs gs) :
      Alike same (.group op fs) (.group op gs)

theorem Rule.Alike.refl (hrefl : ∀ a, same a a) (r : Rule) : r.Alike same r :=
  ⟨rfl, rfl, hrefl r.operand, fun _ => rfl⟩

namespace Filter

theorem Alike.refl (hrefl : ∀ a, same a a) (f : Filter) : f.Alike same f := by
  induction f using treeInduction with
  | rule r => exact .rule (.refl hrefl r)
  | group op fs ih => exact .group op (List.forall₂_same.2 ih)

namespace Alike

theorem isEmpty_eq {f g : Filter} (h : f.Alike same g) : f.isEmpty = g.isEmpty := by
  cases h with
  | rule h => rfl
  | group op h => cases h <;> rfl

theorem matchesAll_eq {f g : Filter} (h : f.Alike same g) : f.matchesAll = g.matchesAll := by
  induction f using treeInduction generalizing g with
  | rule r =>
    cases h
    rfl
  | group op fs ih =>
    cases h with
    | @group _ _ gs h =>
      have hparts := map_eq_of_forall₂ (forall₂_of_mem h fun f hf g hfg => ih f hf hfg)
      have hempty : fs = [] ↔ gs = [] := by
        rw [← List.length_eq_zero_iff, h.length_eq, List.length_eq_zero_iff]
      by_cases hfs : fs = []
      · rw [hfs, hempty.1 hfs]
      · cases op with
        | and =>
          have hall (l : List Filter) : l.all matchesAll = (l.map matchesAll).all id := by
            rw [List.all_map]
            rfl
          rw [matchesAll_and, matchesAll_and, hall, hall, hparts]
        | or =>
          have hany (l : List Filter) : l.any matchesAll = (l.map matchesAll).any id := by
            rw [List.any_map]
            rfl
          rw [matchesAll_or hfs, matchesAll_or (mt hempty.2 hfs), hany, hany, hparts]

/-! ### The order of rules -/

theorem bestRank_eq (priority : List String) {fs gs : List Filter}
    (h : List.Forall₂ (fun f g => rank priority f = rank priority g) fs gs) :
    bestRank priority fs = bestRank priority gs := by
  induction h with
  | nil => rfl
  | cons hf _ ih => rw [bestRank, bestRank, hf, ih]

theorem rank_eq (priority : List String) {f g : Filter} (h : f.Alike same g) :
    rank priority f = rank priority g := by
  induction f using treeInduction generalizing g with
  | rule r =>
    cases h with
    | rule h => rw [rank, rank, h.field]
  | group op fs ih =>
    cases h with
    | group _ h =>
      rw [rank, rank]
      exact bestRank_eq priority (forall₂_of_mem h fun f hf g hfg => ih f hf hfg)

/-- Lists that are alike are put in order alike: their pairs are, by the ranks that both
members share. -/
theorem byRank (priority : List String) {fs gs : List Filter}
    (h : List.Forall₂ (Alike same) fs gs) :
    List.Forall₂ (Alike same) (Filter.byRank priority fs) (Filter.byRank priority gs) := by
  obtain ⟨hlength, hpairs⟩ := List.forall₂_iff_zip.1 h
  have hfst : (fs.zip gs).map Prod.fst = fs := List.map_fst_zip hlength.le
  have hsnd : (fs.zip gs).map Prod.snd = gs := List.map_snd_zip hlength.ge
  let order (p q : Filter × Filter) : Bool := rank priority p.1 ≤ rank priority q.1
  have hsort (member : Filter × Filter → Filter)
      (hmember : ∀ p ∈ fs.zip gs, rank priority p.1 = rank priority (member p)) :
      ((fs.zip gs).mergeSort order).map member =
        Filter.byRank priority ((fs.zip gs).map member) := by
    rw [Filter.byRank]
    refine List.map_mergeSort fun p hp q hq => ?_
    show decide (rank priority p.1 ≤ rank priority q.1) = _
    rw [hmember p hp, hmember q hq]
  have hleft := hsort Prod.fst fun p _ => rfl
  have hright := hsort Prod.snd fun p hp => rank_eq priority (hpairs hp)
  rw [hfst] at hleft
  rw [hsnd] at hright
  rw [← hleft, ← hright, List.forall₂_map_left_iff, List.forall₂_map_right_iff, List.forall₂_same]
  exact fun p hp => hpairs (List.mem_mergeSort.1 hp)

theorem prioritize (priority : List String) {f g : Filter} (h : f.Alike same g) :
    (f.prioritize priority).Alike same (g.prioritize priority) := by
  induction f using treeInduction generalizing g with
  | rule r =>
    cases h with
    | rule h => exact .rule h
  | group op fs ih =>
    cases h with
    | group _ h =>
      rw [Filter.prioritize, Filter.prioritize, prioritizeAll_eq_map, prioritizeAll_eq_map]
      refine .group op (byRank priority ?_)
      rw [List.forall₂_map_left_iff, List.forall₂_map_right_iff]
      exact forall₂_of_mem h fun f hf g hfg => ih f hf hfg

theorem crownedBy (hrefl : ∀ a, same a a) (crown : Option (Connective × List Filter))
    {f g : Filter} (h : f.Alike same g) : (f.crownedBy crown).Alike same (g.crownedBy crown) := by
  unfold Filter.crownedBy
  split
  · next op c cs =>
    have hcrown : Alike same (Filter.group .and (c :: cs)) (.group .and (c :: cs)) := .refl hrefl _
    rw [h.isEmpty_eq]
    split
    · exact hcrown
    · exact .group op (.cons h (.cons hcrown .nil))
  · exact h

end Alike

end Filter

/-! ### Names and prints -/

variable {fields : Schema} {related : Param → Param → Prop}

/-- States of names with the same names in use, to which related parameters are bound. -/
structure Naming.Alike (related : Param → Param → Prop) (n m : Naming) : Prop where
  used : n.used = m.used
  bound : ∀ name, Option.Rel related (n.params.get? name) (m.params.get? name)

namespace Naming.Alike

variable {n m : Naming}

theorem start (reserved : List String) : Alike related (start reserved) (start reserved) :=
  ⟨rfl, fun _ => .none⟩

theorem next_eq (h : Alike related n m) (base : String) : n.next base = m.next base := by
  rw [next, next, h.used]

theorem bind (h : Alike related n m) (name : String) {p q : Param} (hpq : related p q) :
    Alike related (n.bind name p) (m.bind name q) := by
  refine ⟨congrArg (name :: ·) h.used, fun other => ?_⟩
  have hbound := h.bound other
  rw [Naming.bind, Naming.bind, NameMap.get?_insert, NameMap.get?_insert]
  split
  · exact .some hpq
  · exact hbound

end Naming.Alike

namespace Rule.Alike

variable {r s : Rule}

theorem fullField_eq (h : r.Alike same s) : r.fullField = s.fullField := by
  cases hop : r.op.checksKey with
  | true => rw [fullField, fullField, h.key hop, h.field, h.op]
  | false =>
    have hop' := hop
    rw [h.op] at hop'
    rw [fullField_of_not_checksKey hop, fullField_of_not_checksKey hop', h.field]

/-- What is printed of a rule is its field and its operator, and the key path of a rule on
key paths. -/
theorem print_eq {α : Type} (h : r.Alike same s) (a : α) : r.print a = s.print a := by
  have hplace : r.place = s.place := by
    rw [place, place, h.op, h.field, h.fullField_eq]
  rw [print, print, hplace, h.op]

theorem bindIn (hpayload : ∀ type, related (r.payload type) (s.payload type))
    (h : r.Alike same s) {n m : Naming} (hnm : n.Alike related m) :
    (r.bindIn fields n).Alike related (s.bindIn fields m) := by
  rw [Rule.bindIn, Rule.bindIn, h.op, h.field, hnm.next_eq]
  split
  · exact hnm
  · refine hnm.bind _ ?_
    rw [← h.field]
    exact hpayload _

end Rule.Alike

namespace Filter

/-- Prints with the same names, after which the states of names are alike. -/
def LoweredAlike (related : Param → Param → Prop)
    (a b : List (Ink (String × Param)) × Naming) : Prop :=
  a.1.map (Ink.map Prod.fst) = b.1.map (Ink.map Prod.fst) ∧ a.2.Alike related b.2

theorem alike_loweredRest (op : Connective) {fs gs : List Filter}
    (h : List.Forall₂ (fun f g => ∀ n m : Naming, n.Alike related m →
      LoweredAlike related (f.lowered fields n) (g.lowered fields m)) fs gs) :
    ∀ n m : Naming, n.Alike related m →
      LoweredAlike related (loweredRest fields op fs n) (loweredRest fields op gs m) := by
  induction h with
  | nil => exact fun n m hnm => ⟨rfl, hnm⟩
  | cons hf _ ih =>
    intro n m hnm
    obtain ⟨hprint, hnext⟩ := hf n m hnm
    obtain ⟨hmore, hlast⟩ := ih _ _ hnext
    refine ⟨?_, hlast⟩
    simp only [loweredRest, List.map_append, hprint, hmore]

/-- **Filters that are alike have the same print with names**, and leave states of names
that are alike. -/
theorem alike_lowered (hpayload : ∀ r s : Rule, r.Alike same s →
      ∀ type, related (r.payload type) (s.payload type)) {f g : Filter} (h : f.Alike same g) :
    ∀ n m : Naming, n.Alike related m →
      LoweredAlike related (f.lowered fields n) (g.lowered fields m) := by
  induction f using treeInduction generalizing g with
  | rule r =>
    cases h with
    | rule h =>
      intro n m hnm
      refine ⟨?_, h.bindIn (hpayload r _ h) hnm⟩
      rw [lowered, lowered, Ink.map_rule, Ink.map_rule, h.print_eq, h.field, hnm.next_eq]
  | group op fs ih =>
    cases h with
    | group _ h =>
      have hparts := forall₂_of_mem h fun f hf g hfg => ih f hf hfg
      cases hparts with
      | nil => exact fun n m hnm => ⟨rfl, hnm⟩
      | cons hf hrest =>
        intro n m hnm
        obtain ⟨hprint, hnext⟩ := hf n m hnm
        obtain ⟨hmore, hlast⟩ := alike_loweredRest op hrest _ _ hnext
        refine ⟨?_, hlast⟩
        simp only [lowered, List.map_append, List.map_cons, hprint, hmore]

end Filter

end ResourceTable
