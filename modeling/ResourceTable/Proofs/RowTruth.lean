import ResourceTable.Proofs.Meaning
import ResourceTable.Proofs.RulePrint
import ResourceTable.Proofs.TermReading

/-!
# What a rule says of a row

A rule is a test of a row: its operator says what it looks at and what it asks, and its
operand what it compares with.  A filter holds of a row if it does once its rules have
been put to the row.

## Main definitions

* `Subject.term`, `Question.test`, `Rule.asTest`: a rule as a test.
* `Filter.HoldsIn`: a filter holds of a row.
* `Operator.comparison?`: how an operator compares a column with a value.
* `Term.Refines`, `Test.Refines`: what is read says no more than what is meant.
* `Test.Passes`: a test passes by its parts, whatever else it looks at.

## Main results

* `Filter.holdsIn_compare` — a rule that compares a column holds as the cells compare.
* `Refines` lemmas — one for every kind of subject and of question.
* `passes_foldl_both`, `passes_foldl_either` — joined tests.
-/

namespace ResourceTable

open Sql

/-! ### Rules as tests -/

namespace Subject

/-- What is looked at in a row. -/
def term (column path : Term) : Subject → Term
  | .column => column
  | lowered => .lower column
  | part => .part column path
  | element => .column "value" 0
  | length => .partLength column path
  | kind => .partKind column path

/-- A test of what is looked at, as a test of the row. -/
def around (column path : Term) (test : Test) : Subject → Test
  | element => .someElement column path test
  | _ => test

end Subject

/-- What is asked about a term. -/
def Question.test (cells : List Cell) (a : Term) : Question → Test
  | compare mark =>
    .compare ((Comparison.ofText? mark).getD .equal) a (.literal (cells.head?.getD .null))
  | listed negated => Parse.listTest negated a (cells.map .literal)
  | fits keyword =>
    .fits (if keyword = "LIKE" then .like else .glob) a (.literal (cells.head?.getD .null))
  | missing negated => .missing negated a

namespace Rule

/-- The rule as a test of rows, for a field of the type. -/
def asTest (type : Option ColumnType) (r : Rule) : Test :=
  let column := Term.ofWord r.place.1
  let path := Term.literal (.text r.place.2)
  let cells := (r.payload type).values.map Value.cell
  r.op.subject.around column path (r.op.question.test cells (r.op.subject.term column path))

/-- Whether the rule holds of a row.  A row at which the database fails to look is not
one of which it does. -/
def holdsIn (fields : Schema) (s : Scope) (r : Rule) : Bool :=
  match (r.asTest (fields.get? r.field)).holds s with
  | .ok b => b
  | .error _ => false

end Rule

/-- The filter holds of a row, once its rules have been put to the row. -/
def Filter.HoldsIn (fields : Schema) (s : Scope) (f : Filter) : Prop :=
  f.truth (fun r => .ofBool (r.holdsIn fields s)) = .yes

instance (fields : Schema) (s : Scope) (f : Filter) : Decidable (f.HoldsIn fields s) :=
  inferInstanceAs (Decidable (_ = _))

theorem Rule.holdsIn_of_holds {fields : Schema} {s : Scope} {r : Rule}
    (h : (r.asTest (fields.get? r.field)).holds s = .ok true) : r.holdsIn fields s = true := by
  rw [holdsIn, h]

/-! ### Comparisons of a column -/

/-- How an operator compares a column with a value. -/
def Operator.comparison? : Operator → Option Comparison
  | equal => some .equal
  | notEqual => some .notEqual
  | greater | idGreater => some .greater
  | greaterOrEqual => some .greaterOrEqual
  | less => some .less
  | lessOrEqual => some .lessOrEqual
  | _ => none

/-- A column compares with a value as the stored value does, both adapted to the column. -/
theorem Sql.Test.truth_compare_column {scope : Scope} {name : String} {slot : Slot}
    (hcolumn : scope.column? name = some slot) (op : Comparison) (offset : Nat) (c : Cell) :
    (Test.compare op (.column name offset) (.literal c)).truth scope =
      .ok (op.truth (slot.affinity.adapt slot.cell) (slot.affinity.adapt c)) := by
  simp only [truth, compareTerms, Term.value, Term.slotValue, Term.affinity?, hcolumn]
  rfl

/-- A column equals a value if both, adapted to the column, are there and are equal in their
order. -/
theorem Sql.Test.holds_equal_column_iff {scope : Scope} {name : String} {slot : Slot}
    (hcolumn : scope.column? name = some slot) (offset : Nat) (c : Cell) :
    (Test.compare .equal (.column name offset) (.literal c)).holds scope = .ok true ↔
      (slot.affinity.adapt slot.cell).isNull = false ∧ (slot.affinity.adapt c).isNull = false ∧
        (slot.affinity.adapt slot.cell).order (slot.affinity.adapt c) = .eq := by
  rw [holds_of_truth (truth_compare_column hcolumn .equal offset c), Comparison.truth]
  cases (slot.affinity.adapt slot.cell).isNull <;> cases (slot.affinity.adapt c).isNull <;>
    cases (slot.affinity.adapt slot.cell).order (slot.affinity.adapt c) <;> decide

/-- A rule that compares a column with a value holds of a row as the stored value compares
with the cell of the value, both adapted to the column. -/
theorem Filter.holdsIn_compare {fields : Schema} {scope : Scope} {field : String} {op : Operator}
    {comparison : Comparison} {v : Value} {slot : Slot}
    (hop : op.comparison? = some comparison) (hname : Parse.constant? field = none)
    (hcolumn : scope.column? field = some slot) :
    (Filter.rule ⟨field, op, .single v⟩).HoldsIn fields scope ↔
      comparison.truth (slot.affinity.adapt slot.cell)
        (slot.affinity.adapt (v.moment (fields.get? field)).cell) = .yes := by
  have htest : Rule.asTest (fields.get? field) ⟨field, op, .single v⟩ =
      .compare comparison (.column field 0) (.literal (v.moment (fields.get? field)).cell) := by
    rw [← Term.ofWord_eq hname]
    cases op <;> first | (cases hop; rfl) | cases hop
  have htruth : (Rule.asTest (fields.get? field) ⟨field, op, .single v⟩).truth scope =
      .ok (comparison.truth (slot.affinity.adapt slot.cell)
        (slot.affinity.adapt (v.moment (fields.get? field)).cell)) := by
    rw [htest]
    exact Test.truth_compare_column hcolumn comparison 0 _
  rw [Filter.HoldsIn, Filter.truth_rule, Rule.holdsIn, Test.holds_of_truth htruth]
  dsimp only
  cases comparison.truth (slot.affinity.adapt slot.cell)
    (slot.affinity.adapt (v.moment (fields.get? field)).cell) <;> decide

namespace Sql

/-! ### Terms that say no more -/

/-- The term has the values of another one where it has any. -/
def Term.Refines (t d : Term) : Prop :=
  ∀ s c, t.value s = .ok c → d.value s = .ok c ∧ t.affinity? s = d.affinity? s

namespace Term.Refines

theorem refl (t : Term) : t.Refines t := fun _ _ h => ⟨h, rfl⟩

theorem of_isWord {w : String} {t : Term} (h : Parse.IsWord w t) : t.Refines (.ofWord w) := by
  rcases h with h | ⟨hnone, offset, rfl⟩
  · rw [ofWord, h]
    exact refl t
  · rw [ofWord, hnone]
    intro s c hc
    refine ⟨?_, rfl⟩
    rw [Option.getD_none, value]
    rw [value] at hc
    cases hslot : s.column? w with
    | none => rw [hslot] at hc; cases hc
    | some slot => rw [hslot] at hc; exact hc

theorem isElementColumn_of_isWord {w : String} {t : Term} (h : Parse.IsWord w t) :
    (ofWord w).isElementColumn = t.isElementColumn := by
  rcases h with h | ⟨hnone, offset, rfl⟩
  · rw [ofWord, h]
    rfl
  · rw [ofWord, hnone]
    rfl

theorem of_misused (f : String) (offset : Nat) (d : Term) : (misused f offset).Refines d := by
  intro s c h
  cases h

theorem lower {t d : Term} (h : t.Refines d) : (Term.lower t).Refines (.lower d) := by
  intro s c hc
  refine ⟨?_, rfl⟩
  rw [value] at hc ⊢
  obtain ⟨a, ha, hc⟩ := Test.bind_eq_ok hc
  rw [(h s a ha).1]
  exact hc

theorem part {t d : Term} (h : t.Refines d) (path : Term) :
    (Term.part t path).Refines (.part d path) := by
  intro s c hc
  refine ⟨?_, rfl⟩
  rw [value] at hc ⊢
  obtain ⟨a, ha, hc⟩ := Test.bind_eq_ok hc
  rw [(h s a ha).1]
  exact hc

theorem partKind {t d : Term} (h : t.Refines d) (path : Term) :
    (Term.partKind t path).Refines (.partKind d path) := by
  intro s c hc
  refine ⟨?_, rfl⟩
  rw [value] at hc ⊢
  obtain ⟨a, ha, hc⟩ := Test.bind_eq_ok hc
  rw [(h s a ha).1]
  exact hc

theorem partLength {t d : Term} (h : t.Refines d) (path : Term) :
    (Term.partLength t path).Refines (.partLength d path) := by
  intro s c hc
  refine ⟨?_, rfl⟩
  rw [value] at hc ⊢
  obtain ⟨a, ha, hc⟩ := Test.bind_eq_ok hc
  rw [(h s a ha).1]
  exact hc

end Term.Refines

/-! ### Tests that say no more -/

/-- The test decides as another one does where it decides at all. -/
def Test.Refines (t d : Test) : Prop := ∀ s b, t.holds s = .ok b → d.holds s = .ok b

namespace Test.Refines

/-- Tests without parts are decided by their values. -/
theorem of_truth {t d : Test} (ht : ∀ s, t.holds s = do return (← t.truth s).holds)
    (hd : ∀ s, d.holds s = do return (← d.truth s).holds)
    (h : ∀ s v, t.truth s = .ok v → d.truth s = .ok v) : t.Refines d := by
  intro s b hb
  rw [ht] at hb
  obtain ⟨v, hv, hb⟩ := bind_eq_ok hb
  rw [hd, h s v hv]
  exact hb

variable {a d : Term}

theorem compare (h : a.Refines d) (op : Comparison) (b : Term) :
    (Test.compare op a b).Refines (.compare op d b) := by
  refine of_truth (fun _ => rfl) (fun _ => rfl) fun s v hv => ?_
  rw [truth, compareTerms] at hv ⊢
  obtain ⟨c, hc, hv⟩ := bind_eq_ok hv
  obtain ⟨hvalue, haffinity⟩ := h s c hc
  rw [hvalue, ← haffinity]
  exact hv

theorem among (h : a.Refines d) (negated : Bool) (items : List Term) :
    (Test.among negated a items).Refines (.among negated d items) := by
  refine of_truth (fun _ => rfl) (fun _ => rfl) fun s v hv => ?_
  rw [truth, isAmong] at hv ⊢
  obtain ⟨t, ht, hv⟩ := bind_eq_ok hv
  obtain ⟨c, hc, ht⟩ := bind_eq_ok ht
  obtain ⟨hvalue, haffinity⟩ := h s c hc
  rw [hvalue, ← haffinity]
  simp only [ok_bind, ht]
  exact hv

theorem fits (h : a.Refines d) (kind : PatternKind) (b : Term) :
    (Test.fits kind a b).Refines (.fits kind d b) := by
  refine of_truth (fun _ => rfl) (fun _ => rfl) fun s v hv => ?_
  rw [truth] at hv ⊢
  obtain ⟨c, hc, hv⟩ := bind_eq_ok hv
  rw [(h s c hc).1]
  exact hv

theorem missing (h : a.Refines d) (negated : Bool) :
    (Test.missing negated a).Refines (.missing negated d) := by
  refine of_truth (fun _ => rfl) (fun _ => rfl) fun s v hv => ?_
  rw [truth] at hv ⊢
  obtain ⟨c, hc, hv⟩ := bind_eq_ok hv
  rw [(h s c hc).1]
  exact hv

theorem listTest (h : a.Refines d) (negated : Bool) (items : List Term) :
    (Parse.listTest negated a items).Refines (Parse.listTest negated d items) := by
  unfold Parse.listTest
  split
  · split
    · exact among h true _
    · exact compare h .equal _
  · exact among h negated items

/-- A test of elements decides by their tests.  That the elements are those of a
document is not lost. -/
theorem someElement {t u : Test} (h : a.Refines d)
    (hcolumn : d.isElementColumn = a.isElementColumn) (path : Term) (htest : t.Refines u) :
    (Test.someElement a path t).Refines (.someElement d path u) := by
  intro s b hb
  rw [holds] at hb ⊢
  obtain ⟨elements, he, hb⟩ := bind_eq_ok hb
  have hsame : Term.elements s d path = .ok elements := by
    rw [Term.elements] at he ⊢
    rw [hcolumn]
    split at he
    · next hyes => rw [if_pos hyes]; exact he
    · next hno =>
      rw [if_neg hno]
      obtain ⟨c, hc, he⟩ := bind_eq_ok he
      rw [(h s c hc).1]
      exact he
  rw [hsame, ok_bind]
  -- Both tests go through the same elements, and stop at the same one.
  clear he hsame
  induction elements with
  | nil => exact hb
  | cons e rest ih =>
    rw [List.anyM] at hb ⊢
    obtain ⟨x, hx, hb⟩ := bind_eq_ok hb
    obtain ⟨c, hc, hx⟩ := bind_eq_ok hx
    simp only [hc, ok_bind, htest _ x hx]
    cases x with
    | true => exact hb
    | false => exact ih hb

end Test.Refines

/-! ### Passing by parts -/

namespace Test

/-- Whether a test holds by its parts, those that are passed over left aside. -/
def Passes (s : Scope) : Test → Prop
  | .both a b => a.Passes s ∧ b.Passes s
  | .either a b => a.Passes s ∨ b.Passes s
  | t => t.holds s = .ok true

theorem passes_of_holds {s : Scope} : ∀ {t : Test}, t.holds s = .ok true → t.Passes s := by
  intro t
  induction t with
  | both a b iha ihb =>
    intro h
    rw [holds] at h
    split at h
    · obtain ⟨x, hx, h⟩ := bind_eq_ok h
      cases x with
      | true => exact ⟨iha h, ihb hx⟩
      | false => cases h
    · obtain ⟨x, hx, h⟩ := bind_eq_ok h
      cases x with
      | true => exact ⟨iha hx, ihb h⟩
      | false => cases h
  | either a b iha ihb =>
    intro h
    rw [holds] at h
    split at h
    · obtain ⟨x, hx, h⟩ := bind_eq_ok h
      cases x with
      | true => exact .inr (ihb hx)
      | false => exact .inl (iha h)
    · obtain ⟨x, hx, h⟩ := bind_eq_ok h
      cases x with
      | true => exact .inl (iha hx)
      | false => exact .inr (ihb h)
  | _ => exact id

/-- Tests joined one after the other all pass. -/
theorem passes_foldl_both {s : Scope} : ∀ {l : List Test} {t : Test},
    (l.foldl .both t).Passes s ↔ t.Passes s ∧ ∀ u ∈ l, u.Passes s := by
  intro l
  induction l with
  | nil => simp
  | cons u rest ih =>
    intro t
    rw [List.foldl_cons, ih, Passes, List.forall_mem_cons, and_assoc]

/-- One of some tests joined one after the other passes. -/
theorem passes_foldl_either {s : Scope} : ∀ {l : List Test} {t : Test},
    (l.foldl .either t).Passes s ↔ t.Passes s ∨ ∃ u ∈ l, u.Passes s := by
  intro l
  induction l with
  | nil => simp
  | cons u rest ih =>
    intro t
    rw [List.foldl_cons, ih, Passes, List.exists_mem_cons_iff, or_assoc]

/-- The parts of a test that all have to hold. -/
theorem passes_iff_conjuncts {s : Scope} {t : Test} :
    t.Passes s ↔ ∀ u ∈ t.conjuncts, u.Passes s := by
  induction t with
  | both a b iha ihb => rw [Passes, conjuncts, List.forall_mem_append, iha, ihb]
  | _ => exact List.forall_mem_singleton.symm

/-- The parts of a test one of which has to hold. -/
theorem passes_of_disjunct {s : Scope} {t u : Test} (hu : u ∈ t.disjuncts) (h : u.Passes s) :
    t.Passes s := by
  induction t with
  | either a b iha ihb =>
    rw [disjuncts, List.mem_append] at hu
    exact hu.imp iha ihb
  | _ => exact List.mem_singleton.1 hu ▸ h

end Test

end Sql

end ResourceTable
