import ResourceTable.Sql.Names

/-!
# Places in a text

Terms and tests keep the places at which their names and numbers stand, so that a fault
can point there.  Nothing else depends on these places: without them, a test has the same
columns to look up, holds of the same rows, and fails for the same reasons.

## Main definitions

* `Term.unplaced`, `Test.unplaced`, `Fault.unplaced`: without places.

## Main results

* `holds_unplaced` — a test without places holds alike, and fails alike but for the place.
* `checkNames_unplaced`, `oversized?_unplaced` — so it is with what is checked beforehand.
* `holds_iff_of_unplaced_eq` — **tests that differ in their places hold of the same rows.**
-/

namespace ResourceTable.Sql

/-! ### Without places -/

namespace Fault

/-- The fault, pointing to no particular place. -/
def unplaced : Fault → Fault
  | unexpected written _ => unexpected written 0
  | unrecognized written offset => unrecognized written (offset.map fun _ => 0)
  | hexTooBig written _ => hexTooBig written 0
  | wrongArguments function _ => wrongArguments function 0
  | noSuchColumn name offset => noSuchColumn name (offset.map fun _ => 0)
  | noSuchOutput outputs offset => noSuchOutput outputs (offset.map fun _ => 0)
  | f => f

/-- What fails, fails without a place. -/
def without {α : Type} (x : Except Fault α) : Except Fault α := x.mapError unplaced

section Without

variable {α β : Type}

@[simp] theorem without_ok (a : α) : without (.ok a) = .ok a := rfl

@[simp] theorem without_error (f : Fault) :
    without (.error f : Except Fault α) = .error f.unplaced := rfl

@[simp] theorem without_pure (a : α) :
    without (pure a : Except Fault α) = pure a := rfl

theorem without_bind (x : Except Fault α) (f : α → Except Fault β) :
    without (x >>= f) = without x >>= fun a => without (f a) := by
  cases x <;> rfl

theorem without_eq_ok_iff {x : Except Fault α} {a : α} : without x = .ok a ↔ x = .ok a := by
  cases x with
  | error e => exact ⟨nofun, nofun⟩
  | ok b => exact Iff.rfl

theorem without_mapM {f : α → Except Fault β} : ∀ l : List α,
    without (l.mapM f) = l.mapM fun a => without (f a) := by
  intro l
  induction l with
  | nil => rfl
  | cons a rest ih => simp only [List.mapM_cons, without_bind, ih, without_pure]

theorem without_anyM {f : α → Except Fault Bool} : ∀ l : List α,
    without (l.anyM f) = l.anyM fun a => without (f a) := by
  intro l
  induction l with
  | nil => rfl
  | cons a rest ih =>
    rw [List.anyM, List.anyM, without_bind]
    refine bind_congr fun b => ?_
    cases b with
    | true => rfl
    | false => exact ih

end Without

end Fault

namespace Term

/-- The term without places. -/
def unplaced : Term → Term
  | .oversized written _ => .oversized written 0
  | .column name _ => .column name 0
  | .member row name _ => .member row name 0
  | .misused function _ => .misused function 0
  | .lower a => .lower a.unplaced
  | .negated a => .negated a.unplaced
  | .plus a b => .plus a.unplaced b.unplaced
  | .minus a b => .minus a.unplaced b.unplaced
  | .part a b => .part a.unplaced b.unplaced
  | .partKind a b => .partKind a.unplaced b.unplaced
  | .partLength a b => .partLength a.unplaced b.unplaced
  | t => t

end Term

namespace Test

/-- The test without places. -/
def unplaced : Test → Test
  | .compare op a b => .compare op a.unplaced b.unplaced
  | .among negated a items => .among negated a.unplaced (items.map Term.unplaced)
  | .fits kind a pattern => .fits kind a.unplaced pattern.unplaced
  | .missing negated a => .missing negated a.unplaced
  | .someElement document path test =>
    .someElement document.unplaced path.unplaced test.unplaced
  | .both a b => .both a.unplaced b.unplaced
  | .either a b => .either a.unplaced b.unplaced

end Test

/-! ### Documents -/

open Fault (without without_bind)

namespace Document

/-- Whatever is wrong with a document has no place in the text of a statement. -/
theorem without_ofCell (c : Cell) : without (ofCell c) = ofCell c := by
  unfold ofCell
  split
  · rfl
  · split <;> rfl

theorem without_part? (document keys : Cell) :
    without (part? document keys) = part? document keys := by
  unfold part?
  split
  · rfl
  · split
    · rfl
    · rw [without_bind, without_ofCell]
      rfl

theorem without_value (d : Document) : without d.value = d.value := by
  cases d with
  | integer cs | fraction cs =>
    rw [value, numberValue]
    split <;> rfl
  | hexInteger negative n =>
    rw [value, hexValue]
    split <;> rfl
  | _ => rfl

end Document

/-! ### Values -/

section Values

variable (s : Scope)

namespace Term

theorem affinity?_unplaced (t : Term) : t.unplaced.affinity? s = t.affinity? s := by
  cases t <;> rfl

theorem isElementColumn_unplaced (t : Term) : t.unplaced.isElementColumn = t.isElementColumn := by
  cases t <;> rfl

theorem slotValue_unplaced (name : String) (offset : Nat) (slot : Option Slot) :
    slotValue name 0 slot = without (slotValue name offset slot) := by
  cases slot <;> rfl

/-- A term without places has the same value. -/
theorem value_unplaced (t : Term) : t.unplaced.value s = without (t.value s) := by
  induction t with
  | literal c | oversized written offset | fixed a c | clock part | misused f offset => rfl
  | column name offset => exact slotValue_unplaced name offset _
  | member row name offset => exact slotValue_unplaced _ offset _
  | lower a ih =>
    rw [unplaced, value, value, without_bind, ih]
    refine bind_congr fun c => ?_
    cases c.asText? <;> rfl
  | negated a ih =>
    rw [unplaced, value, value, without_bind, ih]
    rfl
  | plus a b iha ihb | minus a b iha ihb =>
    rw [unplaced, value, value, without_bind, iha]
    refine bind_congr fun c => ?_
    rw [without_bind, ihb]
    rfl
  | part a b iha ihb =>
    rw [unplaced, value, value, without_bind, iha]
    refine bind_congr fun c => ?_
    rw [without_bind, ihb]
    refine bind_congr fun keys => ?_
    rw [without_bind, Document.without_part?]
    refine bind_congr fun found => ?_
    cases found with
    | none => rfl
    | some d => exact d.without_value.symm
  | partKind a b iha ihb | partLength a b iha ihb =>
    rw [unplaced, value, value, without_bind, iha]
    refine bind_congr fun c => ?_
    rw [without_bind, ihb]
    refine bind_congr fun keys => ?_
    rw [without_bind, Document.without_part?]
    rfl

theorem elements_unplaced (document path : Term) :
    elements s document.unplaced path.unplaced = without (elements s document path) := by
  unfold elements
  rw [isElementColumn_unplaced]
  cases document.isElementColumn with
  | true => rfl
  | false =>
    show (document.unplaced.value s >>= _) = without (document.value s >>= _)
    rw [without_bind, value_unplaced]
    refine bind_congr fun c => ?_
    rw [without_bind, value_unplaced]
    refine bind_congr fun keys => ?_
    rw [without_bind, Document.without_part?]
    rfl

end Term

end Values

/-! ### Tests -/

namespace Test

theorem seeksElements_unplaced (t : Test) : t.unplaced.seeksElements = t.seeksElements := by
  induction t with
  | both a b iha ihb | either a b iha ihb => rw [unplaced, seeksElements, seeksElements, iha, ihb]
  | _ => rfl

theorem putsOff_unplaced (a b : Test) : a.unplaced.putsOff b.unplaced = a.putsOff b := by
  rw [putsOff, putsOff, seeksElements_unplaced, seeksElements_unplaced]

theorem compareTerms_unplaced (s : Scope) (op : Comparison) (a b : Term) :
    compareTerms s op a.unplaced b.unplaced = without (compareTerms s op a b) := by
  unfold compareTerms
  rw [Term.affinity?_unplaced, Term.affinity?_unplaced, without_bind, Term.value_unplaced]
  refine bind_congr fun c => ?_
  rw [without_bind, Term.value_unplaced]
  rfl

theorem isAmong_unplaced (s : Scope) (a : Term) (items : List Term) :
    isAmong s a.unplaced (items.map Term.unplaced) = without (isAmong s a items) := by
  unfold isAmong
  rw [Term.affinity?_unplaced, without_bind, Term.value_unplaced]
  refine bind_congr fun c => ?_
  have hitems : (items.map Term.unplaced).mapM (Term.value s) =
      without (items.mapM (Term.value s)) := by
    rw [List.mapM_map, Fault.without_mapM]
    exact congrArg (fun f => items.mapM f) (funext fun item => item.value_unplaced s)
  rw [without_bind, hitems]
  rfl

/-- The second of two parts is passed over if the first one does not hold, with places or
without. -/
theorem without_and {x y u v : Except Fault Bool} (hu : u = without x) (hv : v = without y) :
    (do if ← u then v else return false) = without (do if ← x then y else return false) := by
  rw [without_bind, hu, hv]
  exact bind_congr fun b => by cases b <;> rfl

/-- The second of two parts is passed over if the first one holds. -/
theorem without_or {x y u v : Except Fault Bool} (hu : u = without x) (hv : v = without y) :
    (do if ← u then return true else v) = without (do if ← x then return true else y) := by
  rw [without_bind, hu, hv]
  exact bind_congr fun b => by cases b <;> rfl

/-- **A test without places holds alike**, and fails alike but for the place. -/
theorem holds_unplaced (t : Test) : ∀ s : Scope, t.unplaced.holds s = without (t.holds s) := by
  induction t with
  | compare op a b =>
    intro s
    simp only [unplaced, holds, truth, without_bind, compareTerms_unplaced]
    rfl
  | among negated a items =>
    intro s
    simp only [unplaced, holds, truth, without_bind, isAmong_unplaced]
    rfl
  | fits kind a pattern =>
    intro s
    simp only [unplaced, holds, truth, without_bind, Term.value_unplaced]
    rfl
  | missing negated a =>
    intro s
    simp only [unplaced, holds, truth, without_bind, Term.value_unplaced]
    rfl
  | someElement document path test ih =>
    intro s
    rw [unplaced, holds, holds, without_bind, Term.elements_unplaced]
    refine bind_congr fun ds => ?_
    rw [Fault.without_anyM]
    refine congrArg (fun f => ds.anyM f) (funext fun d => ?_)
    rw [without_bind, d.without_value]
    exact bind_congr fun c => ih _
  | both a b iha ihb =>
    intro s
    -- Which part is evaluated first does not depend on the places.
    rw [unplaced, holds, holds, putsOff_unplaced]
    cases a.putsOff b with
    | true => exact without_and (ihb s) (iha s)
    | false => exact without_and (iha s) (ihb s)
  | either a b iha ihb =>
    intro s
    rw [unplaced, holds, holds, putsOff_unplaced]
    cases a.putsOff b with
    | true => exact without_or (ihb s) (iha s)
    | false => exact without_or (iha s) (ihb s)

/-- **Tests that differ in their places hold of the same rows.** -/
theorem holds_iff_of_unplaced_eq {t u : Test} (h : t.unplaced = u.unplaced) {s : Scope} {b : Bool} :
    t.holds s = .ok b ↔ u.holds s = .ok b := by
  rw [← Fault.without_eq_ok_iff, ← holds_unplaced, h, holds_unplaced, Fault.without_eq_ok_iff]

end Test

/-! ### Looking up names -/

namespace Lookup

/-- The state without the place of its fault. -/
def unplaced (l : Lookup) : Lookup := { l with fault := l.fault.map Fault.unplaced }

theorem unplaced_checked (l : Lookup) : l.checked.unplaced = l.unplaced.checked := by
  rcases l with ⟨_ | f, goesOn⟩ <;> rfl

theorem unplaced_andThen {l : Lookup} {part other : Lookup → Lookup}
    (h : ∀ l, other l.unplaced = (part l).unplaced) :
    l.unplaced.andThen other = (l.andThen part).unplaced := by
  rcases l with ⟨fault, _ | _⟩
  · rfl
  · exact h ⟨fault, true⟩

theorem unplaced_within {l : Lookup} {part other : Lookup → Lookup}
    (h : ∀ l, other l.unplaced = (part l).unplaced) :
    l.unplaced.within other = (l.within part).unplaced := by
  rw [within, within, h]
  rfl

theorem unplaced_column (name : String) (offset : Nat) (slot : Option Slot) (l : Lookup) :
    l.unplaced.column name 0 slot = (l.column name offset slot).unplaced := by
  cases slot <;> rfl

theorem result_unplaced (l : Lookup) : l.unplaced.result = without l.result := by
  rcases l with ⟨_ | f, goesOn⟩ <;> rfl

end Lookup

open Lookup (unplaced_checked unplaced_andThen unplaced_within)

namespace Term

/-- In a term without places the same names are looked up. -/
theorem lookUp_unplaced (s : Scope) (t : Term) :
    ∀ l : Lookup, t.unplaced.lookUp s l.unplaced = (t.lookUp s l).unplaced := by
  induction t with
  | literal c | oversized written offset | fixed a c => exact fun l => (unplaced_checked l).symm
  | column name offset => exact Lookup.unplaced_column name offset _
  | member row name offset => exact Lookup.unplaced_column _ offset _
  | clock part | misused function offset => exact fun l => rfl
  | lower a ih => exact fun l => unplaced_within ih
  | negated a ih =>
    intro l
    rw [unplaced, lookUp, lookUp, ← unplaced_checked]
    exact unplaced_andThen ih
  | plus a b iha ihb | minus a b iha ihb =>
    intro l
    rw [unplaced, lookUp, lookUp, ← unplaced_checked, unplaced_andThen iha]
    exact unplaced_andThen ihb
  | part a b iha ihb | partKind a b iha ihb | partLength a b iha ihb =>
    refine fun l => unplaced_within fun l => ?_
    rw [iha]
    exact unplaced_andThen ihb

theorem oversized?_unplaced (t : Term) :
    t.unplaced.oversized? = t.oversized?.map Fault.unplaced := by
  induction t with
  | lower a ih | negated a ih => exact ih
  | plus a b iha ihb | minus a b iha ihb | part a b iha ihb | partKind a b iha ihb
  | partLength a b iha ihb => rw [unplaced, oversized?, oversized?, iha, ihb, Option.map_or]
  | _ => rfl

end Term

namespace Test

theorem foldl_lookUp_unplaced (s : Scope) (items : List Term) (l : Lookup) :
    (items.map Term.unplaced).foldl (fun l item => l.andThen (item.lookUp s)) l.unplaced =
      (items.foldl (fun l item => l.andThen (item.lookUp s)) l).unplaced := by
  induction items generalizing l with
  | nil => rfl
  | cons item rest ih =>
    rw [List.map_cons, List.foldl_cons, List.foldl_cons, ← ih,
      unplaced_andThen (item.lookUp_unplaced s)]

/-- In a test without places the same names are looked up. -/
theorem lookUp_unplaced (t : Test) : ∀ (s : Scope) (l : Lookup),
    t.unplaced.lookUp s l.unplaced = (t.lookUp s l).unplaced := by
  induction t with
  | compare op a b =>
    intro s l
    rw [unplaced, lookUp, lookUp, ← unplaced_checked, unplaced_andThen (a.lookUp_unplaced s)]
    exact unplaced_andThen (b.lookUp_unplaced s)
  | among negated a items =>
    intro s l
    rw [unplaced, lookUp, lookUp, ← unplaced_checked, unplaced_andThen (a.lookUp_unplaced s)]
    exact foldl_lookUp_unplaced s items _
  | fits kind a pattern =>
    refine fun s l => unplaced_within fun l => ?_
    rw [pattern.lookUp_unplaced s]
    exact unplaced_andThen (a.lookUp_unplaced s)
  | missing negated a => exact fun s l => unplaced_within (a.lookUp_unplaced s)
  | someElement document path test ih =>
    intro s l
    -- The names of the document come first, unless it is a column of elements.
    have horigin (l : Lookup) :
        (if document.unplaced.isElementColumn then l.unplaced
          else document.unplaced.lookUp s l.unplaced) =
        (if document.isElementColumn then l else document.lookUp s l).unplaced := by
      rw [Term.isElementColumn_unplaced]
      split
      · rfl
      · exact document.lookUp_unplaced s l
    rw [unplaced, lookUp, lookUp, ← unplaced_checked, unplaced_andThen horigin, ← unplaced_checked,
      unplaced_andThen (path.lookUp_unplaced s), ← unplaced_checked]
    refine unplaced_andThen fun l => ?_
    rw [ih, unplaced_checked]
  | both a b iha ihb | either a b iha ihb =>
    intro s l
    rw [unplaced, lookUp, lookUp, ← unplaced_checked, unplaced_andThen (iha s)]
    exact unplaced_andThen (ihb s)

/-- The names of a test without places are there if those of the test are. -/
theorem checkNames_unplaced (s : Scope) (t : Test) :
    t.unplaced.checkNames s = without (t.checkNames s) := by
  rw [checkNames, checkNames, ← Lookup.result_unplaced, ← lookUp_unplaced]
  rfl

/-- The numbers of a test without places have values if those of the test do. -/
theorem oversized?_unplaced (t : Test) :
    t.unplaced.oversized? = t.oversized?.map Fault.unplaced := by
  induction t with
  | compare op a b | fits kind a b =>
    rw [unplaced, oversized?, oversized?, a.oversized?_unplaced, b.oversized?_unplaced,
      Option.map_or]
  | among negated a items =>
    have hitems : (items.map Term.unplaced).findSome? Term.oversized? =
        (items.findSome? Term.oversized?).map Fault.unplaced := by
      rw [List.findSome?_map, List.map_findSome?]
      exact congrArg (fun f => items.findSome? f) (funext Term.oversized?_unplaced)
    rw [unplaced, oversized?, oversized?, a.oversized?_unplaced, hitems, Option.map_or]
  | missing negated a => exact a.oversized?_unplaced
  | someElement document path test ih =>
    rw [unplaced, oversized?, oversized?, document.oversized?_unplaced, path.oversized?_unplaced,
      ih, Option.map_or, Option.map_or]
  | both a b iha ihb | either a b iha ihb =>
    rw [unplaced, oversized?, oversized?, iha, ihb, Option.map_or]

section Same

variable {t u : Test} (h : t.unplaced = u.unplaced)
include h

theorem checkNames_iff_of_unplaced_eq {s : Scope} :
    t.checkNames s = .ok () ↔ u.checkNames s = .ok () := by
  rw [← Fault.without_eq_ok_iff, ← checkNames_unplaced, h, checkNames_unplaced,
    Fault.without_eq_ok_iff]

theorem oversized?_iff_of_unplaced_eq : t.oversized? = none ↔ u.oversized? = none := by
  have hboth : t.oversized?.map Fault.unplaced = u.oversized?.map Fault.unplaced := by
    rw [← oversized?_unplaced, h, oversized?_unplaced]
  rw [← Option.map_eq_none_iff, hboth, Option.map_eq_none_iff]

end Same

end Test

end ResourceTable.Sql
