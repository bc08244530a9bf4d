import Mathlib.Algebra.Group.Int.Defs
import Mathlib.Data.Int.Order.Basic
import Mathlib.Order.Compare
import ResourceTable.Filter.Wire
import ResourceTable.Proofs.RowTruth

/-!
# Integers through the database

Integers of eight types are bound, stored and read back.  The cells of the database hold
signed 64-bit integers.  An integer in their range is kept: its cell holds the same
number, comparisons order it as that number, and it is read back at any type as that
number or refused.  One beyond the range, which only an unsigned 64-bit type has, is bound
as the number that is 2⁶⁴ below it.

## Main definitions

* `Value.Carries`: the integers that records and filters carry.
* `Cell.read`: what is read of a cell as an integer of a type.

## Main results

* `Carries.exists_toCell` — every integer is bound, in the range of cells as itself.
* `Cell.gives_integer` — what is read of a cell is its number, if the type has it.
* `holdsIn_compare_integer` — filters compare the numbers of cells.
* `integers_kept` — **exactly the integers in the range of cells pass unchanged.**
-/

namespace ResourceTable

open Sql

/-- The integers that a value can carry to the database: the content of a field of a
record, or a number in a filter. -/
inductive Value.Carries : Value → Int → Prop
  | field (t : IntType) (n : FixedInt t) : Carries ((ScalarType.integer t).leaf n).value n.val
  | number {n : Int} (h : IntType.i64.Holds n ∨ IntType.u64.Holds n) :
    Carries (.ofNumber (.integer n)) n

/-! ### Into a cell -/

namespace Value

/-- What carries an integer is a value of an integer type. -/
theorem Carries.exists_eq {v : Value} {n : Int} (h : v.Carries n) :
    ∃ (t : IntType) (x : FixedInt t), v = .integer t (some x) ∧ x.val = n := by
  cases h with
  | field t n => exact ⟨t, n, rfl, rfl⟩
  | number h =>
    by_cases hsigned : IntType.i64.Holds n
    · refine ⟨.i64, ⟨n, hsigned⟩, ?_, rfl⟩
      rw [ofNumber, FixedInt.ofInt?, dif_pos hsigned]
    · refine ⟨.u64, ⟨n, h.resolve_left hsigned⟩, ?_, rfl⟩
      rw [ofNumber, FixedInt.ofInt?, dif_neg hsigned]
      dsimp only
      rw [FixedInt.ofInt?, dif_pos (h.resolve_left hsigned)]

/-- The number in the cell of an integer. -/
def stored (n : Int) : Int := if IntType.i64.Holds n then n else n - 2 ^ 64

/-- Every type has integers of 64 bits. -/
theorem bounds (t : IntType) : -2 ^ 63 ≤ t.least ∧ t.greatest ≤ 2 ^ 64 - 1 := by
  cases t <;> decide

theorem holds_i64_iff {n : Int} : IntType.i64.Holds n ↔ -2 ^ 63 ≤ n ∧ n ≤ 2 ^ 63 - 1 := Iff.rfl

/-- An integer beyond the range of cells wraps around. -/
theorem bmod_eq_stored {t : IntType} (x : FixedInt t) :
    x.val.bmod IntType.i64.count = stored x.val := by
  have hcount : IntType.i64.count = 2 ^ 64 := rfl
  have hbounds := bounds t
  have hleast := x.holds.1
  have hgreatest := x.holds.2
  unfold stored
  rw [hcount, Int.bmod_def]
  -- A number that 64 bits hold is its own remainder; one above loses the count once.
  split
  · next hr =>
    split
    · next hin =>
      rw [holds_i64_iff] at hin
      omega
    · next hout =>
      rw [holds_i64_iff] at hout
      omega
  · next hr =>
    split
    · next hin =>
      rw [holds_i64_iff] at hin
      omega
    · next hout =>
      rw [holds_i64_iff] at hout
      omega

/-- Every integer is bound, in the range of cells as itself. -/
theorem Carries.exists_toCell {v : Value} {n : Int} (h : v.Carries n) :
    ∃ x : FixedInt .i64, v.toCell = .ok (.integer x) ∧ x.val = stored n := by
  obtain ⟨t, y, rfl, rfl⟩ := h.exists_eq
  have hstored : IntType.i64.Holds (stored y.val) := by
    have hbounds := bounds t
    have hleast := y.holds.1
    have hgreatest := y.holds.2
    unfold stored
    split
    · assumption
    · next hout =>
      rw [holds_i64_iff] at hout ⊢
      omega
  refine ⟨⟨stored y.val, hstored⟩, ?_, rfl⟩
  show Except.ok (Cell.ofInt (y.val.bmod IntType.i64.count)) = _
  rw [bmod_eq_stored, Cell.ofInt, FixedInt.ofInt?, dif_pos hstored]

/-- The numbers in cells are in the order of the integers, if both or neither of these are
in the range of cells. -/
theorem compare_stored {n k : Int} (h : IntType.i64.Holds n ↔ IntType.i64.Holds k) :
    compare (stored n) (stored k) = compare n k := by
  unfold stored
  by_cases hn : IntType.i64.Holds n
  · rw [if_pos hn, if_pos (h.1 hn)]
  · rw [if_neg hn, if_neg fun hk => hn (h.2 hk)]
    rcases lt_trichotomy n k with hlt | rfl | hgt
    · rw [compare_lt_iff_lt.2 hlt, compare_lt_iff_lt.2 (by omega)]
    · rw [compare_eq_iff_eq.2 rfl, compare_eq_iff_eq.2 rfl]
    · rw [compare_gt_iff_gt.2 hgt, compare_gt_iff_gt.2 (by omega)]

end Value

/-! ### Out of a cell -/

section Fetching

variable {α : Type} {row : Row} {column expected : String} {blank : α}
  {convert : Value → Option α} {v : Value}

theorem Row.fetchWith_of_some {a : α} (h : row.get? column = some v) (hnull : v.isNull = false)
    (hconvert : convert v = some a) : row.fetchWith column expected blank convert = .ok a := by
  simp only [fetchWith, h, hnull, hconvert, Bool.false_eq_true, if_false]

theorem Row.fetchWith_of_none (h : row.get? column = some v) (hnull : v.isNull = false)
    (hconvert : convert v = none) :
    row.fetchWith column expected blank convert = .error (.notDecodable column expected v) := by
  simp only [fetchWith, h, hnull, hconvert, Bool.false_eq_true, if_false]

end Fetching

/-- What is read of a cell as an integer of a type. -/
def Sql.Cell.read (c : Cell) (column : String) (t : IntType) : Checked (FixedInt t) :=
  (ScalarType.integer t).fetch (.ofResult [(column, c)]) column

/-- What is read of a cell is the number at every type that has it, and is refused at the
others. -/
def Sql.Cell.Gives (c : Cell) (n : Int) : Prop :=
  ∀ (column : String) (t : IntType),
    if h : t.Holds n then c.read column t = .ok ⟨n, h⟩
    else c.read column t = .error (.notDecodable column t.name (.ofCell c))

/-- What is read of a cell is its number. -/
theorem Sql.Cell.gives_integer (x : FixedInt .i64) : (Cell.integer x).Gives x.val := by
  intro column t
  have hcolumn : (Row.ofResult [(column, .integer x)]).get? column =
      some (.integer .i64 (some x)) := NameMap.get?_insert_self _ _ _
  have hnull : (Value.integer .i64 (some x)).isNull = false := rfl
  split
  · next h => exact Row.fetchWith_of_some hcolumn hnull (dif_pos h)
  · next h => exact Row.fetchWith_of_none hcolumn hnull (dif_neg h)

/-! ### Filters -/

/-- A filter on a numeric column compares the number in its cell with that of its value. -/
theorem holdsIn_compare_integer {fields : Schema} {scope : Scope} {field : String} {op : Operator}
    {comparison : Comparison} {v : Value} {n : Int} {x y : FixedInt .i64} (hv : v.Carries n)
    (hcell : v.toCell = .ok (.integer y)) (hop : op.comparison? = some comparison)
    (hname : Parse.constant? field = none)
    (hcolumn : scope.column? field = some ⟨.numeric, .integer x⟩) :
    (Filter.rule ⟨field, op, .single v⟩).HoldsIn fields scope ↔
      comparison.holds (compare x.val y.val) = true := by
  obtain ⟨t, z, rfl, -⟩ := hv.exists_eq
  have hmoment : (Value.integer t (some z)).moment (fields.get? field) = .integer t (some z) := by
    cases fields.get? field with
    | none => rfl
    | some type => cases type <;> rfl
  have hvalue : (Value.integer t (some z)).cell = .integer y := by
    rw [Value.cell, hcell]
    rfl
  rw [Filter.holdsIn_compare hop hname hcolumn, hmoment, hvalue]
  show Truth.ofBool (comparison.holds (compare x.val y.val)) = .yes ↔ _
  cases comparison.holds (compare x.val y.val) <;> decide

/-- **Exactly the integers in the range of cells pass unchanged.**  Every integer is bound.
One in the range is stored as itself, so that every type reads it back or refuses it, the
type that it was written at reads it back, and filters with numbers of the range compare
it as itself.  One beyond the range is stored as another number, which its type refuses. -/
theorem integers_kept {v w : Value} {n k : Int} (hv : v.Carries n) (hw : w.Carries k) :
    ∃ x y : FixedInt .i64, v.toCell = .ok (.integer x) ∧ w.toCell = .ok (.integer y) ∧
      (IntType.i64.Holds n → x.val = n ∧ (Affinity.numeric.store (.integer x)).Gives n ∧
        ∀ (t : IntType) (m : FixedInt t), v = ((ScalarType.integer t).leaf m).value →
          ∀ column, (Affinity.numeric.store (.integer x)).read column t = .ok m) ∧
      (¬ IntType.i64.Holds n → x.val = n - 2 ^ 64 ∧
        ∀ column, (Affinity.numeric.store (.integer x)).read column .u64 =
          .error (.notDecodable column "u64" (.ofCell (.integer x)))) ∧
      ∀ (fields : Schema) (scope : Scope) (field : String) (op : Operator)
        (comparison : Comparison), op.comparison? = some comparison →
        Parse.constant? field = none →
        scope.column? field = some ⟨.numeric, Affinity.numeric.store (.integer x)⟩ →
        (IntType.i64.Holds n ↔ IntType.i64.Holds k) →
          ((Filter.rule ⟨field, op, .single w⟩).HoldsIn fields scope ↔
            comparison.holds (compare n k) = true) := by
  obtain ⟨x, hx, hxval⟩ := hv.exists_toCell
  obtain ⟨y, hy, hyval⟩ := hw.exists_toCell
  have hstore : Affinity.numeric.store (.integer x) = .integer x := rfl
  have hgives := Cell.gives_integer x
  refine ⟨x, y, hx, hy, fun hin => ?_, fun hout => ?_, ?_⟩
  · have hn : x.val = n := hxval.trans (if_pos hin)
    rw [hn] at hgives
    refine ⟨hn, hgives, fun t m hm column => ?_⟩
    obtain ⟨u, z, hz, rfl⟩ := hv.exists_eq
    obtain ⟨rfl, hzm⟩ := Value.integer.inj (hz.symm.trans hm)
    obtain rfl := Option.some.inj (eq_of_heq hzm)
    have hread := hgives column u
    rwa [dif_pos z.holds] at hread
  · have hn : x.val = n - 2 ^ 64 := hxval.trans (if_neg hout)
    -- What was above the signed numbers has become negative, and no unsigned type holds it.
    have hbeyond : ¬ IntType.u64.Holds x.val := by
      obtain ⟨t, z, -, rfl⟩ := hv.exists_eq
      have hbounds := Value.bounds t
      have hgreatest := z.holds.2
      intro h
      have hleast : 0 ≤ x.val := h.1
      omega
    refine ⟨hn, fun column => ?_⟩
    have hread := hgives column .u64
    rwa [dif_neg hbeyond] at hread
  · intro fields scope field op comparison hop hname hcolumn hsame
    rw [holdsIn_compare_integer hw hy hop hname hcolumn, hxval, hyval,
      Value.compare_stored hsame]

/-- The row of a host of a business. -/
def ofBusiness (c : Cell) : Scope where
  column? name := if name = "bk_biz_id" then some ⟨.numeric, c⟩ else none
  member? _ _ := none
  now := .epoch

/-- The business seven, from a field of a record, compared with the number nine of a
filter. -/
theorem integers_kept_business :
    ((ScalarType.integer .u64).leaf ⟨7, by decide⟩).value.Carries 7 ∧
      (Value.ofNumber (.integer 9)).Carries 9 ∧
      ∃ x : FixedInt .i64,
        ((ScalarType.integer .u64).leaf ⟨7, by decide⟩).value.toCell = .ok (.integer x) ∧
        x.val = 7 ∧
        (Affinity.numeric.store (.integer x)).read "bk_biz_id" .u64 = .ok ⟨7, by decide⟩ ∧
        (Filter.rule ⟨"bk_biz_id", .less, .single (.ofNumber (.integer 9))⟩).HoldsIn
          (.ofList [("bk_biz_id", .numeric)]) (ofBusiness (.integer x)) := by
  have hv : ((ScalarType.integer .u64).leaf ⟨7, by decide⟩).value.Carries 7 :=
    .field .u64 ⟨7, by decide⟩
  have hw : (Value.ofNumber (.integer 9)).Carries 9 := .number (.inl (by decide))
  obtain ⟨x, y, hx, -, hin, -, hcompare⟩ := integers_kept hv hw
  obtain ⟨hseven, -, hread⟩ := hin (by decide)
  refine ⟨hv, hw, x, hx, hseven, hread .u64 ⟨7, by decide⟩ rfl "bk_biz_id", ?_⟩
  exact (hcompare _ (ofBusiness (.integer x)) "bk_biz_id" .less .less rfl (by decide +kernel) rfl
    (by decide)).2 (by decide)

/-- The greatest number of a filter is bound as minus one, so that no business is less. -/
theorem integers_wrapped :
    (Value.ofNumber (.integer 18446744073709551615)).Carries 18446744073709551615 ∧
      (Value.ofNumber (.integer 18446744073709551615)).toCell = .ok (.integer ⟨-1, by decide⟩) ∧
      ¬ ((Filter.rule
          ⟨"bk_biz_id", .less, .single (.ofNumber (.integer 18446744073709551615))⟩).HoldsIn
            (.ofList [("bk_biz_id", .numeric)]) (ofBusiness (.integer ⟨1, by decide⟩)) ↔
        Comparison.less.holds (compare (1 : Int) 18446744073709551615) = true) := by
  refine ⟨.number (.inr (by decide)), by decide +kernel, fun h => ?_⟩
  exact absurd (h.2 (by decide)) (by decide +kernel)

end ResourceTable
