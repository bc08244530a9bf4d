import Mathlib.Algebra.Order.Group.Nat
import Mathlib.Data.List.Sort
import Mathlib.Order.Compare
import Mathlib.Order.Monotone.Basic
import Mathlib.Tactic.Ring
import ResourceTable.Sql.Cell

/-!
# The order of cells

Cells of different kinds are ordered by kind, texts and bytes by their bytes, and numbers
by size, whether they are integers or fractional: a fractional number stands among the
integers where the multiple of the least unit does that it is.  The order is therefore
total and transitive, so that sorting by it is stable under leaving rows out.

## Main definitions

* `Binary.Format.scaled`, `Binary.level`: a number as a multiple of the least unit.
* `Cell.level`: the place of a number among all numbers.

## Main results

* `strictMono_scaled` — greater patterns are greater numbers.
* `compareInt_eq` — a comparison with an integer compares multiples of the unit.
* `Cell.transCmp_order` — **the order of cells is total and transitive.**
* `filter_mergeSort` — leaving members out commutes with sorting.
-/

namespace ResourceTable

/-! ### Sorting -/

section Sorting

variable {α : Type} {le : α → α → Bool}

/-- What comes before a member that it is not before, and what comes after that, is told
apart by the order alone. -/
theorem split_unique {a : α} {b c d e : List α} (h : b ++ c = d ++ e)
    (hb : ∀ x ∈ b, le a x = false) (hc : ∀ x ∈ c, le a x = true)
    (hd : ∀ x ∈ d, le a x = false) (he : ∀ x ∈ e, le a x = true) : b = d ∧ c = e := by
  have hfront {l m : List α} (hl : ∀ x ∈ l, le a x = false) (hm : ∀ x ∈ m, le a x = true) :
      (l ++ m).filter (fun x => !le a x) = l := by
    rw [List.filter_append, List.filter_eq_self.2 fun x hx => by rw [hl x hx]; rfl,
      List.filter_eq_nil_iff.2 fun x hx => by rw [hm x hx]; exact Bool.false_ne_true,
      List.append_nil]
  have hbd : b = d := by rw [← hfront hb hc, h, hfront hd he]
  rw [hbd] at h
  exact ⟨hbd, List.append_cancel_left h⟩

/-- **Leaving members out commutes with sorting.** -/
theorem filter_mergeSort (htrans : ∀ a b c : α, le a b → le b c → le a c)
    (htotal : ∀ a b : α, le a b || le b a) (p : α → Bool) :
    ∀ l : List α, (l.mergeSort le).filter p = (l.filter p).mergeSort le := by
  intro l
  induction l with
  | nil => simp
  | cons a rest ih =>
    -- Sorting puts the head between those of the sorted rest that are below it and the others.
    obtain ⟨b, c, hall, hrest, hb⟩ := List.mergeSort_cons htrans htotal a rest
    rw [hrest] at ih
    have hsorted := List.pairwise_mergeSort htrans htotal (a :: rest)
    rw [hall] at hsorted ⊢
    cases hp : p a with
    | false =>
      rw [List.filter_cons_of_neg (by rw [hp]; exact Bool.false_ne_true), ← ih,
        List.filter_append, List.filter_append,
        List.filter_cons_of_neg (by rw [hp]; exact Bool.false_ne_true)]
    | true =>
      obtain ⟨d, e, hall', hrest', hd⟩ := List.mergeSort_cons htrans htotal a (rest.filter p)
      have hsorted' := List.pairwise_mergeSort htrans htotal (a :: rest.filter p)
      rw [hall'] at hsorted'
      have hafter {l m : List α} (h : (l ++ a :: m).Pairwise fun x y => le x y = true) :
          ∀ x ∈ m, le a x = true :=
        (List.pairwise_cons.1 (List.pairwise_append.1 h).2.1).1
      rw [List.filter_append] at ih
      -- Filtered, both are the sorted list cut where the head belongs, and there is one such cut.
      obtain ⟨hbd, hce⟩ := split_unique (ih.trans hrest')
        (fun x hx => by simpa using hb x (List.mem_of_mem_filter hx))
        (fun x hx => hafter hsorted x (List.mem_of_mem_filter hx))
        (fun x hx => by simpa using hd x hx) (hafter hsorted')
      rw [List.filter_cons_of_pos hp, hall', List.filter_append, List.filter_cons_of_pos hp, hbd,
        hce]

end Sorting

/-! ### Numbers as multiples of a unit -/

namespace Binary.Format

/-- The magnitude of a pattern as a multiple of the least unit. -/
def scaled (f : Format) (b : Nat) : Nat :=
  (if b / Nat.pow 2 f.fractionBits = 0 then b % Nat.pow 2 f.fractionBits
    else b % Nat.pow 2 f.fractionBits + Nat.pow 2 f.fractionBits) *
      Nat.pow 2 (b / Nat.pow 2 f.fractionBits - 1)

/-- The quotient that the least unit is one over. -/
def unit (f : Format) : Nat := Nat.pow 2 (-f.leastExponent).toNat

theorem unit_pos (f : Format) : 0 < f.unit := Nat.two_pow_pos _

theorem scaled_zero (f : Format) : f.scaled 0 = 0 := by
  simp [scaled]

/-- Greater patterns are greater numbers: the fraction grows, or it starts again with the
next exponent. -/
theorem strictMono_scaled (f : Format) : StrictMono f.scaled := by
  refine strictMono_nat_of_lt_succ fun b => ?_
  have hpos : 0 < Nat.pow 2 f.fractionBits := Nat.two_pow_pos _
  unfold scaled
  generalize Nat.pow 2 f.fractionBits = n at hpos ⊢
  have hb : n * (b / n) + b % n = b := Nat.div_add_mod b n
  have hr : b % n < n := Nat.mod_lt b hpos
  generalize b / n = e at hb ⊢
  generalize b % n = r at hb hr ⊢
  by_cases hnext : r + 1 < n
  · -- The fraction grows by one, and the exponent stays the same.
    have hdiv : (b + 1) / n = e := by
      rw [← hb, Nat.add_assoc, Nat.mul_add_div hpos, Nat.div_eq_of_lt hnext, Nat.add_zero]
    have hmod : (b + 1) % n = r + 1 := by
      rw [← hb, Nat.add_assoc, Nat.mul_add_mod, Nat.mod_eq_of_lt hnext]
    rw [hdiv, hmod]
    refine Nat.mul_lt_mul_of_pos_right ?_ (Nat.two_pow_pos _)
    split <;> omega
  · -- The fraction is full and starts again at zero.  The exponent grows by one: it doubles
    -- the unit, but for the step from the subnormals, where only the hidden bit appears.
    have hlast : r + 1 = n := by omega
    have hsum : b + 1 = n * (e + 1) := by rw [← hb, Nat.add_assoc, hlast, Nat.mul_succ]
    have hdiv : (b + 1) / n = e + 1 := by rw [hsum, Nat.mul_div_cancel_left _ hpos]
    have hmod : (b + 1) % n = 0 := by rw [hsum, Nat.mul_mod_right]
    rw [hdiv, hmod, if_neg (Nat.succ_ne_zero e), Nat.zero_add, Nat.add_sub_cancel]
    cases e with
    | zero =>
      rw [if_pos rfl]
      show r * 1 < n * 1
      omega
    | succ k =>
      rw [if_neg (Nat.succ_ne_zero k), Nat.add_sub_cancel]
      have hpow : Nat.pow 2 (k + 1) = 2 * Nat.pow 2 k := by
        show 2 ^ (k + 1) = 2 * 2 ^ k
        rw [Nat.pow_succ, Nat.mul_comm]
      rw [hpow, ← Nat.mul_assoc]
      exact Nat.mul_lt_mul_of_pos_right (by omega) (Nat.two_pow_pos k)

end Binary.Format

namespace Binary

variable {f : Format} {x y : Binary f}

/-- The number as a multiple of the least unit; an infinity is above all finite
numbers. -/
def level (x : Binary f) : Int :=
  if x.negative then -(f.scaled x.magnitudeBits : Int) else f.scaled x.magnitudeBits

/-- The order of patterns is that of the numbers. -/
theorem level_lt_iff : x.level < y.level ↔ x.orderKey < y.orderKey := by
  have hmono {m n : Nat} : f.scaled m < f.scaled n ↔ m < n := f.strictMono_scaled.lt_iff_lt
  have hzero {n : Nat} : 0 < f.scaled n ↔ 0 < n := by
    have h : f.scaled 0 < f.scaled n ↔ 0 < n := hmono
    rwa [f.scaled_zero] at h
  have hxy : f.scaled x.magnitudeBits < f.scaled y.magnitudeBits ↔ _ := hmono
  have hyx : f.scaled y.magnitudeBits < f.scaled x.magnitudeBits ↔ _ := hmono
  have hx : 0 < f.scaled x.magnitudeBits ↔ _ := hzero
  have hy : 0 < f.scaled y.magnitudeBits ↔ _ := hzero
  unfold level orderKey
  cases x.negative <;> cases y.negative <;> simp only [Bool.false_eq_true, if_true, if_false] <;>
    omega

/-- The magnitude as a quotient is that as a multiple of the unit. -/
theorem ratio_mul_unit (h : f.leastExponent ≤ 0) (x : Binary f) :
    x.ratio.1 * f.unit = f.scaled x.magnitudeBits * x.ratio.2 := by
  have hscaled : f.scaled x.magnitudeBits =
      x.significand * Nat.pow 2 (x.exponentField - 1) := rfl
  have hexponent : x.exponent = f.leastExponent + (x.exponentField - 1 : Nat) := rfl
  rw [hscaled, Format.unit, ratio]
  generalize x.exponentField - 1 = k at hexponent ⊢
  split
  · have hk : k = x.exponent.toNat + (-f.leastExponent).toNat := by omega
    show x.significand * 2 ^ x.exponent.toNat * 2 ^ (-f.leastExponent).toNat =
      x.significand * 2 ^ k * 1
    rw [hk, Nat.pow_add, Nat.mul_one, Nat.mul_assoc]
  · have hk : (-f.leastExponent).toNat = k + (-x.exponent).toNat := by omega
    show x.significand * 2 ^ (-f.leastExponent).toNat =
      x.significand * 2 ^ k * 2 ^ (-x.exponent).toNat
    rw [hk, Nat.pow_add, Nat.mul_assoc]

theorem ratio_pos (x : Binary f) : 0 < x.ratio.2 := by
  unfold ratio
  split
  · exact Nat.one_pos
  · exact Nat.two_pow_pos _

theorem numerator_mul_unit (h : f.leastExponent ≤ 0) (x : Binary f) :
    x.numerator * f.unit = x.level * x.ratio.2 := by
  have hratio : (x.ratio.1 : Int) * f.unit = f.scaled x.magnitudeBits * x.ratio.2 := by
    exact_mod_cast x.ratio_mul_unit h
  unfold numerator level
  split
  · rw [Int.neg_mul, Int.neg_mul, hratio]
  · exact hratio

/-- A comparison with an integer compares multiples of the unit. -/
theorem compareInt_finite (h : f.leastExponent ≤ 0) (hx : x.isFinite = true) (n : Int) :
    x.compareInt n = Ord.compare x.level (n * f.unit) := by
  have hunit : (0 : Int) < f.unit := Int.natCast_pos.2 f.unit_pos
  have hden : (0 : Int) < x.ratio.2 := by exact_mod_cast x.ratio_pos
  have hscale : n * x.ratio.2 * f.unit = n * f.unit * x.ratio.2 := by ring
  have hlt : x.numerator < n * x.ratio.2 ↔ x.level < n * f.unit := by
    rw [← Int.mul_lt_mul_right hunit, x.numerator_mul_unit h, hscale, Int.mul_lt_mul_right hden]
  have hgt : n * x.ratio.2 < x.numerator ↔ n * f.unit < x.level := by
    rw [← Int.mul_lt_mul_right hunit, x.numerator_mul_unit h, hscale, Int.mul_lt_mul_right hden]
  rw [compareInt, if_pos hx]
  rcases lt_trichotomy x.level (n * f.unit) with hl | he | hg
  · rw [compare_lt_iff_lt.2 hl, compare_lt_iff_lt.2 (hlt.2 hl)]
  · have heq : x.numerator = n * x.ratio.2 := by
      have hnot := mt hlt.1 he.not_lt
      have hnot' := mt hgt.1 he.not_gt
      omega
    rw [compare_eq_iff_eq.2 he, compare_eq_iff_eq.2 heq]
  · rw [compare_gt_iff_gt.2 hg, compare_gt_iff_gt.2 (hgt.2 hg)]

/-- A comparison of a 64-bit number with a 64-bit integer compares multiples of the unit;
the infinities are beyond all integers. -/
theorem compareInt_eq (x : Double) (n : FixedInt .i64) :
    x.compareInt n.val = Ord.compare x.level (n.val * Format.double.unit) := by
  by_cases hx : x.isFinite = true
  · exact compareInt_finite (by decide) hx n.val
  · -- What is not finite lies beyond all that 64 bits hold, on the side of its sign.
    have hbits : Format.double.infinityBits ≤ x.magnitudeBits :=
      Nat.le_of_not_lt fun h => hx (decide_eq_true h)
    have hbeyond : 2 ^ 63 * Format.double.unit <
        Format.double.scaled Format.double.infinityBits := by decide +kernel
    have hlevel := Format.double.strictMono_scaled.monotone hbits
    have hleast : -2 ^ 63 ≤ n.val := n.holds.1
    have hgreatest : n.val ≤ 2 ^ 63 - 1 := n.holds.2
    have hunit := Format.double.unit_pos
    generalize Format.double.unit = u at hbeyond hunit ⊢
    have hhigh : n.val * u ≤ 2 ^ 63 * u := Int.mul_le_mul_of_nonneg_right (by omega) (by omega)
    have hlow : -(2 ^ 63 * u) ≤ n.val * u := by
      rw [← Int.neg_mul]
      exact Int.mul_le_mul_of_nonneg_right (by omega) (by omega)
    have hfar : (2 ^ 63 * u : Int) < Format.double.scaled x.magnitudeBits := by
      exact_mod_cast Nat.lt_of_lt_of_le hbeyond hlevel
    rw [compareInt, if_neg hx, level]
    cases x.negative with
    | true =>
      rw [if_pos rfl, if_pos rfl]
      exact (compare_lt_iff_lt.2 (by omega)).symm
    | false =>
      rw [if_neg Bool.false_ne_true, if_neg Bool.false_ne_true]
      exact (compare_gt_iff_gt.2 (by omega)).symm

end Binary

/-! ### Cells -/

namespace Sql.Cell

/-- The place of a number among all numbers. -/
def level : Cell → Int
  | integer n => n.val * Binary.Format.double.unit
  | real x => x.level
  | _ => 0

/-- Numbers are ordered by their places. -/
theorem order_numbers : ∀ {a b : Cell}, a.rank = 1 → b.rank = 1 →
    a.order b = compare a.level b.level := by
  have hunit : (0 : Int) < Binary.Format.double.unit :=
    Int.natCast_pos.2 Binary.Format.double.unit_pos
  have hcompare {m n p q : Int} (hlt : p < q ↔ m < n) (hgt : q < p ↔ n < m) :
      compare m n = compare p q := by
    rcases lt_trichotomy m n with h | h | h
    · rw [compare_lt_iff_lt.2 h, compare_lt_iff_lt.2 (hlt.2 h)]
    · have hpq : p = q := by omega
      rw [compare_eq_iff_eq.2 h, compare_eq_iff_eq.2 hpq]
    · rw [compare_gt_iff_gt.2 h, compare_gt_iff_gt.2 (hgt.2 h)]
  intro a b ha hb
  cases a with
  | integer m =>
    cases b with
    | integer n => exact hcompare (Int.mul_lt_mul_right hunit) (Int.mul_lt_mul_right hunit)
    | real y =>
      show (y.compareInt m.val).swap = _
      rw [y.compareInt_eq]
      exact Std.OrientedCmp.eq_swap.symm
    | _ => cases hb
  | real x =>
    cases b with
    | integer n => exact x.compareInt_eq n
    | real y => exact hcompare Binary.level_lt_iff Binary.level_lt_iff
    | _ => cases hb
  | _ => cases ha

theorem order_of_rank_ne {a b : Cell} (h : a.rank ≠ b.rank) :
    a.order b = compare a.rank b.rank := by
  cases a <;> cases b <;> first | rfl | exact absurd rfl h

theorem transCmp_bytes : Std.TransCmp fun a b : List UInt8 => compareOfLessAndEq a b :=
  Std.TransOrd.compareOfLessAndEq_of_antisymm_of_trans_of_total_of_not_le
    (fun h h' => List.le_antisymm h h') (fun h h' => List.le_trans h h') List.le_total
    List.not_le

/-- Cells of the same kind: nothing, two numbers, two texts, or two byte sequences. -/
theorem same_rank_cases {a b : Cell} (h : a.rank = b.rank) :
    (a = null ∧ b = null) ∨ (a.rank = 1 ∧ b.rank = 1) ∨
      (∃ s t, a = text s ∧ b = text t) ∨ ∃ s t, a = blob s ∧ b = blob t := by
  cases a <;> cases b <;> first
    | exact .inl ⟨rfl, rfl⟩
    | exact .inr (.inl ⟨rfl, rfl⟩)
    | exact .inr (.inr (.inl ⟨_, _, rfl, rfl⟩))
    | exact .inr (.inr (.inr ⟨_, _, rfl, rfl⟩))
    | cases h

theorem order_swap (a b : Cell) : a.order b = (b.order a).swap := by
  by_cases h : a.rank = b.rank
  · rcases same_rank_cases h with ⟨rfl, rfl⟩ | ⟨ha, hb⟩ | ⟨s, t, rfl, rfl⟩ | ⟨s, t, rfl, rfl⟩
    · rfl
    · rw [order_numbers ha hb, order_numbers hb ha]
      exact Std.OrientedCmp.eq_swap
    · have htexts : Std.TransCmp (compare : String → String → Ordering) := inferInstance
      exact htexts.eq_swap (a := s) (b := t)
    · have hbytes := transCmp_bytes
      exact hbytes.eq_swap (a := s) (b := t)
  · rw [order_of_rank_ne h, order_of_rank_ne (Ne.symm h)]
    exact Std.OrientedCmp.eq_swap

theorem rank_le_of_isLE {a b : Cell} (h : (a.order b).isLE) : a.rank ≤ b.rank := by
  by_cases hne : a.rank = b.rank
  · exact hne.le
  · rw [order_of_rank_ne hne] at h
    exact Std.isLE_compare.1 h

theorem order_trans {a b c : Cell} (hab : (a.order b).isLE) (hbc : (b.order c).isLE) :
    (a.order c).isLE := by
  have hle := rank_le_of_isLE hab
  have hle' := rank_le_of_isLE hbc
  by_cases h : a.rank = c.rank
  · have hb : b.rank = c.rank := by omega
    rcases same_rank_cases h with ⟨rfl, rfl⟩ | ⟨ha, hc⟩ | ⟨s, t, rfl, rfl⟩ | ⟨s, t, rfl, rfl⟩
    · rfl
    · rw [order_numbers ha (hb.trans hc)] at hab
      rw [order_numbers (hb.trans hc) hc] at hbc
      rw [order_numbers ha hc]
      exact Std.TransCmp.isLE_trans hab hbc
    · have htexts : Std.TransCmp (compare : String → String → Ordering) := inferInstance
      cases b with
      | text u => exact htexts.isLE_trans (a := s) (b := u) hab hbc
      | _ => cases hb
    · have hbytes := transCmp_bytes
      cases b with
      | blob u => exact hbytes.isLE_trans (a := s) (b := u) hab hbc
      | _ => cases hb
  · rw [order_of_rank_ne h]
    exact Std.isLE_compare.2 (hle.trans hle')

/-- **The order of cells is total and transitive.** -/
theorem transCmp_order : Std.TransCmp order where
  eq_swap := order_swap _ _
  isLE_trans := order_trans

theorem order_ne_gt (a b : Cell) : (a.order b != .gt) = (a.order b).isLE := by
  cases a.order b <;> rfl

theorem order_ne_gt_trans (a b c : Cell) (hab : (a.order b != .gt) = true)
    (hbc : (b.order c != .gt) = true) : (a.order c != .gt) = true := by
  rw [order_ne_gt] at hab hbc ⊢
  exact order_trans hab hbc

theorem order_ne_gt_total (a b : Cell) : (a.order b != .gt || b.order a != .gt) = true := by
  rw [order_swap b a]
  cases a.order b <;> rfl

end Sql.Cell

end ResourceTable
