import Mathlib.Data.Nat.Log
import Mathlib.Tactic.Ring
import Mathlib.Tactic.SplitIfs
import ResourceTable.Sql.Cell

/-!
# Counters at the end of the range of integers

A counter in a numeric column is an integer as long as it is within 64 bits.  The sum that
leaves this range is the fractional number nearest to `2 ^ 63`, and since batches are much
smaller than half the distance of fractional numbers of this size, adding more leaves it
there: a counter advances up to `2 ^ 63` and stays.

## Main definitions

* `Binary.beyond`: the fractional number `2 ^ 63`.

## Main results

* `ofRatio_beyond` — every number near `2 ^ 63` is rounded to it.
* `Sql.Cell.store_plus` — **a counter that advances stops at `2 ^ 63`.**
-/

namespace ResourceTable

namespace Binary

/-! ### Rounding integers -/

theorem roundHalfEven_mul (num den : Nat) {d : Nat} (hd : 0 < d) :
    roundHalfEven (num * d) (den * d) = roundHalfEven num den := by
  unfold roundHalfEven
  rw [Nat.mul_div_mul_right _ _ hd, Nat.mul_mod_mul_right, ← Nat.mul_assoc]
  simp only [Nat.mul_lt_mul_right hd]

theorem floorLog2_of_le {v log j : Nat} (hlow : 2 ^ log ≤ v) (hhigh : v < 2 ^ (log + 1)) :
    floorLog2 (v * 2 ^ j) (2 ^ j) = log := by
  have hpos : 0 < 2 ^ j := Nat.two_pow_pos j
  have hv : v ≠ 0 := by have := Nat.two_pow_pos log; omega
  have hlog : Nat.log2 (v * 2 ^ j) = log + j := by
    rw [Nat.log2_eq_iff (Nat.mul_ne_zero hv hpos.ne'), Nat.pow_add, Nat.add_right_comm, Nat.pow_add]
    exact ⟨Nat.mul_le_mul_right _ hlow, Nat.mul_lt_mul_of_pos_right hhigh hpos⟩
  have hguess : ((log + j : Nat) : Int) - (j : Nat) = log := by omega
  have hfits : 2 ^ j * 2 ^ log ≤ v * 2 ^ j := by
    rw [Nat.mul_comm]
    exact Nat.mul_le_mul_right _ hlow
  unfold floorLog2
  rw [hlog, Nat.log2_two_pow]
  dsimp only
  rw [hguess, Int.toNat_natCast]
  refine if_pos ?_
  rw [if_pos (Int.natCast_nonneg log)]
  exact hfits

/-- A large integer is rounded to the bits that the layout has room for, also if it is
written as a quotient. -/
theorem ofRatio_of_le (log : Nat) {v j : Nat} (hlow : 2 ^ log ≤ v) (hhigh : v < 2 ^ (log + 1))
    (hlog : 52 ≤ log) :
    (ofRatio false (v * 2 ^ j) (2 ^ j) : Double) =
      ofMagnitude false (min ((log + 1022) * 2 ^ 52 + roundHalfEven v (2 ^ (log - 52)))
        Format.double.infinityBits) := by
  have hpos : 0 < 2 ^ j := Nat.two_pow_pos j
  have hv : v * 2 ^ j ≠ 0 :=
    Nat.mul_ne_zero (by have := Nat.two_pow_pos log; omega) hpos.ne'
  have hleast : Format.double.leastExponent = -1074 := by decide
  have hunit : max (-1074) ((log : Int) - (52 : Nat)) = (log - 52 : Nat) := by omega
  have hexp : ((log - 52 : Nat) - (-1074 : Int)).toNat = log + 1022 := by omega
  have hround : roundHalfEven (v * 2 ^ j) (2 ^ j * Nat.pow 2 (log - 52)) =
      roundHalfEven v (2 ^ (log - 52)) := by
    rw [Nat.mul_comm (2 ^ j)]
    exact roundHalfEven_mul v _ hpos
  unfold ofRatio
  rw [if_neg (not_or.2 ⟨hv, hpos.ne'⟩), floorLog2_of_le hlow hhigh, hleast]
  dsimp only [Format.double]
  rw [hunit, if_pos (Int.natCast_nonneg _), Int.toNat_natCast, hexp, hround]
  rfl

/-- The fractional number `2 ^ 63`. -/
def beyond : Double := .ofInt (2 ^ 63)

/-- **Every number near `2 ^ 63` is rounded to it.** -/
theorem ofRatio_beyond {v j : Nat} (hlow : 2 ^ 63 - 512 ≤ v) (hhigh : v ≤ 2 ^ 63 + 1024) :
    (ofRatio false (v * 2 ^ j) (2 ^ j) : Double) = beyond := by
  have hbeyond : beyond = ofMagnitude false (min (1086 * 2 ^ 52) Format.double.infinityBits) := by
    decide +kernel
  rw [hbeyond]
  -- Below `2 ^ 63` the last places are half as large as from there on.
  rcases Nat.lt_or_ge v (2 ^ 63) with h | h
  · have hround : roundHalfEven v (2 ^ (62 - 52)) = 2 * 2 ^ 52 := by
      unfold roundHalfEven
      dsimp only
      split_ifs <;> omega
    rw [ofRatio_of_le 62 (by omega) h (by decide), hround, ← Nat.add_mul]
  · have hround : roundHalfEven v (2 ^ (63 - 52)) = 2 ^ 52 := by
      unfold roundHalfEven
      dsimp only
      split_ifs <;> omega
    rw [ofRatio_of_le 63 h (by omega) (by decide), hround, ← Nat.succ_mul]

/-- The numbers below those are rounded to the next fractional number below. -/
theorem ofInt_near {v : Nat} (hlow : 2 ^ 63 - 1024 ≤ v) (hhigh : v < 2 ^ 63 - 512) :
    (ofInt v : Double) = ofInt (2 ^ 63 - 1024 : Nat) := by
  have hround {v : Nat} (hlow : 2 ^ 63 - 1024 ≤ v) (hhigh : v < 2 ^ 63 - 512) :
      roundHalfEven v (2 ^ (62 - 52)) = 2 ^ 53 - 1 := by
    unfold roundHalfEven
    dsimp only
    split_ifs <;> omega
  have hratio {v : Nat} (hlow : 2 ^ 63 - 1024 ≤ v) (hhigh : v < 2 ^ 63 - 512) :
      (ofInt v : Double) = ofMagnitude false
        (min ((62 + 1022) * 2 ^ 52 + (2 ^ 53 - 1)) Format.double.infinityBits) := by
    have h := ofRatio_of_le 62 (v := v) (j := 0) (by omega) (by omega) (by decide)
    rw [Nat.pow_zero, Nat.mul_one, hround hlow hhigh] at h
    rw [ofInt, decide_eq_false (by omega), Int.natAbs_natCast, h]
  rw [hratio hlow hhigh, hratio (by decide) (by decide)]

theorem ofInt_beyond {v : Nat} (hlow : 2 ^ 63 - 512 ≤ v) (hhigh : v ≤ 2 ^ 63 + 1024) :
    (ofInt v : Double) = beyond := by
  have h := ofRatio_beyond (j := 0) hlow hhigh
  rw [Nat.pow_zero, Nat.mul_one] at h
  rw [ofInt, decide_eq_false (by omega), Int.natAbs_natCast, h]

/-! ### Sums -/

/-- The size of a batch is kept exactly. -/
theorem ratio_ofInt {k : Nat} (hpos : 1 ≤ k) (hk : k ≤ 1000) :
    ∃ j, (ofInt k : Double).isFinite = true ∧ (ofInt k : Double).ratio.2 = 2 ^ j ∧
      (ofInt k : Double).numerator = k * 2 ^ j := by
  have hall : ((List.range' 1 1000).all fun k => (ofInt k : Double).isFinite &&
      (ofInt k : Double).ratio.2 == 2 ^ (52 - Nat.log2 k) &&
      (ofInt k : Double).numerator == k * 2 ^ (52 - Nat.log2 k)) = true := by
    decide +kernel
  have h := List.all_eq_true.1 hall k (List.mem_range'_1.2 (by omega))
  simp only [Bool.and_eq_true, beq_iff_eq] at h
  exact ⟨52 - Nat.log2 k, h.1.1, h.1.2, h.2⟩

/-- What is added to an integer is added exactly, and the sum rounded. -/
theorem add_ofInt {x : Double} {v k : Nat} (hfinite : x.isFinite = true) (hden : x.ratio.2 = 1)
    (hnum : x.numerator = v) (hpos : 1 ≤ k) (hk : k ≤ 1000) :
    ∃ j, x.add (.ofInt k) = ofRatio false ((v + k) * 2 ^ j) (2 ^ j) := by
  obtain ⟨j, hk, hden', hnum'⟩ := ratio_ofInt hpos hk
  refine ⟨j, ?_⟩
  have hsum : (v * (2 ^ j : Nat) + k * 2 ^ j * (1 : Nat) : Int) = ((v + k) * 2 ^ j : Nat) := by
    push_cast
    ring
  have hne : ((v + k) * 2 ^ j : Nat) ≠ 0 := Nat.mul_ne_zero (by omega) (Nat.two_pow_pos j).ne'
  rw [add, hfinite, hk]
  show addFinite x (.ofInt k) = _
  unfold addFinite
  rw [hnum, hnum', hden, hden', hsum]
  dsimp only
  rw [if_neg (by exact_mod_cast hne), decide_eq_false (by omega), Int.natAbs_natCast, Nat.one_mul]

/-- A sum that would be beyond the range of integers is `2 ^ 63`. -/
theorem add_eq_beyond {n k : Nat} (hn : n ≤ 2 ^ 63) (hpos : 1 ≤ k) (hk : k ≤ 1000)
    (hsum : 2 ^ 63 ≤ n + k) : (ofInt n : Double).add (.ofInt k) = beyond := by
  have hat : (beyond.isFinite = true ∧ beyond.ratio.2 = 1 ∧ beyond.numerator = (2 ^ 63 : Nat)) ∧
      (ofInt (2 ^ 63 - 1024 : Nat) : Double).isFinite = true ∧
      (ofInt (2 ^ 63 - 1024 : Nat) : Double).ratio.2 = 1 ∧
      (ofInt (2 ^ 63 - 1024 : Nat) : Double).numerator = (2 ^ 63 - 1024 : Nat) := by
    decide +kernel
  obtain ⟨⟨hfinite, hden, hnum⟩, hfinite', hden', hnum'⟩ := hat
  rcases Nat.lt_or_ge n (2 ^ 63 - 512) with h | h
  · obtain ⟨j, hadd⟩ := add_ofInt hfinite' hden' hnum' hpos hk
    rw [ofInt_near (by omega) h, hadd, ofRatio_beyond (by omega) (by omega)]
  · obtain ⟨j, hadd⟩ := add_ofInt hfinite hden hnum hpos hk
    rw [ofInt_beyond h (by omega), hadd, ofRatio_beyond (by omega) (by omega)]

end Binary

namespace Sql.Cell

theorem ofInt_of_holds {n : Int} (h : IntType.i64.Holds n) : ofInt n = .integer ⟨n, h⟩ := by
  have hfits : FixedInt.ofInt? .i64 n = some ⟨n, h⟩ := FixedInt.ofInt?_eq_some_iff.2 rfl
  rw [ofInt, hfits]

theorem ofInt_beyond : ofInt (2 ^ 63 : Nat) = .real .beyond := by decide +kernel

/-- **A counter that advances stops at `2 ^ 63`.** -/
theorem store_plus {n k : Nat} (hn : n ≤ 2 ^ 63) (hpos : 1 ≤ k) (hk : k ≤ 1000) :
    Affinity.numeric.store ((ofInt n).plus (ofInt k)) = ofInt (min (n + k) (2 ^ 63) : Nat) := by
  have hholds {n : Nat} : IntType.i64.Holds n ↔ n < 2 ^ 63 := by
    show (-9223372036854775808 : Int) ≤ n ∧ (n : Int) ≤ 9223372036854775807 ↔ _
    omega
  have hkept : (Cell.real .beyond).narrowed = .real .beyond ∧ Binary.beyond.isNaN = false := by
    decide +kernel
  obtain ⟨hnarrowed, hnumber⟩ := hkept
  have hstored : Affinity.numeric.store (.real .beyond) = .real .beyond := hnarrowed
  have hofDouble : ofDouble .beyond = .real .beyond := if_neg (by rw [hnumber]; exact nofun)
  rw [ofInt_of_holds (hholds.2 (by omega : k < 2 ^ 63))]
  rcases Nat.lt_or_ge n (2 ^ 63) with h | h
  · rw [ofInt_of_holds (hholds.2 h), plus, arithmetic]
    dsimp only [asNumber]
    rcases Nat.lt_or_ge (n + k) (2 ^ 63) with hsum | hsum
    · have hfits : FixedInt.ofInt? .i64 ((n : Int) + k) = some ⟨(n + k : Nat), hholds.2 hsum⟩ :=
        FixedInt.ofInt?_eq_some_iff.2 rfl
      rw [hfits, Nat.min_eq_left hsum.le, ofInt_of_holds (hholds.2 hsum)]
      rfl
    · have hfits : FixedInt.ofInt? .i64 ((n : Int) + k) = none :=
        dif_neg fun hin => absurd (hholds.1 hin) (by omega)
      rw [hfits, Nat.min_eq_right hsum, ofInt_beyond]
      dsimp only
      rw [Binary.add_eq_beyond h.le hpos hk hsum, hofDouble, hstored]
  · obtain rfl : n = 2 ^ 63 := by omega
    have hadd : Binary.beyond.add (.ofInt k) = Binary.beyond :=
      Binary.add_eq_beyond le_rfl hpos hk (Nat.le_add_right _ k)
    rw [ofInt_beyond, plus, arithmetic]
    dsimp only [asNumber]
    rw [hadd, hofDouble, hstored, Nat.min_eq_right (Nat.le_add_right _ k), ofInt_beyond]

end Sql.Cell

end ResourceTable
