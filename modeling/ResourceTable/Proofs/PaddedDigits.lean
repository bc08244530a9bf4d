import Mathlib.Data.Char
import Mathlib.Data.List.Lex
import Mathlib.Data.String.Basic
import ResourceTable.Calendar.Text
import ResourceTable.Proofs.Instant
import ResourceTable.Text.Hex

/-!
# Digits of a fixed width

Dates, times and identifiers are written in digits, decimal or hexadecimal, with zeros put
before them up to a width.  Such a text is that of the number without its last digit, and
then the last digit, so that what holds of all of them is proved along the width.  Texts of
one width are in the order of the numbers.

## Main definitions

* `compareChars`: how texts compare.
* `paddedDigits`: a number in at least so many digits of a base.

## Main results

* `paddedDigits_succ` — all digits but the last, and the last.
* `length_paddedDigits` — a number of the width has as many digits.
* `compareChars_paddedDigits` — **numbers of one width are in the order of their digits.**
-/

namespace ResourceTable

/-! ### Texts -/

/-- How texts compare: the first characters that differ decide. -/
def compareChars (as bs : List Char) : Ordering := compareOfLessAndEq as bs

theorem compare_text (s t : String) : compare s t = compareChars s.toList t.toList := by
  show compareOfLessAndEq s t = compareOfLessAndEq s.toList t.toList
  unfold compareOfLessAndEq
  simp only [String.lt_iff_toList_lt, String.toList_inj]

theorem compareChars_self (as : List Char) : compareChars as as = .eq := by
  rw [compareChars, compareOfLessAndEq, if_neg (List.lt_irrefl as), if_pos rfl]

theorem compareChars_swap (as bs : List Char) :
    compareChars as bs = (compareChars bs as).swap := by
  have h : compare (String.ofList as) (String.ofList bs) =
      (compare (String.ofList bs) (String.ofList as)).swap := Std.OrientedCmp.eq_swap
  rwa [compare_text, compare_text, String.toList_ofList, String.toList_ofList] at h

theorem compareChars_cons (a b : Char) (as bs : List Char) :
    compareChars (a :: as) (b :: bs) = (cmp a b).then (compareChars as bs) := by
  have hcons : a :: as < b :: bs ↔ a < b ∨ a = b ∧ as < bs := List.cons_lt_cons_iff
  unfold compareChars compareOfLessAndEq
  rcases lt_trichotomy a b with h | rfl | h
  · rw [if_pos (hcons.2 (.inl h)), (cmp_eq_lt_iff a b).2 h]
    rfl
  · have hrest : a :: as < a :: bs ↔ as < bs := by
      rw [hcons, or_iff_right (lt_irrefl a), and_iff_right rfl]
    rw [cmp_self_eq_eq]
    simp only [hrest, List.cons.injEq, true_and, Ordering.eq_then]
  · have hnot : ¬ a :: as < b :: bs := fun hlt => by
      rcases hcons.1 hlt with hlt | ⟨rfl, -⟩
      · exact lt_asymm h hlt
      · exact lt_irrefl a h
    have hne : a :: as ≠ b :: bs := fun he => h.ne (List.cons.inj he).1.symm
    rw [if_neg hnot, if_neg hne, (cmp_eq_gt_iff a b).2 h]
    rfl

theorem compareChars_cons_self (a : Char) (as bs : List Char) :
    compareChars (a :: as) (a :: bs) = compareChars as bs := by
  rw [compareChars_cons, cmp_self_eq_eq]
  rfl

/-- Of two texts the fronts decide, if they are of the same length. -/
theorem compareChars_append : ∀ {as bs : List Char} (cs ds : List Char), as.length = bs.length →
    compareChars (as ++ cs) (bs ++ ds) = (compareChars as bs).then (compareChars cs ds) := by
  intro as
  induction as with
  | nil =>
    intro bs cs ds h
    obtain rfl := List.length_eq_zero_iff.1 h.symm
    rw [compareChars_self []]
    rfl
  | cons a as ih =>
    intro bs cs ds h
    cases bs with
    | nil => cases h
    | cons b bs =>
      rw [List.cons_append, List.cons_append, compareChars_cons, compareChars_cons,
        ih cs ds (Nat.succ.inj h), Ordering.then_assoc]

/-! ### Digits -/

/-- The digits of a number in a base, zeros put before them up to the width. -/
def paddedDigits (base width n : Nat) : List Char :=
  let digits := Nat.toDigits base n
  List.replicate (width - digits.length) '0' ++ digits

theorem paddedChars_eq (width n : Nat) : paddedChars width n = paddedDigits 10 width n := rfl

theorem paddedHex_eq (width n : Nat) : paddedHex width n = paddedDigits 16 width n := rfl

section Digits

variable {base width m n : Nat}

/-- The digits of a number are those of its quotient by the base, then the last digit. -/
theorem paddedDigits_succ (hbase : 1 < base) (hwidth : 0 < width) (n : Nat) :
    paddedDigits base (width + 1) n =
      paddedDigits base width (n / base) ++ [Nat.digitChar (n % base)] := by
  unfold paddedDigits
  rw [Nat.toDigits_eq_if hbase]
  split
  · next h =>
    obtain ⟨w, rfl⟩ : ∃ w, width = w + 1 := ⟨width - 1, by omega⟩
    rw [Nat.div_eq_of_lt h, Nat.mod_eq_of_lt h, Nat.toDigits_of_lt_base (by omega)]
    simp [List.replicate_succ']
  · simp

theorem paddedDigits_one (h : n < base) : paddedDigits base 1 n = [Nat.digitChar n] := by
  rw [paddedDigits, Nat.toDigits_of_lt_base h]
  rfl

/-- The digits of a number of the width, from its last digit on. -/
theorem paddedDigits_induction {motive : Nat → Nat → List Char → Prop} (hbase : 1 < base)
    (one : ∀ n < base, motive 1 n [Nat.digitChar n])
    (succ : ∀ width n, 0 < width → n / base < base ^ width →
      motive width (n / base) (paddedDigits base width (n / base)) →
        motive (width + 1) n
          (paddedDigits base width (n / base) ++ [Nat.digitChar (n % base)])) :
    ∀ {width n : Nat}, 0 < width → n < base ^ width →
      motive width n (paddedDigits base width n) := by
  intro width
  induction width with
  | zero => intro n hwidth; omega
  | succ w ih =>
    intro n _ hn
    rcases Nat.eq_zero_or_pos w with rfl | hw
    · have hlt : n < base := by rwa [Nat.zero_add, Nat.pow_one] at hn
      rw [Nat.zero_add, paddedDigits_one hlt]
      exact one n hlt
    · have hquotient : n / base < base ^ w :=
        Nat.div_lt_of_lt_mul (by rwa [Nat.pow_succ, Nat.mul_comm] at hn)
      rw [paddedDigits_succ hbase hw]
      exact succ w n hw hquotient (ih hw hquotient)

/-- Digits are as many as the width. -/
theorem length_paddedDigits (hbase : 1 < base) (hwidth : 0 < width) (hn : n < base ^ width) :
    (paddedDigits base width n).length = width := by
  refine paddedDigits_induction (motive := fun width _ cs => cs.length = width) hbase
    (fun _ _ => rfl) (fun width n _ _ ih => ?_) hwidth hn
  rw [List.length_append, ih]
  rfl

/-- Every digit is one of the base. -/
theorem mem_paddedDigits (hbase : 1 < base) (hwidth : 0 < width) (hn : n < base ^ width) :
    ∀ c ∈ paddedDigits base width n, ∃ d < base, c = Nat.digitChar d := by
  refine paddedDigits_induction
    (motive := fun _ _ cs => ∀ c ∈ cs, ∃ d < base, c = Nat.digitChar d) hbase
    (fun n hn c hc => ⟨n, hn, List.mem_singleton.1 hc⟩) (fun width n _ _ ih c hc => ?_) hwidth hn
  rcases List.mem_append.1 hc with hc | hc
  · exact ih c hc
  · exact ⟨n % base, Nat.mod_lt n (by omega), List.mem_singleton.1 hc⟩

/-- The first digit of a number of the width, and the other ones. -/
theorem paddedDigits_eq_cons (hbase : 1 < base) (hwidth : 0 < width) (hn : n < base ^ width) :
    ∃ d < base, ∃ rest, paddedDigits base width n = Nat.digitChar d :: rest := by
  cases hdigits : paddedDigits base width n with
  | nil =>
    have hlength := length_paddedDigits hbase hwidth hn
    rw [hdigits] at hlength
    exact absurd hlength.symm hwidth.ne'
  | cons c rest =>
    obtain ⟨d, hd, rfl⟩ := mem_paddedDigits hbase hwidth hn c (hdigits ▸ List.mem_cons_self)
    exact ⟨d, hd, rest, rfl⟩

theorem cmp_digitChar {d e : Nat} (hd : d < 16) (he : e < 16) :
    cmp (Nat.digitChar d) (Nat.digitChar e) = cmp d e := by
  have hall : ∀ d < 16, ∀ e < 16, cmp (Nat.digitChar d) (Nat.digitChar e) = cmp d e := by decide
  exact hall d hd e he

/-- Numbers compare by what is left of them without the last digit, then by that digit. -/
theorem cmp_div_then_mod (base m n : Nat) :
    (cmp (m / base) (n / base)).then (cmp (m % base) (n % base)) = cmp m n := by
  have hm := Nat.div_add_mod m base
  have hn := Nat.div_add_mod n base
  have hlt {m n : Nat} (h : m / base < n / base) : m < n := Nat.lt_of_div_lt_div h
  refine (cmp_then hlt hlt fun hquotient => ?_).symm
  rw [hquotient] at hm
  exact cmp_eq_of_imp (fun h => by omega) (fun h => by omega) fun h => by omega

/-- **Numbers of one width are in the order of their digits.** -/
theorem compareChars_paddedDigits (hbase : 1 < base) (hle : base ≤ 16) :
    ∀ {width m n : Nat}, 0 < width → m < base ^ width → n < base ^ width →
      compareChars (paddedDigits base width m) (paddedDigits base width n) = cmp m n := by
  intro width
  induction width with
  | zero => intro m n hwidth; omega
  | succ w ih =>
    intro m n _ hm hn
    have hmod (k : Nat) : k % base < 16 := (Nat.mod_lt k (by omega)).trans_le hle
    rcases Nat.eq_zero_or_pos w with rfl | hw
    · rw [Nat.zero_add, Nat.pow_one] at hm hn
      rw [Nat.zero_add, paddedDigits_one hm, paddedDigits_one hn, compareChars_cons,
        compareChars_self [], Ordering.then_eq, cmp_digitChar (by omega) (by omega)]
    · rw [Nat.pow_succ, Nat.mul_comm] at hm hn
      have hm' := Nat.div_lt_of_lt_mul hm
      have hn' := Nat.div_lt_of_lt_mul hn
      rw [paddedDigits_succ hbase hw, paddedDigits_succ hbase hw, compareChars_append,
        ih hw hm' hn', compareChars_cons, compareChars_self [], Ordering.then_eq,
        cmp_digitChar (hmod m) (hmod n), cmp_div_then_mod]
      rw [length_paddedDigits hbase hw hm', length_paddedDigits hbase hw hn']

end Digits

end ResourceTable
