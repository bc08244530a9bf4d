import ResourceTable.Identifiers
import ResourceTable.Proofs.PaddedDigits

/-!
# Identifiers as texts

An identifier is a number in eight lower-case hexadecimal digits.  The digits give the
number back, and identifiers are in the order of the numbers.

## Main definitions

* `IsHexDigit`: a lower-case hexadecimal digit.
* `Identifiers.IsBatch`: the identifiers of consecutive numbers.

## Main results

* `natOfHex?_paddedHex` — the digits of a number give it back.
* `isBatch_texts` — **the identifiers of consecutive numbers are a batch.**
* `range_eq_ok` — what is cut out of the identifiers up to a counter.
-/

namespace ResourceTable

/-- A lower-case hexadecimal digit. -/
def IsHexDigit (c : Char) : Prop := c.isDigit ∨ 'a' ≤ c ∧ c ≤ 'f'

theorem isHexDigit_digitChar {d : Nat} (hd : d < 16) : IsHexDigit (Nat.digitChar d) := by
  have hall : ∀ d < 16, (Nat.digitChar d).isDigit ∨
      'a' ≤ Nat.digitChar d ∧ Nat.digitChar d ≤ 'f' := by decide
  exact hall d hd

theorem hexValue?_digitChar {d : Nat} (hd : d < 16) : hexValue? (Nat.digitChar d) = some d := by
  have hall : ∀ d < 16, hexValue? (Nat.digitChar d) = some d := by decide
  exact hall d hd

theorem natOfHex?_append (as bs : List Char) :
    natOfHex? (as ++ bs) = (natOfHex? as).bind fun n =>
      bs.foldlM (fun n c => (hexValue? c).map fun d => n * 16 + d) n :=
  List.foldlM_append

/-- **The digits of a number give it back.** -/
theorem natOfHex?_paddedHex {width n : Nat} (hwidth : 0 < width) (hn : n < 16 ^ width) :
    natOfHex? (paddedHex width n) = some n := by
  rw [paddedHex_eq]
  refine paddedDigits_induction (motive := fun _ n cs => natOfHex? cs = some n) (by decide)
    (fun n hn => ?_) (fun width n _ _ ih => ?_) hwidth hn
  · rw [natOfHex?, List.foldlM_cons, hexValue?_digitChar hn]
    simp
  · rw [natOfHex?_append, ih, Option.bind_some, List.foldlM_cons,
      hexValue?_digitChar (Nat.mod_lt n (by decide))]
    simp [Nat.div_add_mod']

namespace Identifiers

theorem toList_text (n : Nat) : (text n).toList = paddedHex 8 n := String.toList_ofList

/-- Identifiers are in the order of their numbers. -/
theorem text_lt_text {m n : Nat} (hlt : m < n) (hn : n < 16 ^ 8) : text m < text n := by
  have hcmp : compareChars (paddedHex 8 m) (paddedHex 8 n) = .lt := by
    rw [paddedHex_eq, paddedHex_eq, compareChars_paddedDigits (by decide) (by decide) (by decide)
      (hlt.trans hn) hn]
    exact (cmp_eq_lt_iff m n).2 hlt
  rw [String.lt_iff_toList_lt, toList_text, toList_text]
  unfold compareChars compareOfLessAndEq at hcmp
  split at hcmp
  · assumption
  · split at hcmp <;> cases hcmp

/-- The identifiers of consecutive numbers: as many as asked for, each of eight lower-case
hexadecimal digits, of numbers from one to the greatest, in ascending order. -/
structure IsBatch (size : Nat) (ids : List String) : Prop where
  length : ids.length = size
  digits : ∀ id ∈ ids, id.toList.length = 8 ∧ ∀ c ∈ id.toList, IsHexDigit c
  consecutive : ∃ first : Nat, 1 ≤ first ∧ (first + size : Int) ≤ greatest + 1 ∧
    ids.map (fun id => natOfHex? id.toList) = (List.range' first size).map some
  ascending : ids.Pairwise (· < ·)

/-- **The identifiers of consecutive numbers are a batch.** -/
theorem isBatch_texts {first size : Nat} (hfirst : 1 ≤ first)
    (hlast : (first + size : Int) ≤ greatest + 1) :
    IsBatch size ((List.range' first size).map text) := by
  have hgreatest : greatest + 1 = 16 ^ 8 := by decide
  have hbound : ∀ n ∈ List.range' first size, n < 16 ^ 8 := by
    intro n hn
    obtain ⟨-, hlt⟩ := List.mem_range'_1.1 hn
    omega
  constructor
  · rw [List.length_map, List.length_range']
  · intro id hid
    obtain ⟨n, hn, rfl⟩ := List.mem_map.1 hid
    rw [toList_text, paddedHex_eq]
    refine ⟨length_paddedDigits (by decide) (by decide) (hbound n hn), fun c hc => ?_⟩
    obtain ⟨d, hd, rfl⟩ := mem_paddedDigits (by decide) (by decide) (hbound n hn) c hc
    exact isHexDigit_digitChar hd
  · refine ⟨first, hfirst, hlast, ?_⟩
    rw [List.map_map]
    refine List.map_congr_left fun n hn => ?_
    show natOfHex? (text n).toList = some n
    rw [toList_text, natOfHex?_paddedHex (by decide) (hbound n hn)]
  · rw [List.pairwise_map]
    have hlt : (List.range' first size).Pairwise (· < ·) := List.pairwise_lt_range'
    exact hlt.imp_of_mem fun _ hn h => text_lt_text h (hbound _ hn)

/-- **What is cut out of the identifiers up to a counter** are those of the last numbers up
to it, all of which are within the range of identifiers. -/
theorem range_eq_ok {kind : String} {counter : Int} {size : Nat} {ids : List String}
    (hsize : size ≤ maxBatch) (hcounter : 0 ≤ counter)
    (h : range kind counter size = .ok ids) :
    counter ≤ greatest ∧ ∃ before : Nat, counter = before + size ∧
      ids = (List.range' (before + 1) size).map text := by
  have hgreatest : greatest = 4294967295 := by decide
  have hmax : maxBatch = 1000 := rfl
  have hcount : (IntType.i64.count : Int) = 18446744073709551616 := by decide
  unfold range at h
  split at h
  · cases h
  · next hle =>
    dsimp only at h
    have hfirst : firstOf counter size = counter - size + 1 := by
      unfold firstOf
      apply Int.bmod_eq_of_le <;> omega
    rw [hfirst] at h
    split at h
    · cases h
    · next hbehind =>
      obtain ⟨before, hbefore⟩ : ∃ before : Nat, counter = before + size :=
        ⟨(counter - size).toNat, by omega⟩
      refine ⟨by omega, before, hbefore, ?_⟩
      obtain rfl := Except.ok.inj h
      have hstart : (counter - size + 1).toNat = before + 1 := by omega
      have hlength : (counter + 1 - (counter - size + 1)).toNat = size := by omega
      rw [hstart, hlength]

end Identifiers

end ResourceTable
