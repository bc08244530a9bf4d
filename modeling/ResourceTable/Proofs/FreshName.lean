import Mathlib.Data.List.Nodup
import Mathlib.Data.List.Perm.Subperm
import ResourceTable.Filter.Condition

/-!
# Placeholder names

A new placeholder takes the name of its field if that is free and a numbered form of
it otherwise.  There are more numbered forms to try than names in use, and they are
all different, so one of them is free.

## Main definitions

* `isBareName`: the texts that can be written as a name without quotes.

## Main results

* `freshName_notMem` — **a new name is never one in use.**
* `isBareName_freshName` — the numbered forms of a bare name are bare names.
-/

namespace ResourceTable

/-! ### Classes of characters as ranges of code points -/

theorem isNameStart_iff_toNat (c : Char) : isNameStart c = true ↔
    (65 ≤ c.toNat ∧ c.toNat ≤ 90) ∨ (97 ≤ c.toNat ∧ c.toNat ≤ 122) ∨ c.toNat = 95 := by
  have hunderscore : c = '_' ↔ c.toNat = 95 := ⟨fun h => h ▸ rfl, fun h => Char.toNat_inj.1 h⟩
  have halpha : c.isAlpha =
      (decide (65 ≤ c.val ∧ c.val ≤ 90) || decide (97 ≤ c.val) && decide (c.val ≤ 122)) := rfl
  simp only [isNameStart, halpha, Bool.or_eq_true, Bool.and_eq_true, decide_eq_true_eq,
    beq_iff_eq, hunderscore, UInt32.le_iff_toNat_le, or_assoc]
  rfl

theorem isDigit_iff_toNat (c : Char) : c.isDigit = true ↔ 48 ≤ c.toNat ∧ c.toNat ≤ 57 := by
  simp only [Char.isDigit, Bool.and_eq_true, decide_eq_true_eq, ge_iff_le,
    UInt32.le_iff_toNat_le]
  rfl

theorem isNamePart_iff (c : Char) :
    isNamePart c = true ↔ isNameStart c = true ∨ c.isDigit = true := by
  simp only [isNamePart, isNameStart, Char.isAlphanum, Bool.or_eq_true]
  exact or_right_comm

/-- A character of a name is none of the characters that marks and quotes are made of. -/
theorem ne_of_isNamePart {c d : Char} (hc : isNamePart c = true) (hd : isNamePart d = false) :
    c ≠ d := by
  rintro rfl
  rw [hc] at hd
  cases hd

/-! ### Bare names -/

/-- Whether the text can be written as a name without quotes: an ASCII letter or `_`,
then letters, digits and `_`. -/
def isBareName : List Char → Bool
  | [] => false
  | c :: rest => isNameStart c && rest.all isNamePart

theorem isBareName_cons {c : Char} {rest : List Char} :
    isBareName (c :: rest) = true ↔ isNameStart c = true ∧ ∀ d ∈ rest, isNamePart d = true := by
  rw [isBareName, Bool.and_eq_true, List.all_eq_true]

theorem isNamePart_of_isBareName {cs : List Char} (h : isBareName cs = true) :
    ∀ c ∈ cs, isNamePart c = true := by
  cases cs with
  | nil => cases h
  | cons c rest =>
    obtain ⟨hc, hrest⟩ := isBareName_cons.1 h
    exact List.forall_mem_cons.2 ⟨isNamePart_of_isNameStart hc, hrest⟩

theorem isIdentifier_iff {cs : List Char} :
    isIdentifier cs = true ↔ cs ≠ [] ∧ ∀ c ∈ cs, isNamePart c = true := by
  cases cs <;> simp [isIdentifier]

theorem isBareName_of_isIdentifier {cs : List Char} (h : isIdentifier cs = true)
    (hdigit : ∀ c ∈ cs.head?, c.isDigit = false) : isBareName cs = true := by
  cases cs with
  | nil => cases h
  | cons c rest =>
    obtain ⟨hc, hrest⟩ := List.forall_mem_cons.1 (isIdentifier_iff.1 h).2
    refine isBareName_cons.2 ⟨?_, hrest⟩
    rcases (isNamePart_iff c).1 hc with hstart | hd
    · exact hstart
    · rw [hdigit c rfl] at hd
      cases hd

theorem isBareName_append {a b : List Char} (ha : isBareName a = true)
    (hb : ∀ c ∈ b, isNamePart c = true) : isBareName (a ++ b) = true := by
  cases a with
  | nil => cases ha
  | cons c rest =>
    obtain ⟨hc, hrest⟩ := isBareName_cons.1 ha
    refine isBareName_cons.2 ⟨hc, fun d hd => ?_⟩
    rcases List.mem_append.1 hd with hd | hd
    · exact hrest d hd
    · exact hb d hd

/-! ### Fresh names -/

theorem numberedName_injective (base : String) {m n : Nat}
    (h : numberedName base m = numberedName base n) : m = n := by
  have hchars := congrArg String.toList h
  simp only [numberedName, String.toList_append, List.append_cancel_left_eq] at hchars
  rw [Nat.toString_eq_repr, Nat.toString_eq_repr, Nat.repr, Nat.repr, String.toList_ofList,
    String.toList_ofList] at hchars
  have hvalue := congrArg (fun digits => Nat.ofDigitChars 10 digits 0) hchars
  simpa only [Nat.ofDigitChars_ten_toDigits] using hvalue

/-- Among one more numbered names than there are names in use, one is unused. -/
theorem exists_numberedName_notMem (base : String) (used : List String) :
    ∃ n ∈ List.range' 2 (used.length + 1), numberedName base n ∉ used := by
  by_contra hall
  have hsub : (List.range' 2 (used.length + 1)).map (numberedName base) ⊆ used := by
    intro name hname
    obtain ⟨n, hn, rfl⟩ := List.mem_map.1 hname
    by_contra hfree
    exact hall ⟨n, hn, hfree⟩
  have hnodup : ((List.range' 2 (used.length + 1)).map (numberedName base)).Nodup :=
    (List.nodup_range' 1 Nat.one_pos).map fun _ _ h => numberedName_injective base h
  have hlength := (hnodup.subperm hsub).length_le
  rw [List.length_map, List.length_range'] at hlength
  omega

/-- A new name is the base or a numbered form of it. -/
theorem freshName_eq (base : String) (used : List String) :
    freshName base used = base ∨ ∃ n, freshName base used = numberedName base n := by
  unfold freshName
  split
  · split
    · next n _ => exact .inr ⟨n, rfl⟩
    · exact .inl rfl
  · exact .inl rfl

/-- **A new name is never one in use.** -/
theorem freshName_notMem (base : String) (used : List String) : freshName base used ∉ used := by
  unfold freshName
  split
  · split
    · next n hn =>
      have h := List.find?_some hn
      simpa using h
    · next hnone =>
      obtain ⟨n, hn, hfree⟩ := exists_numberedName_notMem base used
      have h := List.find?_eq_none.1 hnone n hn
      simp [hfree] at h
  · next h => simpa using h

theorem isNamePart_numberedName (base : String) (n : Nat) :
    ∃ tail : List Char, (numberedName base n).toList = base.toList ++ tail ∧
      ∀ c ∈ tail, isNamePart c = true := by
  refine ⟨'_' :: (toString n).toList, ?_, ?_⟩
  · simp [numberedName]
  · refine List.forall_mem_cons.2 ⟨by decide, fun c hc => ?_⟩
    have hdigit : c.isDigit = true := by
      rw [Nat.toString_eq_repr, Nat.repr, String.toList_ofList] at hc
      exact Nat.isDigit_of_mem_toDigits (by decide) (by decide) hc
    simp [isNamePart, Char.isAlphanum, hdigit]

theorem isBareName_freshName {base : String} (h : isBareName base.toList = true)
    (used : List String) : isBareName (freshName base used).toList = true := by
  rcases freshName_eq base used with he | ⟨n, he⟩
  · rw [he]
    exact h
  · obtain ⟨tail, htail, hparts⟩ := isNamePart_numberedName base n
    rw [he, htail]
    exact isBareName_append h hparts

/-- The base of a field is a bare name if the field begins like one. -/
theorem isBareName_placeholderBase {field : String} {c : Char} {rest : List Char}
    (hfield : field.toList = c :: rest) (hc : isNameStart c = true) :
    isBareName (placeholderBase field).toList = true := by
  rw [placeholderBase, String.toList_ofList, hfield, List.map_cons,
    if_pos (isNamePart_of_isNameStart hc)]
  refine isBareName_cons.2 ⟨hc, fun d hd => ?_⟩
  obtain ⟨e, -, rfl⟩ := List.mem_map.1 hd
  by_cases he : isNamePart e = true
  · rw [if_pos he]
    exact he
  · rw [if_neg he]
    decide

end ResourceTable
