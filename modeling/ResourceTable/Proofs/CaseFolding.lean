import Mathlib.Data.Char
import Mathlib.Data.List.Count
import Mathlib.Data.Nat.ModEq
import ResourceTable.Text.Lowercase

/-!
# Two lower cases

The lower case of a text and the lower case of its ASCII letters alone are the same on every
character but one kind: the characters beyond ASCII that have another lower case.  The lower
case of such a character is never of that kind itself, so a text in lower case holds none of
them, and a text that holds one differs from its lower case.

## Main definitions

* `isWideUpper`: a character beyond ASCII with another lower case.
* `caseImage`: what becomes of a character between others.
* `isSettled`: a character that stands for itself and is in lower case beyond ASCII.

## Main results

* `caseRuns_clear` — what is in lower case has no other lower case.
* `caseImage_spec` — what becomes of a character.
* `lowercase_takeWhile` — the lower case of a text up to a null character.
* `countP_asciiLower_lt` — the lower case of ASCII letters settles less.
* `lowercase_eq_map_iff` — **where the two lower cases agree.**
-/

namespace ResourceTable

/-! ### ASCII letters -/

theorem toNat_ofNat {n : Nat} (h : n.isValidChar) : (Char.ofNat n).toNat = n := by
  rw [Char.ofNat, dif_pos h]
  rfl

theorem asciiLower_toNat (c : Char) :
    (asciiLower c).toNat = if 0x41 ≤ c.toNat ∧ c.toNat ≤ 0x5a then c.toNat + 32 else c.toNat := by
  have hupper : ('A' ≤ c ∧ c ≤ 'Z') ↔ 0x41 ≤ c.toNat ∧ c.toNat ≤ 0x5a := Iff.rfl
  unfold asciiLower
  by_cases h : 'A' ≤ c ∧ c ≤ 'Z'
  · obtain ⟨hlow, hhigh⟩ := hupper.1 h
    have hvalid : (c.toNat + 32).isValidChar := .inl (by omega)
    rw [if_pos h, if_pos ⟨hlow, hhigh⟩, toNat_ofNat hvalid]
  · rw [if_neg h, if_neg (mt hupper.2 h)]

/-- Letters in lower case stay. -/
theorem asciiLower_asciiLower (c : Char) : asciiLower (asciiLower c) = asciiLower c := by
  rw [← Char.toNat_inj, asciiLower_toNat, asciiLower_toNat]
  split_ifs <;> omega

/-- What is no letter comes from itself alone. -/
theorem asciiLower_eq_iff {c d : Char} (hd : d.toNat < 0x61 ∨ 0x7a < d.toNat)
    (hd' : d.toNat < 0x41 ∨ 0x5a < d.toNat) : asciiLower c = d ↔ c = d := by
  rw [← Char.toNat_inj, ← Char.toNat_inj, asciiLower_toNat]
  split_ifs <;> omega

/-- Characters beyond ASCII stay. -/
theorem asciiLower_of_wide {c : Char} (h : 0x80 ≤ c.toNat) : asciiLower c = c := by
  rw [← Char.toNat_inj, asciiLower_toNat, if_neg (by omega)]

/-! ### The table -/

namespace CaseRun

/-- The first of the lower cases of a run. -/
def lowest (r : CaseRun) : Nat := (r.first + r.offset).toNat

/-- The last of them. -/
def highest (r : CaseRun) : Nat := (r.last + r.offset).toNat

/-- The lower cases of the run are characters, and none of them comes before the small
letters. -/
def isWritten (r : CaseRun) : Bool :=
  Nat.ble 0x60 r.lowest &&
    (Nat.blt r.highest 0xd800 || Nat.blt 0xdfff r.lowest && Nat.blt r.highest 0x110000)

/-- No lower case of the run is a member of the other one: they are apart, or in step and
never meet. -/
def isClearOf (r q : CaseRun) : Bool :=
  Nat.blt r.highest q.first || Nat.blt q.last r.lowest ||
    (Nat.beq r.first r.last || Nat.beq (r.step % q.step) 0) &&
      !Nat.beq (r.lowest % q.step) (q.first % q.step)

/-- The lower case of a member of a run. -/
def image (r : CaseRun) (n : Nat) : Nat := (n + r.offset).toNat

variable {r q : CaseRun} {n : Nat}

theorem covers_iff : r.covers n = true ↔
    r.first ≤ n ∧ n ≤ r.last ∧ (n - r.first) % r.step = 0 := by
  simp [covers, and_assoc]

/-- The lower cases of the members are as far apart as the members. -/
theorem image_eq (hwritten : r.isWritten = true) (h : r.covers n = true) :
    r.image n = r.lowest + (n - r.first) ∧ r.image n ≤ r.highest := by
  obtain ⟨hfirst, hlast, -⟩ := covers_iff.1 h
  have hlowest : 0x60 ≤ r.lowest := Nat.ble_eq.mp (Bool.and_eq_true_iff.1 hwritten).1
  unfold image highest
  unfold lowest at hlowest ⊢
  omega

/-- It is a character after the capital letters. -/
theorem image_isValidChar (hwritten : r.isWritten = true) (h : r.covers n = true) :
    0x60 ≤ r.image n ∧ (r.image n).isValidChar := by
  obtain ⟨himage, hhigh⟩ := image_eq hwritten h
  simp only [isWritten, Bool.and_eq_true, Bool.or_eq_true, Nat.ble_eq, Nat.blt_eq] at hwritten
  obtain ⟨hlow, hvalid⟩ := hwritten
  refine ⟨by omega, ?_⟩
  show _ ∨ _ ∧ _
  omega

/-- It is no member of a run that its own run is clear of. -/
theorem not_covers_image (hwritten : r.isWritten = true) (hclear : r.isClearOf q = true)
    (h : r.covers n = true) : q.covers (r.image n) = false := by
  obtain ⟨himage, hhigh⟩ := image_eq hwritten h
  obtain ⟨hfirst, hlast, hstep⟩ := covers_iff.1 h
  rw [Bool.eq_false_iff]
  intro hcovers
  obtain ⟨hfirst', hlast', hstep'⟩ := covers_iff.1 hcovers
  simp only [isClearOf, Bool.and_eq_true, Bool.or_eq_true, Nat.blt_eq, Nat.beq_eq,
    Bool.not_eq_true', Bool.eq_false_iff, ne_eq] at hclear
  rcases hclear with (hbefore | hbehind) | ⟨hsteps, hapart⟩
  · omega
  · omega
  · -- Both are in step, so that the first lower case would be in step with the other run.
    have hmember : r.lowest + (n - r.first) ≡ q.first [MOD q.step] := by
      rw [← himage]
      exact ((Nat.modEq_iff_dvd' hfirst').2 (Nat.dvd_of_mod_eq_zero hstep')).symm
    have hoffset : n - r.first ≡ 0 [MOD q.step] := by
      rcases hsteps with hone | hdvd
      · have hn : n - r.first = 0 := by omega
        rw [hn]
      · exact Nat.modEq_zero_iff_dvd.2
          ((Nat.dvd_of_mod_eq_zero hdvd).trans (Nat.dvd_of_mod_eq_zero hstep))
    have hlowest : r.lowest ≡ r.lowest + (n - r.first) [MOD q.step] :=
      (Nat.ModEq.refl r.lowest).add hoffset.symm
    exact hapart (hlowest.trans hmember)

end CaseRun

/-- The capital I with a dot, whose lower case is two characters. -/
def dottedRun : CaseRun := ⟨0x130, 0x130, 1, 0⟩

/-- **What is in lower case has no other lower case**: the runs are clear of each other, and
of the capital I with a dot. -/
theorem caseRuns_clear : (caseRuns.all fun r =>
    r.isWritten && (dottedRun :: caseRuns).all r.isClearOf) = true := by
  decide +kernel

/-! ### Characters with another lower case -/

/-- A character beyond ASCII with another lower case. -/
def isWideUpper (c : Char) : Bool := decide (0x80 ≤ c.toNat) && lowercaseChar c != [c]

theorem isWideUpper_of_ascii {c : Char} (h : c.toNat < 0x80) : isWideUpper c = false := by
  rw [isWideUpper, decide_eq_false (by omega), Bool.false_and]

theorem wide_of_isWideUpper {c : Char} (h : isWideUpper c = true) : 0x80 ≤ c.toNat :=
  of_decide_eq_true (Bool.and_eq_true_iff.1 h).1

/-- The lower case of another character is that of the ASCII letters. -/
theorem lowercaseChar_of_not {c : Char} (h : isWideUpper c = false) :
    lowercaseChar c = [asciiLower c] := by
  by_cases hc : c.toNat < 0x80
  · rw [lowercaseChar, if_pos hc]
  · rw [isWideUpper, decide_eq_true (by omega), Bool.true_and, bne_eq_false_iff_eq] at h
    rw [h, asciiLower_of_wide (by omega)]

/-- A character that no run of the table covers has no other lower case. -/
theorem isWideUpper_of_uncovered {c : Char}
    (h : ∀ q ∈ dottedRun :: caseRuns, q.covers c.toNat = false) : isWideUpper c = false := by
  obtain ⟨hdotted, hruns⟩ := List.forall_mem_cons.1 h
  have hne : c.toNat ≠ 0x130 := fun he => by
    rw [he] at hdotted
    cases hdotted
  have hfind : caseRuns.find? (·.covers c.toNat) = none :=
    List.find?_eq_none.2 fun q hq => Bool.eq_false_iff.1 (hruns q hq)
  by_cases hc : c.toNat < 0x80
  · exact isWideUpper_of_ascii hc
  · rw [isWideUpper, lowercaseChar, if_neg hc, if_neg hne, hfind, bne_self_eq_false,
      Bool.and_false]

/-- The lower case of a character that has another one. -/
theorem lowercaseChar_of_wide {c : Char} (h : isWideUpper c = true) :
    c.toNat = 0x130 ∨
      ∃ d, lowercaseChar c = [d] ∧ isWideUpper d = false ∧ 0x60 ≤ d.toNat := by
  by_cases hdotted : c.toNat = 0x130
  · exact .inl hdotted
  · have hwide := wide_of_isWideUpper h
    rw [isWideUpper, lowercaseChar, if_neg (by omega), if_neg hdotted] at h
    rw [lowercaseChar, if_neg (by omega), if_neg hdotted]
    cases hfind : caseRuns.find? (·.covers c.toNat) with
    | none =>
      rw [hfind, bne_self_eq_false, Bool.and_false] at h
      cases h
    | some r =>
      have hcovers : r.covers c.toNat = true := by
        have hfound := List.find?_some hfind
        exact hfound
      have hrun := List.all_eq_true.1 caseRuns_clear r (List.mem_of_find?_eq_some hfind)
      obtain ⟨hwritten, hclear⟩ := Bool.and_eq_true_iff.1 hrun
      obtain ⟨hlow, hvalid⟩ := CaseRun.image_isValidChar hwritten hcovers
      have hd : (Char.ofNat (r.image c.toNat)).toNat = r.image c.toNat := toNat_ofNat hvalid
      refine .inr ⟨Char.ofNat (r.image c.toNat), rfl, isWideUpper_of_uncovered fun q hq => ?_, ?_⟩
      · rw [hd]
        exact CaseRun.not_covers_image hwritten (List.all_eq_true.1 hclear q hq) hcovers
      · rwa [hd]

/-! ### Characters between others -/

/-- What becomes of a character between others. -/
def caseImage (before : List Char) (c : Char) (rest : List Char) : List Char :=
  if c.toNat = 0x3a3 then
    if meetsCased before && !meetsCased rest then [Char.ofNat 0x3c2] else [Char.ofNat 0x3c3]
  else lowercaseChar c

theorem lowercaseAfter_cons (before : List Char) (c : Char) (rest : List Char) :
    lowercaseAfter before (c :: rest) =
      caseImage before c rest ++ lowercaseAfter (c :: before) rest := rfl

section Image

variable {before rest : List Char} {c : Char}

/-- Where ASCII letters are all that changes. -/
theorem caseImage_of_not (h : isWideUpper c = false) :
    caseImage before c rest = [asciiLower c] := by
  have hsigma : c.toNat ≠ 0x3a3 := by
    intro he
    have hc : c = Char.ofNat 0x3a3 := by rw [← he, Char.ofNat_toNat]
    rw [hc] at h
    revert h
    decide +kernel
  rw [caseImage, if_neg hsigma, lowercaseChar_of_not h]

/-- What becomes of a character is in lower case, and the lower case of its ASCII letter if
it is none beyond them. -/
theorem caseImage_spec (before : List Char) (c : Char) (rest : List Char) :
    caseImage before c rest ≠ [] ∧ ∀ d ∈ caseImage before c rest,
      isWideUpper d = false ∧ (d = asciiLower c ∨ 0x60 ≤ d.toNat) := by
  by_cases hupper : isWideUpper c = true
  · have hspecial : ∀ d ∈ [Char.ofNat 0x3c2, Char.ofNat 0x3c3, 'i', Char.ofNat 0x307],
        isWideUpper d = false ∧ 0x60 ≤ d.toNat := by
      simp only [List.mem_cons, List.not_mem_nil, or_false, forall_eq_or_imp, forall_eq]
      decide +kernel
    have himage : caseImage before c rest ≠ [] ∧ ∀ d ∈ caseImage before c rest,
        isWideUpper d = false ∧ 0x60 ≤ d.toNat := by
      unfold caseImage
      split_ifs with hsigma hfinal
      · exact ⟨List.cons_ne_nil _ _, fun d hd => hspecial d (by grind)⟩
      · exact ⟨List.cons_ne_nil _ _, fun d hd => hspecial d (by grind)⟩
      · rcases lowercaseChar_of_wide hupper with hdotted | ⟨d, himage, hd⟩
        · rw [lowercaseChar, if_neg (by omega), if_pos hdotted]
          exact ⟨List.cons_ne_nil _ _, fun d hd => hspecial d (by grind)⟩
        · rw [himage]
          exact ⟨List.cons_ne_nil _ _, List.forall_mem_singleton.2 hd⟩
    exact ⟨himage.1, fun d hd => (himage.2 d hd).imp_right .inr⟩
  · rw [Bool.not_eq_true] at hupper
    rw [caseImage_of_not hupper]
    refine ⟨List.cons_ne_nil _ _, List.forall_mem_singleton.2 ⟨?_, .inl rfl⟩⟩
    by_cases hc : 0x80 ≤ c.toNat
    · rwa [asciiLower_of_wide hc]
    · refine isWideUpper_of_ascii ?_
      rw [asciiLower_toNat]
      split_ifs <;> omega

/-- A character below the small letters that is no capital letter comes from itself alone. -/
theorem ne_of_mem_caseImage {d e : Char} (he : e.toNat < 0x60)
    (he' : e.toNat < 0x41 ∨ 0x5a < e.toNat) (hc : c ≠ e) (hd : d ∈ caseImage before c rest) :
    d ≠ e := by
  rcases ((caseImage_spec before c rest).2 d hd).2 with rfl | hlow
  · exact mt (asciiLower_eq_iff (.inl (by omega)) he').1 hc
  · rintro rfl
    omega

/-- Such a character is left of itself, and of nothing else. -/
theorem mem_caseImage_iff {e : Char} (he : e.toNat < 0x60) (he' : e.toNat < 0x41 ∨ 0x5a < e.toNat) :
    e ∈ caseImage before c rest ↔ e = c := by
  constructor
  · intro hmem
    by_contra hne
    exact ne_of_mem_caseImage he he' (Ne.symm hne) hmem rfl
  · rintro rfl
    rw [caseImage_of_not (isWideUpper_of_ascii (by omega)), List.mem_singleton]
    exact ((asciiLower_eq_iff (.inl (by omega)) he').2 rfl).symm

end Image

theorem mem_lowercaseAfter_iff {e : Char} (he : e.toNat < 0x60)
    (he' : e.toNat < 0x41 ∨ 0x5a < e.toNat) {s : List Char} :
    ∀ {before : List Char}, e ∈ lowercaseAfter before s ↔ e ∈ s := by
  induction s with
  | nil => exact Iff.rfl
  | cons c rest ih =>
    intro before
    rw [lowercaseAfter_cons, List.mem_append, mem_caseImage_iff he he', ih, List.mem_cons]

/-- A text has the same characters of this kind in lower case. -/
theorem mem_lowercase_iff {e : Char} (he : e.toNat < 0x60) (he' : e.toNat < 0x41 ∨ 0x5a < e.toNat)
    {s : List Char} : e ∈ lowercase s ↔ e ∈ s :=
  mem_lowercaseAfter_iff he he'

/-! ### Texts up to a null character -/

theorem toNat_bne_zero {c : Char} : (c.toNat != 0) = true ↔ c ≠ '\x00' := by
  rw [bne_iff_ne, ne_eq, ne_eq, ← Char.toNat_inj]
  rfl

/-- A null character is neither cased nor looked through. -/
theorem meetsCased_null (rest : List Char) : meetsCased ('\x00' :: rest) = false := by
  have hignored : caseIgnorableChars.contains '\x00' = false := by decide +kernel
  have hcased : casedChars.contains '\x00' = false := by decide +kernel
  rw [meetsCased, List.dropWhile_cons_of_neg (Bool.eq_false_iff.1 hignored)]
  exact hcased

theorem meetsCased_takeWhile (s : List Char) :
    meetsCased (s.takeWhile fun c => c.toNat != 0) = meetsCased s := by
  induction s with
  | nil => rfl
  | cons c rest ih =>
    by_cases hc : c = '\x00'
    · rw [hc, meetsCased_null]
      rfl
    · rw [List.takeWhile_cons, if_pos (toNat_bne_zero.2 hc)]
      by_cases hskipped : caseIgnorableChars.contains c = true
      · rw [meetsCased, meetsCased, List.dropWhile_cons_of_pos hskipped,
          List.dropWhile_cons_of_pos hskipped]
        exact ih
      · rw [meetsCased, meetsCased, List.dropWhile_cons_of_neg hskipped,
          List.dropWhile_cons_of_neg hskipped]

theorem lowercaseAfter_takeWhile (s : List Char) : ∀ before : List Char,
    lowercaseAfter before (s.takeWhile fun c => c.toNat != 0) =
      (lowercaseAfter before s).takeWhile fun c => c.toNat != 0 := by
  induction s with
  | nil => exact fun _ => rfl
  | cons c rest ih =>
    intro before
    by_cases hc : c = '\x00'
    · subst hc
      rfl
    · have himage : ∀ d ∈ caseImage before c rest, (d.toNat != 0) = true := fun d hd =>
        toNat_bne_zero.2 (ne_of_mem_caseImage (by decide) (by decide) hc hd)
      rw [List.takeWhile_cons, if_pos (toNat_bne_zero.2 hc), lowercaseAfter_cons,
        lowercaseAfter_cons, List.takeWhile_append_of_pos himage, ih, caseImage, caseImage,
        meetsCased_takeWhile]

/-- The lower case of a text up to a null character. -/
theorem lowercase_takeWhile (s : List Char) :
    lowercase (s.takeWhile fun c => c.toNat != 0) =
      (lowercase s).takeWhile fun c => c.toNat != 0 :=
  lowercaseAfter_takeWhile s []

/-! ### Counting -/

/-- A character other than the wildcards of like patterns. -/
def isPlain (c : Char) : Bool := c != '%' && c != '_'

/-- A character that stands for itself in a like pattern, in lower case beyond ASCII. -/
def isSettled (c : Char) : Bool := isPlain c && !isWideUpper c

theorem isSettled_asciiLower (c : Char) : isSettled (asciiLower c) = isSettled c := by
  by_cases hc : 0x80 ≤ c.toNat
  · rw [asciiLower_of_wide hc]
  · have hlower : (asciiLower c).toNat < 0x80 := by
      rw [asciiLower_toNat]
      split_ifs <;> omega
    have hrun : asciiLower c = '%' ↔ c = '%' := asciiLower_eq_iff (by decide) (by decide)
    have hone : asciiLower c = '_' ↔ c = '_' := asciiLower_eq_iff (by decide) (by decide)
    rw [isSettled, isSettled, isWideUpper_of_ascii hlower, isWideUpper_of_ascii (by omega),
      isPlain, isPlain, Bool.eq_iff_iff]
    simp [hrun, hone]

/-- Every character other than a wildcard leaves one that is settled. -/
theorem countP_caseImage (before : List Char) (c : Char) (rest : List Char) :
    (if isPlain c then 1 else 0) ≤ (caseImage before c rest).countP isSettled := by
  obtain ⟨hne, hspec⟩ := caseImage_spec before c rest
  split_ifs with hplain
  · obtain ⟨d, hd⟩ := List.exists_mem_of_ne_nil _ hne
    simp only [isPlain, Bool.and_eq_true, bne_iff_ne] at hplain
    have hrun : d ≠ '%' := ne_of_mem_caseImage (by decide) (by decide) hplain.1 hd
    have hone : d ≠ '_' := ne_of_mem_caseImage (by decide) (by decide) hplain.2 hd
    refine List.countP_pos_iff.2 ⟨d, hd, ?_⟩
    rw [isSettled, isPlain, bne_iff_ne.2 hrun, bne_iff_ne.2 hone, (hspec d hd).1]
    rfl
  · exact Nat.zero_le _

theorem countP_lowercaseAfter (s : List Char) : ∀ before : List Char,
    s.countP isPlain ≤ (lowercaseAfter before s).countP isSettled := by
  induction s with
  | nil => exact fun _ => Nat.le_refl _
  | cons c rest ih =>
    intro before
    rw [lowercaseAfter_cons, List.countP_append, List.countP_cons, Nat.add_comm]
    exact Nat.add_le_add (countP_caseImage before c rest) (ih (c :: before))

/-- **The lower case of ASCII letters settles less**, if a character beyond them has another
lower case. -/
theorem countP_asciiLower_lt {s : List Char} {c : Char} (hc : c ∈ s)
    (hupper : isWideUpper c = true) :
    (s.map asciiLower).countP isSettled < (lowercase s).countP isSettled := by
  have hplain : isPlain c = true := by
    have hwide := wide_of_isWideUpper hupper
    rw [isPlain, Bool.and_eq_true, bne_iff_ne, bne_iff_ne]
    constructor <;> rintro rfl <;> exact absurd hwide (by decide)
  have hsettled : (s.map asciiLower).countP isSettled =
      (s.filter fun d => !isWideUpper d).countP isPlain := by
    rw [List.countP_map, List.countP_filter]
    exact List.countP_congr fun d _ => by rw [Function.comp_apply, isSettled_asciiLower, isSettled]
  have hmissing : 0 < (s.filter fun d => !!isWideUpper d).countP isPlain :=
    List.countP_pos_iff.2 ⟨c, List.mem_filter.2 ⟨hc, by rw [hupper]; rfl⟩, hplain⟩
  have hsum := List.countP_eq_countP_filter_add s isPlain fun d => !isWideUpper d
  have himage : s.countP isPlain ≤ (lowercase s).countP isSettled := countP_lowercaseAfter s []
  omega

/-! ### Where they agree -/

theorem lowercaseAfter_of_not {s : List Char} (h : ∀ c ∈ s, isWideUpper c = false) :
    ∀ before : List Char, lowercaseAfter before s = s.map asciiLower := by
  induction s with
  | nil => exact fun _ => rfl
  | cons c rest ih =>
    intro before
    obtain ⟨hc, hrest⟩ := List.forall_mem_cons.1 h
    rw [lowercaseAfter_cons, caseImage_of_not hc, ih hrest]
    rfl

/-- **The two lower cases of a text agree** where no character beyond ASCII has another lower
case. -/
theorem lowercase_eq_map_iff {s : List Char} :
    lowercase s = s.map asciiLower ↔ ∀ c ∈ s, isWideUpper c = false := by
  constructor
  · intro h c hc
    rw [Bool.eq_false_iff]
    intro hupper
    have hless := countP_asciiLower_lt hc hupper
    rw [h] at hless
    exact absurd hless (Nat.lt_irrefl _)
  · exact fun h => lowercaseAfter_of_not h []

end ResourceTable
