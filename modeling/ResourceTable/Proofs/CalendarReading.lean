import ResourceTable.Calendar.Reader
import ResourceTable.Proofs.PaddedDigits

/-!
# Reading written dates and times

What is written of a day or a moment is read back: of a day all of it, and of a moment what
a time column keeps, which is UTC to the microsecond.  Numbers are written in digits of
their width, so that a reader knows where each of them ends.

## Main results

* `readDigits?_paddedChars`, `readNumber?_paddedChars` — a written number is read.
* `Date.read?_text` — **so is a written day**, whatever its year.
* `Timestamp.read?_stored` — **so is a stored moment**, if its year has four digits.
-/

namespace ResourceTable

/-! ### Numbers -/

section Numbers

variable {width n : Nat}

theorem isDigit_of_mem_paddedChars {c : Char} (h : c ∈ paddedChars width n) :
    c.isDigit = true := by
  rcases List.mem_append.1 h with h | h
  · obtain rfl := List.eq_of_mem_replicate h
    rfl
  · exact Nat.isDigit_of_mem_toDigits (by decide) (by decide) h

theorem paddedChars_ne_nil (width n : Nat) : paddedChars width n ≠ [] :=
  List.append_ne_nil_of_right_ne_nil _ Nat.toDigits_ne_nil

/-- The digits of a number are read. -/
theorem readDigits?_paddedChars (width n : Nat) : readDigits? (paddedChars width n) = some n := by
  have hvalue : (paddedChars width n).foldl (fun n c => n * 10 + (c.toNat - '0'.toNat)) 0 =
      Nat.ofDigitChars 10 (paddedChars width n) 0 := by
    rw [Nat.ofDigitChars_eq_foldl]
    congr
    funext value c
    rw [Nat.mul_comm]
  rw [readDigits?, if_pos (List.all_eq_true.2 fun c => isDigit_of_mem_paddedChars), hvalue,
    paddedChars, Nat.ofDigitChars_append, Nat.ofDigitChars_replicate_zero, Nat.mul_zero,
    Nat.ofDigitChars_ten_toDigits]

theorem takeWhile_paddedChars (width n : Nat) {rest : List Char}
    (h : ∀ c ∈ rest.head?, c.isDigit = false) :
    (paddedChars width n ++ rest).takeWhile Char.isDigit = paddedChars width n := by
  rw [List.takeWhile_append_of_pos fun c => isDigit_of_mem_paddedChars]
  cases rest with
  | nil => simp
  | cons c rest =>
    rw [List.takeWhile_cons_of_neg (by rw [h c rfl]; exact Bool.false_ne_true), List.append_nil]

theorem not_blank_of_isDigit {c : Char} (h : c.isDigit = true) : blankChars.contains c = false := by
  have hdigit : 48 ≤ c.toNat ∧ c.toNat ≤ 57 := by
    simpa [Char.isDigit, Char.le_def, UInt32.le_iff_toNat_le] using h
  rw [← Bool.not_eq_true, CharClass.contains_iff]
  simp only [blankChars, List.mem_cons, List.not_mem_nil, or_false]
  rintro ⟨range, hrange, hlow, hhigh⟩
  rcases hrange with rfl | rfl | rfl | rfl | rfl | rfl | rfl | rfl | rfl | rfl <;>
    simp only at hlow hhigh <;> omega

theorem skipBlanks_paddedChars (rest : List Char) :
    skipBlanks (paddedChars width n ++ rest) = paddedChars width n ++ rest := by
  obtain ⟨c, cs, hcons⟩ := List.exists_cons_of_ne_nil (paddedChars_ne_nil width n)
  have hdigit : c.isDigit = true :=
    isDigit_of_mem_paddedChars (show c ∈ paddedChars width n from hcons ▸ List.mem_cons_self)
  rw [hcons, List.cons_append, skipBlanks,
    List.dropWhile_cons_of_neg (by rw [not_blank_of_isDigit hdigit]; exact Bool.false_ne_true)]

theorem length_paddedChars (width : Nat) (hwidth : 0 < width) (h : n < 10 ^ width) :
    (paddedChars width n).length = width := length_paddedDigits (by decide) hwidth h

/-- A number of the width is read, and nothing of what follows it. -/
theorem readNumber?_paddedChars (width : Nat) (hwidth : 0 < width) (h : n < 10 ^ width)
    (rest : List Char) :
    readNumber? width (paddedChars width n ++ rest) = some (n, rest) := by
  have hlength := length_paddedChars width hwidth h
  have htake : (paddedChars width n ++ rest).take width = paddedChars width n := by
    rw [List.take_append_of_le_length hlength.ge, List.take_of_length_le hlength.le]
  have hdigits := takeWhile_paddedChars width n fun c (hc : c ∈ [].head?) => nomatch hc
  rw [List.append_nil] at hdigits
  unfold readNumber?
  dsimp only
  rw [skipBlanks_paddedChars, htake, hdigits,
    if_neg (by rw [List.isEmpty_iff]; exact paddedChars_ne_nil width n),
    readDigits?_paddedChars, Option.map_some, List.drop_left]

end Numbers

/-! ### Days -/

namespace Date

/-- Digits behind a sign are read as far as they go. -/
theorem takeWhile_dashed (n : Nat) (rest : List Char) :
    (paddedChars 4 n ++ '-' :: rest).takeWhile Char.isDigit = paddedChars 4 n :=
  takeWhile_paddedChars 4 n fun c hc => by
    obtain rfl := Option.some.inj hc
    rfl

/-- A written year is read, up to the dash behind it. -/
theorem readYear?_yearChars (year : Int) (rest : List Char) :
    readYear? (yearChars year ++ '-' :: rest) = some (year, '-' :: rest) := by
  unfold yearChars
  split
  · next h =>
    obtain ⟨n, rfl⟩ := Int.eq_ofNat_of_zero_le h.1
    have hread := readNumber?_paddedChars 4 (n := n) (by decide) (by omega) ('-' :: rest)
    obtain ⟨c, cs, hcons⟩ := List.exists_cons_of_ne_nil (paddedChars_ne_nil 4 n)
    have hdigit : c.isDigit = true :=
      isDigit_of_mem_paddedChars (show c ∈ paddedChars 4 n from hcons ▸ List.mem_cons_self)
    unfold readYear?
    rw [Int.toNat_natCast, skipBlanks_paddedChars]
    dsimp only
    -- The first character is a digit and no sign.
    split
    · next hplus =>
      rw [hcons] at hplus
      obtain rfl := (List.cons.inj hplus).1
      cases hdigit
    · next hminus =>
      rw [hcons] at hminus
      obtain rfl := (List.cons.inj hminus).1
      cases hdigit
    · rw [hread]
      rfl
  · next h =>
    have hne : (paddedChars 4 year.natAbs).isEmpty = false :=
      List.isEmpty_eq_false_iff.2 (paddedChars_ne_nil 4 _)
    unfold readYear?
    by_cases hneg : year < 0
    · have hblank (cs : List Char) : skipBlanks ('-' :: cs) = '-' :: cs := rfl
      have hyear : -(year.natAbs : Int) = year := by omega
      rw [if_pos hneg, List.cons_append, hblank]
      simp only [takeWhile_dashed, hne, Bool.false_eq_true, if_false, readDigits?_paddedChars,
        List.drop_left, if_true]
      exact congrArg (fun year => some (year, '-' :: rest)) hyear
    · have hblank (cs : List Char) : skipBlanks ('+' :: cs) = '+' :: cs := rfl
      have hyear : (year.natAbs : Int) = year := by omega
      rw [if_neg hneg, List.cons_append, hblank]
      simp only [takeWhile_dashed, hne, Bool.false_eq_true, if_false, readDigits?_paddedChars,
        List.drop_left]
      exact congrArg (fun year => some (year, '-' :: rest)) hyear

/-- A written day is read, and nothing of what follows it. -/
theorem readFront?_chars {d : Date} (h : isYear d.year = true) (rest : List Char) :
    readFront? (d.chars ++ rest) = some (d, rest) := by
  have hvalid := d.valid
  have hbounds := daysInMonth_bounds d.year d.month
  have hmonth := readNumber?_paddedChars 2 (n := d.month) (by decide) (by omega)
    ('-' :: (paddedChars 2 d.day ++ rest))
  have hday := readNumber?_paddedChars 2 (n := d.day) (by decide) (by omega) rest
  have hnumbers : ofNumbers? d.year d.month d.day = some d := dif_pos d.valid
  have hchars : d.chars ++ rest = yearChars d.year ++
      '-' :: (paddedChars 2 d.month ++ '-' :: (paddedChars 2 d.day ++ rest)) := by
    rw [chars]
    simp only [List.append_assoc, List.cons_append]
  rw [readFront?, hchars, readYear?_yearChars]
  simp only [Option.bind_eq_bind, Option.bind_some, expect?, if_true, hmonth, hday, h, hnumbers]
  rfl

/-- **A written day is read.** -/
theorem read?_text {d : Date} (h : isYear d.year = true) : read? d.text.toList = some d := by
  have hfront := readFront?_chars h []
  rw [List.append_nil] at hfront
  rw [read?, text, String.toList_ofList, hfront]
  rfl

end Date

/-! ### Moments -/

/-- A number of two digits is read off them. -/
theorem exists_two_digits {n : Nat} (h : n < 100) :
    ∃ a b, paddedChars 2 n = [a, b] ∧ readDigits? [a, b] = some n := by
  obtain ⟨a, b, hab⟩ := List.length_eq_two.1 (length_paddedChars 2 (by decide) h)
  exact ⟨a, b, hab, hab ▸ readDigits?_paddedChars 2 n⟩

/-- So is a number of four digits. -/
theorem exists_four_digits {n : Nat} (h : n < 10000) :
    ∃ a b c d, paddedChars 4 n = [a, b, c, d] ∧ readDigits? [a, b, c, d] = some n := by
  have hlength := length_paddedChars 4 (by decide) h
  have hread := readDigits?_paddedChars 4 n
  generalize paddedChars 4 n = digits at hlength hread
  match digits, hlength, hread with
  | [a, b, c, d], _, hread => exact ⟨a, b, c, d, rfl, hread⟩

/-- The fraction of a second is read to the microsecond. -/
theorem readFraction?_micros {nano : Nat} (h : nano < 1000000000) {rest : List Char}
    (hrest : ∀ c ∈ rest.head?, c.isDigit = false) :
    readFraction? (Fraction.micros.chars nano ++ rest) = some (nano / 1000 * 1000, rest) := by
  have hlength := length_paddedChars 6 (n := nano / 1000) (by decide) (by omega)
  have htake := takeWhile_paddedChars 6 (nano / 1000) hrest
  have hdrop : (paddedChars 6 (nano / 1000) ++ rest).dropWhile Char.isDigit = rest := by
    have hsplit := List.takeWhile_append_dropWhile (p := Char.isDigit)
      (l := paddedChars 6 (nano / 1000) ++ rest)
    rw [htake] at hsplit
    exact List.append_cancel_left hsplit
  have hnanos : readNanos? (paddedChars 6 (nano / 1000)) = some (nano / 1000 * 1000) := by
    rw [readNanos?, List.take_of_length_le (by omega), readDigits?_paddedChars, hlength]
    rfl
  have hne : (paddedChars 6 (nano / 1000)).isEmpty = false :=
    List.isEmpty_eq_false_iff.2 (paddedChars_ne_nil 6 _)
  simp only [Fraction.chars, List.cons_append, readFraction?, htake, hne, Bool.false_eq_true,
    if_false, hnanos, hdrop, Option.map_some]

namespace Timestamp

/-- A clock without an offset shows UTC. -/
theorem toTimestamp_zero (t : LocalDateTime) : ZonedDateTime.toTimestamp ⟨t, 0⟩ = ofLocal t := by
  obtain ⟨date, hour, minute, second, nano, hvalid⟩ := t
  have hhour : ((hour * 60 + minute : Int) - 0) % 1440 = (hour * 60 + minute : Nat) := by omega
  have hlow : ¬ (hour * 60 + minute : Int) - 0 < 0 := by omega
  have hhigh : (hour * 60 + minute : Int) - 0 < 1440 := by omega
  simp only [ZonedDateTime.toTimestamp, ofLocal, hlow, hhigh, if_true, if_false, hhour,
    Int.toNat_natCast, mk.injEq, TimeOfDay.mk.injEq, true_and, and_true]
  omega

/-- **A stored moment is read**, to the microsecond. -/
theorem read?_stored {t : Timestamp} (h : 0 ≤ t.date.year ∧ t.date.year ≤ 9999) :
    read? t.stored.toList = some t.truncateMicros := by
  obtain ⟨d, time⟩ := t
  obtain ⟨n, hn⟩ := Int.eq_ofNat_of_zero_le h.1
  have hbounds := daysInMonth_bounds d.year d.month
  have hday := d.valid
  have htime := time.valid
  obtain ⟨y, y', u, v, hyear, hyears⟩ := exists_four_digits (n := n) (by omega)
  obtain ⟨m, m', hmonth, hmonths⟩ := exists_two_digits (n := d.month) (by omega)
  obtain ⟨e, e', hdate, hdays⟩ := exists_two_digits (n := d.day) (by omega)
  obtain ⟨g, g', hhour, hhours⟩ := exists_two_digits (n := time.hour) (by omega)
  obtain ⟨i, i', hminute, hminutes⟩ := exists_two_digits (n := time.minute) (by omega)
  obtain ⟨s, s', hsecond, hseconds⟩ := exists_two_digits (n := time.second) (by omega)
  have hyearChars : Date.yearChars d.year = [y, y', u, v] := by
    rw [Date.yearChars, if_pos h, hn, Int.toNat_natCast, hyear]
  have hchars : chars .micros ⟨d, time⟩ =
      y :: y' :: u :: v :: '-' :: m :: m' :: '-' :: e :: e' :: 'T' :: g :: g' :: ':' ::
        i :: i' :: ':' :: s :: s' :: (Fraction.micros.chars time.nano ++ ['Z']) := by
    simp only [chars, Date.chars, TimeOfDay.chars, hyearChars, hmonth, hdate, hhour, hminute,
      hsecond, List.cons_append, List.nil_append]
  have hfraction := readFraction?_micros htime.2.2.2 fun c (hc : c ∈ ['Z'].head?) => by
    obtain rfl := Option.some.inj hc
    rfl
  have hofDate : Date.ofNumbers? n d.month d.day = some d := hn ▸ dif_pos d.valid
  have hofTime : TimeOfDay.ofNumbers? time.hour time.minute time.second
      (time.nano / 1000 * 1000) = some time.truncateMicros := dif_pos time.truncateMicros.valid
  have hinternet : readInternet (chars .micros ⟨d, time⟩) =
      some ⟨⟨d, time.truncateMicros⟩, 0⟩ := by
    rw [hchars]
    simp only [readInternet, hyears, hmonths, hdays, hhours, hminutes, hseconds, hfraction,
      Option.bind_eq_bind, Option.bind_some, true_or, if_true, readOffset?, hofDate, hofTime]
    rfl
  rw [read?, stored, text, String.toList_ofList, hinternet]
  exact congrArg some (toTimestamp_zero _)

end Timestamp

end ResourceTable
