import ResourceTable.Proofs.PaddedDigits

/-!
# The order of stored timestamps

A stored timestamp is a text of fixed places: a year, and then months, days, hours,
minutes, seconds and microseconds, each in its number of digits.  Digits of one width are
in the order of the numbers, and what comes first decides, so that the texts are in the
order of the instants as long as their years have four digits or are just before year
zero.  A year of five digits carries a sign, which puts it before all of them.

## Main results

* `Timestamp.compareChars_afterYear` — texts of the same year compare by the parts of the
  moments.
* `Timestamp.compare_stored` — **stored timestamps compare as instants to the microsecond.**
* `Timestamp.compare_stored_of_late` — a year of five digits comes before any other.
-/

namespace ResourceTable

/-- Of two texts that begin with numbers of one width the numbers decide. -/
theorem compareChars_paddedChars_append {width m n : Nat} (hwidth : 0 < width)
    (hm : m < 10 ^ width) (hn : n < 10 ^ width) (as bs : List Char) :
    compareChars (paddedChars width m ++ as) (paddedChars width n ++ bs) =
      (cmp m n).then (compareChars as bs) := by
  rw [paddedChars_eq, paddedChars_eq, compareChars_append,
    compareChars_paddedDigits (by decide) (by decide) hwidth hm hn]
  rw [length_paddedDigits (by decide) hwidth hm, length_paddedDigits (by decide) hwidth hn]

/-! ### Times and dates -/

/-- Times to the microsecond compare by their parts. -/
theorem TimeOfDay.compareChars_micros (t u : TimeOfDay) (as : List Char) :
    compareChars (t.chars .micros ++ as) (u.chars .micros ++ as) =
      (cmp t.hour u.hour).then ((cmp t.minute u.minute).then ((cmp t.second u.second).then
        (cmp (t.nano / 1000) (u.nano / 1000)))) := by
  obtain ⟨hhour, hminute, hsecond, hnano⟩ := t.valid
  obtain ⟨hhour', hminute', hsecond', hnano'⟩ := u.valid
  have hchars (w : TimeOfDay) : w.chars .micros ++ as = paddedChars 2 w.hour ++ ':' ::
      (paddedChars 2 w.minute ++ ':' :: (paddedChars 2 w.second ++ '.' ::
        (paddedChars 6 (w.nano / 1000) ++ as))) := by
    simp only [chars, Fraction.chars, List.append_assoc, List.cons_append]
  rw [hchars, hchars]
  rw [compareChars_paddedChars_append (by decide) (by omega) (by omega), compareChars_cons_self,
    compareChars_paddedChars_append (by decide) (by omega) (by omega), compareChars_cons_self,
    compareChars_paddedChars_append (by decide) (by omega) (by omega), compareChars_cons_self,
    compareChars_paddedChars_append (by decide) (by omega) (by omega), compareChars_self,
    Ordering.then_eq]

/-- What follows the year of a stored timestamp. -/
def Timestamp.charsAfterYear (t : Timestamp) : List Char :=
  '-' :: (paddedChars 2 t.date.month ++ '-' :: (paddedChars 2 t.date.day ++
    'T' :: (t.time.chars .micros ++ ['Z'])))

theorem Timestamp.toList_stored (t : Timestamp) :
    t.stored.toList = Date.yearChars t.date.year ++ t.charsAfterYear := by
  rw [stored, text, String.toList_ofList, chars, Date.chars, charsAfterYear]
  simp only [List.append_assoc, List.cons_append]

theorem Timestamp.compareChars_afterYear (t u : Timestamp) :
    compareChars t.charsAfterYear u.charsAfterYear =
      (cmp t.date.month u.date.month).then ((cmp t.date.day u.date.day).then
        ((cmp t.time.hour u.time.hour).then ((cmp t.time.minute u.time.minute).then
          ((cmp t.time.second u.time.second).then
            (cmp (t.time.nano / 1000) (u.time.nano / 1000)))))) := by
  have hdays := daysInMonth_bounds t.date.year t.date.month
  have hdays' := daysInMonth_bounds u.date.year u.date.month
  have hvalid := t.date.valid
  have hvalid' := u.date.valid
  rw [charsAfterYear, charsAfterYear, compareChars_cons_self,
    compareChars_paddedChars_append (by decide) (by omega) (by omega), compareChars_cons_self,
    compareChars_paddedChars_append (by decide) (by omega) (by omega), compareChars_cons_self,
    TimeOfDay.compareChars_micros]

/-- Instants to the microsecond compare by the parts of the moments. -/
theorem Timestamp.cmp_micros (t u : Timestamp) :
    cmp t.instant.micros u.instant.micros =
      (cmp t.date.dayNumber u.date.dayNumber).then
        ((cmp t.time.hour u.time.hour).then ((cmp t.time.minute u.time.minute).then
          ((cmp t.time.second u.time.second).then
            (cmp (t.time.nano / 1000) (u.time.nano / 1000))))) := by
  have hday := t.time.minuteOfDay_lt
  have hday' := u.time.minuteOfDay_lt
  have hvalid := t.time.valid
  have hvalid' := u.time.valid
  -- The remainders are within their bounds, so at each level the larger unit decides first.
  have hminutes : cmp (t.date.dayNumber * 1440 + t.time.minuteOfDay)
      (u.date.dayNumber * 1440 + u.time.minuteOfDay) =
        (cmp t.date.dayNumber u.date.dayNumber).then
          (cmp t.time.minuteOfDay u.time.minuteOfDay) := by
    refine cmp_then (fun h => by omega) (fun h => by omega) fun h => ?_
    exact cmp_eq_of_imp (fun h => by omega) (fun h => by omega) fun h => by omega
  have hhours : cmp t.time.minuteOfDay u.time.minuteOfDay =
      (cmp t.time.hour u.time.hour).then (cmp t.time.minute u.time.minute) := by
    unfold TimeOfDay.minuteOfDay
    refine cmp_then (fun h => by omega) (fun h => by omega) fun h => ?_
    exact cmp_eq_of_imp (fun h => by omega) (fun h => by omega) fun h => by omega
  have hseconds : cmp (t.time.nanosOfMinute / 1000) (u.time.nanosOfMinute / 1000) =
      (cmp t.time.second u.time.second).then (cmp (t.time.nano / 1000) (u.time.nano / 1000)) := by
    unfold TimeOfDay.nanosOfMinute
    refine cmp_then (fun h => by omega) (fun h => by omega) fun h => ?_
    exact cmp_eq_of_imp (fun h => by omega) (fun h => by omega) fun h => by omega
  rw [Instant.cmp_eq]
  show (cmp (t.date.dayNumber * 1440 + t.time.minuteOfDay)
      (u.date.dayNumber * 1440 + u.time.minuteOfDay)).then
        (cmp (t.time.nanosOfMinute / 1000) (u.time.nanosOfMinute / 1000)) = _
  rw [hminutes, hhours, hseconds, Ordering.then_assoc, Ordering.then_assoc]

/-- A moment of an earlier year is an earlier instant. -/
theorem Timestamp.micros_lt_of_year_lt {t u : Timestamp} (h : t.date.year < u.date.year) :
    t.instant.micros < u.instant.micros := by
  rw [← cmp_eq_lt_iff, cmp_micros, Date.cmp_dayNumber, (cmp_eq_lt_iff _ _).2 h]
  rfl

/-! ### Years -/

theorem Date.yearChars_of_mem {year : Int} (h : 0 ≤ year ∧ year ≤ 9999) :
    yearChars year = paddedChars 4 year.toNat := if_pos h

/-- A sign comes before all digits. -/
theorem compareChars_sign {sign : Char} (hsign : sign = '-' ∨ sign = '+') {width n : Nat}
    (hwidth : 0 < width) (hn : n < 10 ^ width) (as bs : List Char) :
    compareChars (sign :: as) (paddedChars width n ++ bs) = .lt := by
  obtain ⟨d, hd, rest, hrest⟩ := paddedDigits_eq_cons (by decide) hwidth hn
  have hbefore : ∀ d < 10, cmp '-' (Nat.digitChar d) = .lt ∧ cmp '+' (Nat.digitChar d) = .lt := by
    decide
  rw [paddedChars_eq, hrest, List.cons_append, compareChars_cons]
  rcases hsign with rfl | rfl
  · rw [(hbefore d hd).1]
    rfl
  · rw [(hbefore d hd).2]
    rfl

/-- Years of four digits, and the one before year zero, are in the order of their texts. -/
theorem Date.compareChars_year {year year' : Int} (h : -1 ≤ year ∧ year ≤ 9999)
    (h' : -1 ≤ year' ∧ year' ≤ 9999) (as bs : List Char) :
    compareChars (yearChars year ++ as) (yearChars year' ++ bs) =
      (cmp year year').then (compareChars as bs) := by
  have hbefore {year : Int} (as bs : List Char) (h : 0 ≤ year ∧ year ≤ 9999) :
      compareChars (yearChars (-1) ++ as) (yearChars year ++ bs) = .lt := by
    rw [yearChars_of_mem h]
    exact compareChars_sign (.inl rfl) (by decide) (by omega) _ _
  rcases eq_or_lt_of_le h.1 with rfl | hyear <;> rcases eq_or_lt_of_le h'.1 with rfl | hyear'
  · rw [compareChars_append _ _ rfl, compareChars_self, cmp_self_eq_eq]
  · rw [hbefore as bs ⟨by omega, h'.2⟩, (cmp_eq_lt_iff _ _).2 hyear']
    rfl
  · rw [compareChars_swap, hbefore bs as ⟨by omega, h.2⟩, (cmp_eq_gt_iff _ _).2 hyear]
    rfl
  · rw [yearChars_of_mem ⟨by omega, h.2⟩, yearChars_of_mem ⟨by omega, h'.2⟩,
      compareChars_paddedChars_append (by decide) (by omega) (by omega)]
    congr 1
    exact cmp_eq_of_imp (fun h => by omega) (fun h => by omega) fun h => by omega

/-- The year of five digits comes before the others. -/
theorem Date.compareChars_lateYear {year : Int} (h : -1 ≤ year ∧ year ≤ 9999) (as bs : List Char) :
    compareChars (yearChars 10000 ++ as) (yearChars year ++ bs) = .lt := by
  rcases eq_or_lt_of_le h.1 with rfl | hyear
  · rfl
  · rw [yearChars_of_mem ⟨by omega, h.2⟩]
    exact compareChars_sign (.inr rfl) (by decide) (by omega) _ _

/-! ### Stored timestamps -/

namespace Timestamp

/-- **Stored timestamps compare as instants to the microsecond**, if their years have four
digits or are the one before year zero. -/
theorem compare_stored {t u : Timestamp} (ht : -1 ≤ t.date.year ∧ t.date.year ≤ 9999)
    (hu : -1 ≤ u.date.year ∧ u.date.year ≤ 9999) :
    compare t.stored u.stored = cmp t.instant.micros u.instant.micros := by
  rw [compare_text, toList_stored, toList_stored, Date.compareChars_year ht hu,
    compareChars_afterYear, cmp_micros, Date.cmp_dayNumber, Ordering.then_assoc,
    Ordering.then_assoc]

/-- So they do if their years are the same. -/
theorem compare_stored_of_year_eq {t u : Timestamp} (h : t.date.year = u.date.year) :
    compare t.stored u.stored = cmp t.instant.micros u.instant.micros := by
  rw [compare_text, toList_stored, toList_stored, h, compareChars_append _ _ rfl,
    compareChars_self, compareChars_afterYear, cmp_micros, Date.cmp_dayNumber, h, cmp_self_eq_eq,
    Ordering.then_assoc, Ordering.then_assoc]

/-- A moment of the year of five digits is stored before all others. -/
theorem compare_stored_of_late {t u : Timestamp} (ht : t.date.year = 10000)
    (hu : -1 ≤ u.date.year ∧ u.date.year ≤ 9999) : compare t.stored u.stored = .lt := by
  rw [compare_text, toList_stored, toList_stored, ht]
  exact Date.compareChars_lateYear hu _ _

end Timestamp

end ResourceTable
