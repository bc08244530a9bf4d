import Mathlib.Data.Prod.Lex
import Mathlib.Order.Compare
import ResourceTable.Calendar.Reader

/-!
# Instants

Days are counted from the first day of year one, and minutes from its start, so that a
moment is a point on one line whatever its clock shows.  A leap second lies in its minute
after the others.  The offset of a moment moves the point, and the moment in UTC is the
same point.

## Main definitions

* `Date.dayNumber`: the number of a day.
* `Timestamp.instant`, `ZonedDateTime.instant`: the point that a moment is.
* `Instant.micros`: the point to the microsecond.

## Main results

* `dayNumber_next`, `dayNumber_previous` — the neighbouring days have the next numbers.
* `cmp_dayNumber` — days are numbered in the order of year, month and day.
* `instant_toTimestamp` — **the moment in UTC is the same instant.**
* `Timestamp.instant_injective` — different moments in UTC are different instants.
-/

namespace ResourceTable

/-! ### Comparisons -/

/-- A comparison that is decided by another one, unless that finds no difference. -/
theorem cmp_then {α β : Type} [LinearOrder α] [LinearOrder β] {a b : α} {x y : β} {o : Ordering}
    (hlt : x < y → a < b) (hgt : y < x → b < a) (heq : x = y → cmp a b = o) :
    cmp a b = (cmp x y).then o := by
  rcases lt_trichotomy x y with h | h | h
  · rw [(cmp_eq_lt_iff x y).2 h, (cmp_eq_lt_iff a b).2 (hlt h)]
    rfl
  · rw [(cmp_eq_eq_iff x y).2 h, heq h]
    rfl
  · rw [(cmp_eq_gt_iff x y).2 h, (cmp_eq_gt_iff a b).2 (hgt h)]
    rfl

/-- A comparison that finds what another one finds. -/
theorem cmp_eq_of_imp {α β : Type} [LinearOrder α] [LinearOrder β] {a b : α} {x y : β}
    (hlt : x < y → a < b) (hgt : y < x → b < a) (heq : x = y → a = b) : cmp a b = cmp x y :=
  (cmp_then hlt hgt fun h => (cmp_eq_eq_iff a b).2 (heq h)).trans Ordering.then_eq

/-! ### The number of a day -/

/-- The days of the years from year one on that come before the year. -/
def daysBeforeYear (year : Int) : Int :=
  365 * (year - 1) + (year - 1) / 4 - (year - 1) / 100 + (year - 1) / 400

/-- The days of the year that come before the month. -/
def daysBeforeMonth (year : Int) : Nat → Nat
  | 0 => 0
  | 1 => 0
  | month + 2 => daysBeforeMonth year (month + 1) + daysInMonth year (month + 1)

/-- The days of the year. -/
def daysInYear (year : Int) : Nat := daysBeforeMonth year 13

theorem daysBeforeMonth_succ (year : Int) {month : Nat} (h : 1 ≤ month) :
    daysBeforeMonth year (month + 1) = daysBeforeMonth year month + daysInMonth year month := by
  cases month with
  | zero => omega
  | succ m => rfl

theorem daysInYear_eq (year : Int) : daysInYear year = if isLeapYear year then 366 else 365 := by
  simp only [daysInYear, daysBeforeMonth, daysInMonth]
  cases isLeapYear year <;> rfl

theorem daysBeforeYear_succ (year : Int) :
    daysBeforeYear (year + 1) = daysBeforeYear year + daysInYear year := by
  rw [daysInYear_eq]
  unfold daysBeforeYear isLeapYear
  split <;> rename_i h <;> simp at h <;> omega

/-- The days before the months increase. -/
theorem monotone_daysBeforeMonth (year : Int) : Monotone (daysBeforeMonth year) := by
  refine monotone_nat_of_le_succ fun month => ?_
  cases month with
  | zero => exact Nat.le_refl _
  | succ m => exact Nat.le_add_right _ _

/-- The days before the years increase. -/
theorem daysBeforeYear_le {year later : Int} (h : year ≤ later) :
    daysBeforeYear year ≤ daysBeforeYear later := by
  have hmonotone : Monotone daysBeforeYear := monotone_int_of_le_succ fun year => by
    rw [daysBeforeYear_succ]
    omega
  exact hmonotone h

namespace Date

/-- The day of the year, from zero. -/
def dayOfYear (d : Date) : Nat := daysBeforeMonth d.year d.month + (d.day - 1)

/-- The number of a day, from the first day of year one. -/
def dayNumber (d : Date) : Int := daysBeforeYear d.year + d.dayOfYear

/-- A day comes before the next month. -/
theorem dayOfYear_lt_month (d : Date) : d.dayOfYear < daysBeforeMonth d.year (d.month + 1) := by
  have hvalid := d.valid
  rw [daysBeforeMonth_succ d.year hvalid.1, dayOfYear]
  omega

/-- A day comes before the next year. -/
theorem dayOfYear_lt_year (d : Date) : d.dayOfYear < daysInYear d.year := by
  have hmonth : d.month + 1 ≤ 13 := by have := d.valid; omega
  exact Nat.lt_of_lt_of_le d.dayOfYear_lt_month (monotone_daysBeforeMonth d.year hmonth)

/-- The day after has the next number. -/
theorem dayNumber_next (d : Date) : d.next.dayNumber = d.dayNumber + 1 := by
  have hvalid := d.valid
  have hmonth := daysBeforeMonth_succ d.year hvalid.1
  unfold next
  split
  · simp only [dayNumber, dayOfYear]
    omega
  · split
    · simp only [dayNumber, dayOfYear, hmonth]
      omega
    · have hlast : d.month = 12 := by omega
      have hyear := daysBeforeYear_succ d.year
      have hdays :
          daysInYear d.year = daysBeforeMonth d.year d.month + daysInMonth d.year d.month := by
        rw [← hmonth, hlast]
        rfl
      simp only [dayNumber, dayOfYear, hyear, hdays, daysBeforeMonth]
      omega

/-- The day before has the number before. -/
theorem dayNumber_previous (d : Date) : d.previous.dayNumber = d.dayNumber - 1 := by
  have hvalid := d.valid
  unfold previous
  split
  · simp only [dayNumber, dayOfYear]
    omega
  · split
    · next hday hmonth =>
      obtain ⟨m, hm⟩ : ∃ m, d.month = m + 2 := ⟨d.month - 2, by omega⟩
      have hbounds := daysInMonth_bounds d.year (m + 1)
      simp only [dayNumber, dayOfYear, hm, daysBeforeMonth, Nat.reduceSubDiff]
      omega
    · have hfirst : d.month = 1 := by omega
      have hyear := daysBeforeYear_succ (d.year - 1)
      have hdays : daysInYear (d.year - 1) = daysBeforeMonth (d.year - 1) 12 + 31 := rfl
      rw [Int.sub_add_cancel, hdays] at hyear
      simp only [dayNumber, dayOfYear, hfirst, hyear, daysBeforeMonth]
      omega

/-- A day of an earlier year has a smaller number. -/
theorem dayNumber_lt_of_year_lt {d e : Date} (h : d.year < e.year) :
    d.dayNumber < e.dayNumber := by
  have hyears := daysBeforeYear_le (Int.add_one_le_iff.2 h)
  have hday := d.dayOfYear_lt_year
  rw [daysBeforeYear_succ] at hyears
  simp only [dayNumber]
  omega

/-- A day of an earlier month of the same year has a smaller number. -/
theorem dayNumber_lt_of_month_lt {d e : Date} (hyear : d.year = e.year) (h : d.month < e.month) :
    d.dayNumber < e.dayNumber := by
  have hmonths : daysBeforeMonth d.year (d.month + 1) ≤ daysBeforeMonth d.year e.month :=
    monotone_daysBeforeMonth d.year h
  have hday := d.dayOfYear_lt_month
  have hlater : daysBeforeMonth d.year e.month ≤ e.dayOfYear := by
    rw [hyear, dayOfYear]
    exact Nat.le_add_right _ _
  simp only [dayNumber, hyear] at hmonths hday hlater ⊢
  omega

/-- An earlier day of the same month has a smaller number. -/
theorem dayNumber_lt_of_day_lt {d e : Date} (hyear : d.year = e.year) (hmonth : d.month = e.month)
    (h : d.day < e.day) : d.dayNumber < e.dayNumber := by
  have hvalid := d.valid
  simp only [dayNumber, dayOfYear, hyear, hmonth]
  omega

/-- **Days are numbered in the order of year, month and day.** -/
theorem cmp_dayNumber (d e : Date) :
    cmp d.dayNumber e.dayNumber =
      (cmp d.year e.year).then ((cmp d.month e.month).then (cmp d.day e.day)) := by
  refine cmp_then dayNumber_lt_of_year_lt dayNumber_lt_of_year_lt fun hyear => ?_
  refine cmp_then (dayNumber_lt_of_month_lt hyear) (dayNumber_lt_of_month_lt hyear.symm)
    fun hmonth => ?_
  refine cmp_eq_of_imp (dayNumber_lt_of_day_lt hyear hmonth)
    (dayNumber_lt_of_day_lt hyear.symm hmonth.symm) fun hday => ?_
  rw [dayNumber, dayOfYear, hyear, hmonth, hday, dayNumber, dayOfYear]

/-- Different days have different numbers. -/
theorem dayNumber_injective : Function.Injective dayNumber := by
  intro d e h
  have hcmp := cmp_dayNumber d e
  rw [(cmp_eq_eq_iff _ _).2 h, eq_comm, Ordering.then_eq_eq, Ordering.then_eq_eq, cmp_eq_eq_iff,
    cmp_eq_eq_iff, cmp_eq_eq_iff] at hcmp
  obtain ⟨hyear, hmonth, hday⟩ := hcmp
  cases d
  cases e
  cases hyear
  cases hmonth
  cases hday
  rfl

end Date

/-! ### Instants -/

/-- A point in time in UTC: a minute, and the nanoseconds that have passed of it.  A leap
second comes after the other seconds of its minute. -/
abbrev Instant := Int ×ₗ Nat

namespace Instant

/-- The instant to the microsecond. -/
def micros (i : Instant) : Int ×ₗ Nat := toLex ((ofLex i).1, (ofLex i).2 / 1000)

/-- Of two instants the minutes decide. -/
theorem cmp_eq (i j : Int ×ₗ Nat) :
    cmp i j = (cmp (ofLex i).1 (ofLex j).1).then (cmp (ofLex i).2 (ofLex j).2) := by
  refine cmp_then (fun h => ?_) (fun h => ?_) fun hminute => cmp_eq_of_imp (fun h => ?_)
    (fun h => ?_) fun h => ?_
  · exact Prod.Lex.lt_iff.2 (.inl h)
  · exact Prod.Lex.lt_iff.2 (.inl h)
  · exact Prod.Lex.lt_iff.2 (.inr ⟨hminute, h⟩)
  · exact Prod.Lex.lt_iff.2 (.inr ⟨hminute.symm, h⟩)
  · exact congrArg toLex (Prod.ext hminute h)

end Instant

/-- The nanoseconds that have passed of the minute. -/
def TimeOfDay.nanosOfMinute (t : TimeOfDay) : Nat := t.second * 1000000000 + t.nano

/-- The minutes that have passed of the day. -/
def TimeOfDay.minuteOfDay (t : TimeOfDay) : Nat := t.hour * 60 + t.minute

theorem TimeOfDay.minuteOfDay_lt (t : TimeOfDay) : t.minuteOfDay < 1440 := by
  have hvalid := t.valid
  unfold minuteOfDay
  omega

theorem TimeOfDay.eq_of_parts {t u : TimeOfDay} (hminute : t.minuteOfDay = u.minuteOfDay)
    (hnanos : t.nanosOfMinute = u.nanosOfMinute) : t = u := by
  obtain ⟨hour, minute, second, nano, hvalid⟩ := t
  obtain ⟨hour', minute', second', nano', hvalid'⟩ := u
  simp only [minuteOfDay, nanosOfMinute] at hminute hnanos
  obtain rfl : hour = hour' := by omega
  obtain rfl : minute = minute' := by omega
  obtain rfl : second = second' := by omega
  obtain rfl : nano = nano' := by omega
  rfl

/-- The instant of a moment in UTC. -/
def Timestamp.instant (t : Timestamp) : Instant :=
  toLex (t.date.dayNumber * 1440 + t.time.minuteOfDay, t.time.nanosOfMinute)

/-- The instant of a moment that a clock shows that is ahead of UTC. -/
def ZonedDateTime.instant (z : ZonedDateTime) : Instant :=
  toLex (z.clock.date.dayNumber * 1440 + z.clock.time.minuteOfDay - z.offset,
    z.clock.time.nanosOfMinute)

/-- **The moment in UTC is the same instant**, if the offset is less than a day. -/
theorem ZonedDateTime.instant_toTimestamp {z : ZonedDateTime} (h : z.offset.natAbs < 1440) :
    z.toTimestamp.instant = z.instant := by
  have hday := z.clock.time.minuteOfDay_lt
  unfold TimeOfDay.minuteOfDay at hday
  refine congrArg toLex (Prod.ext ?_ rfl)
  simp only [toTimestamp, TimeOfDay.minuteOfDay]
  split
  · rw [Date.dayNumber_previous]
    omega
  · split
    · omega
    · rw [Date.dayNumber_next]
      omega

/-- Different moments in UTC are different instants. -/
theorem Timestamp.instant_injective : Function.Injective Timestamp.instant := by
  intro t u h
  have hminute : t.date.dayNumber * 1440 + t.time.minuteOfDay =
      u.date.dayNumber * 1440 + u.time.minuteOfDay := congrArg Prod.fst h
  have hnanos : t.time.nanosOfMinute = u.time.nanosOfMinute := congrArg Prod.snd h
  have hday := t.time.minuteOfDay_lt
  have hday' := u.time.minuteOfDay_lt
  have hdate : t.date = u.date := Date.dayNumber_injective (by omega)
  have htime : t.time = u.time := TimeOfDay.eq_of_parts (by omega) hnanos
  cases t
  cases u
  cases hdate
  cases htime
  rfl

end ResourceTable
