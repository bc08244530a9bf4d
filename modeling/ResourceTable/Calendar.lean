/-!
# Dates and times

The proleptic Gregorian calendar, times of day with an optional leap second, and
the moments they make: local ones, moments with an offset from UTC, and UTC
timestamps, which is what a time column holds.

A second number of 60 is a leap second.  It may stand in any minute.

## Main definitions

* `Date`, `TimeOfDay`, `LocalDateTime`, `ZonedDateTime`, `Timestamp`.
* `Date.next`, `Date.previous`: the neighbouring days.
* `ZonedDateTime.toTimestamp`: the same instant in UTC.
-/

namespace ResourceTable

/-- Whether the year has a 29th of February. -/
def isLeapYear (year : Int) : Bool := year % 4 == 0 && (year % 100 != 0 || year % 400 == 0)

/-- The number of days of a month. -/
def daysInMonth (year : Int) (month : Nat) : Nat :=
  if month = 2 then if isLeapYear year then 29 else 28
  else if month = 4 ∨ month = 6 ∨ month = 9 ∨ month = 11 then 30
  else 31

theorem daysInMonth_bounds (year : Int) (month : Nat) :
    28 ≤ daysInMonth year month ∧ daysInMonth year month ≤ 31 := by
  unfold daysInMonth
  split
  · split <;> omega
  · split <;> omega

/-- A day of the calendar. -/
structure Date where
  /-- The year; year zero is the one before year one. -/
  year : Int
  /-- The month, from 1. -/
  month : Nat
  /-- The day of the month, from 1. -/
  day : Nat
  /-- The day exists. -/
  valid : 1 ≤ month ∧ month ≤ 12 ∧ 1 ≤ day ∧ day ≤ daysInMonth year month
  deriving DecidableEq

namespace Date

instance : Repr Date where
  reprPrec d n := reprPrec (d.year, d.month, d.day) n

/-- The day with these numbers, if it exists. -/
def ofNumbers? (year : Int) (month day : Nat) : Option Date :=
  if h : 1 ≤ month ∧ month ≤ 12 ∧ 1 ≤ day ∧ day ≤ daysInMonth year month then
    some ⟨year, month, day, h⟩
  else none

/-- The first day of January 1970. -/
def epoch : Date := ⟨1970, 1, 1, by decide⟩

instance : Inhabited Date := ⟨epoch⟩

/-- The day after. -/
def next (d : Date) : Date :=
  if h : d.day < daysInMonth d.year d.month then
    ⟨d.year, d.month, d.day + 1, d.valid.1, d.valid.2.1, by omega, by omega⟩
  else if hm : d.month < 12 then
    ⟨d.year, d.month + 1, 1, by omega, by omega, by omega,
      by have := daysInMonth_bounds d.year (d.month + 1); omega⟩
  else
    ⟨d.year + 1, 1, 1, by omega, by omega, by omega,
      by have := daysInMonth_bounds (d.year + 1) 1; omega⟩

/-- The day before. -/
def previous (d : Date) : Date :=
  if h : 1 < d.day then
    ⟨d.year, d.month, d.day - 1, d.valid.1, d.valid.2.1, by omega, by have := d.valid; omega⟩
  else if hm : 1 < d.month then
    ⟨d.year, d.month - 1, daysInMonth d.year (d.month - 1), by omega, by have := d.valid; omega,
      by have := daysInMonth_bounds d.year (d.month - 1); omega, by omega⟩
  else ⟨d.year - 1, 12, 31, by omega, by omega, by omega, by simp [daysInMonth]⟩

end Date

/-- A time of day, to the nanosecond. -/
structure TimeOfDay where
  /-- The hour, below 24. -/
  hour : Nat
  /-- The minute, below 60. -/
  minute : Nat
  /-- The second, 60 for a leap second. -/
  second : Nat
  /-- The nanoseconds, below a second. -/
  nano : Nat
  /-- Every part is in its range. -/
  valid : hour < 24 ∧ minute < 60 ∧ second ≤ 60 ∧ nano < 1000000000
  deriving DecidableEq

namespace TimeOfDay

instance : Repr TimeOfDay where
  reprPrec t n := reprPrec (t.hour, t.minute, t.second, t.nano) n

/-- The time with these parts, if they are in range. -/
def ofNumbers? (hour minute second nano : Nat) : Option TimeOfDay :=
  if h : hour < 24 ∧ minute < 60 ∧ second ≤ 60 ∧ nano < 1000000000 then
    some ⟨hour, minute, second, nano, h⟩
  else none

/-- The start of the day. -/
def midnight : TimeOfDay := ⟨0, 0, 0, 0, by decide⟩

instance : Inhabited TimeOfDay := ⟨midnight⟩

/-- The time cut down to whole microseconds. -/
def truncateMicros (t : TimeOfDay) : TimeOfDay :=
  ⟨t.hour, t.minute, t.second, t.nano / 1000 * 1000, by have := t.valid; omega⟩

end TimeOfDay

/-- A date and a time of day that belong to no particular zone. -/
structure LocalDateTime where
  /-- The day. -/
  date : Date
  /-- The time of the day. -/
  time : TimeOfDay
  deriving DecidableEq, Repr, Inhabited

/-- A moment in UTC. -/
structure Timestamp where
  /-- The day in UTC. -/
  date : Date
  /-- The time of the day in UTC. -/
  time : TimeOfDay
  deriving DecidableEq, Repr, Inhabited

namespace Timestamp

/-- The first moment of 1970. -/
def epoch : Timestamp := ⟨.epoch, .midnight⟩

/-- The moment cut down to whole microseconds. -/
def truncateMicros (t : Timestamp) : Timestamp := ⟨t.date, t.time.truncateMicros⟩

/-- A UTC moment read off a clock that shows UTC. -/
def ofLocal (t : LocalDateTime) : Timestamp := ⟨t.date, t.time⟩

/-- The moment a number of microseconds below a minute later. -/
def addMicros (t : Timestamp) (micros : Nat) : Timestamp :=
  let nanos := t.time.nano + micros * 1000
  let seconds := t.time.second + nanos / 1000000000
  let minutes := t.time.minute + seconds / 60
  let hours := t.time.hour + minutes / 60
  let time : TimeOfDay :=
    ⟨hours % 24, minutes % 60, seconds % 60, nanos % 1000000000, by
      refine ⟨?_, ?_, ?_, ?_⟩ <;> omega⟩
  ⟨if hours < 24 then t.date else t.date.next, time⟩

end Timestamp

/-- A moment as a clock with an offset from UTC shows it. -/
structure ZonedDateTime where
  /-- What the clock shows. -/
  clock : LocalDateTime
  /-- The minutes that the clock is ahead of UTC. -/
  offset : Int
  deriving DecidableEq, Repr, Inhabited

namespace ZonedDateTime

/-- The same instant in UTC.  The offset is less than a day, so the day changes by
one at most. -/
def toTimestamp (z : ZonedDateTime) : Timestamp :=
  let minutes : Int := z.clock.time.hour * 60 + z.clock.time.minute - z.offset
  let ofDay := (minutes % 1440).toNat
  let date :=
    if minutes < 0 then z.clock.date.previous
    else if minutes < 1440 then z.clock.date
    else z.clock.date.next
  let time : TimeOfDay :=
    ⟨ofDay / 60, ofDay % 60, z.clock.time.second, z.clock.time.nano, by
      have := z.clock.time.valid
      have : ofDay < 1440 := by omega
      refine ⟨?_, ?_, ?_, ?_⟩ <;> omega⟩
  ⟨date, time⟩

end ZonedDateTime

end ResourceTable
