import ResourceTable.Calendar

/-!
# Written dates and times

Dates are written year, month, day with dashes; a year outside 0 to 9999 carries a
sign.  A fraction of a second has a fixed number of digits, or as many groups of
three as it needs.

## Main definitions

* `paddedChars`: a number in at least so many digits.
* `Date.chars`, `TimeOfDay.chars`: the written forms.
* `Timestamp.stored`: the text of a time column.
-/

namespace ResourceTable

/-- The decimal digits of a number, zeros put before them up to the width. -/
def paddedChars (width n : Nat) : List Char :=
  let digits := Nat.toDigits 10 n
  List.replicate (width - digits.length) '0' ++ digits

/-- How a fraction of a second is written. -/
inductive Fraction
  /-- Not at all. -/
  | none
  /-- Six digits; the rest is cut off. -/
  | micros
  /-- Nine digits. -/
  | nanos
  /-- Three, six or nine digits, or none for a whole second. -/
  | needed
  deriving DecidableEq, Repr

namespace Fraction

/-- The written fraction of `nano` nanoseconds. -/
def chars (f : Fraction) (nano : Nat) : List Char :=
  match f with
  | .none => []
  | .micros => '.' :: paddedChars 6 (nano / 1000)
  | .nanos => '.' :: paddedChars 9 nano
  | .needed =>
    if nano = 0 then []
    else if nano % 1000000 = 0 then '.' :: paddedChars 3 (nano / 1000000)
    else if nano % 1000 = 0 then '.' :: paddedChars 6 (nano / 1000)
    else '.' :: paddedChars 9 nano

end Fraction

namespace Date

/-- The year, in four digits if it has that many, else with a sign. -/
def yearChars (year : Int) : List Char :=
  if 0 ≤ year ∧ year ≤ 9999 then paddedChars 4 year.toNat
  else (if year < 0 then '-' else '+') :: paddedChars 4 year.natAbs

/-- Year, month and day. -/
def chars (d : Date) : List Char :=
  yearChars d.year ++ '-' :: paddedChars 2 d.month ++ '-' :: paddedChars 2 d.day

/-- Year, month and day. -/
def text (d : Date) : String := String.ofList d.chars

end Date

namespace TimeOfDay

/-- Hour, minute, second and fraction. -/
def chars (f : Fraction) (t : TimeOfDay) : List Char :=
  paddedChars 2 t.hour ++ ':' :: paddedChars 2 t.minute ++ ':' :: paddedChars 2 t.second ++
    f.chars t.nano

/-- Hour, minute, second and as much of the fraction as is needed. -/
def text (t : TimeOfDay) : String := String.ofList (t.chars .needed)

end TimeOfDay

namespace LocalDateTime

/-- Date and time with a mark between them. -/
def text (mark : Char) (t : LocalDateTime) : String :=
  String.ofList (t.date.chars ++ mark :: t.time.chars .needed)

end LocalDateTime

namespace Timestamp

/-- Date, `T`, time and `Z`. -/
def chars (f : Fraction) (t : Timestamp) : List Char :=
  t.date.chars ++ 'T' :: t.time.chars f ++ ['Z']

/-- Date, `T`, time and `Z`. -/
def text (f : Fraction) (t : Timestamp) : String := String.ofList (t.chars f)

/-- The text that a time column stores: UTC to the microsecond. -/
def stored (t : Timestamp) : String := t.text .micros

end Timestamp

namespace ZonedDateTime

/-- What the clock shows, and its offset. -/
def text (z : ZonedDateTime) : String :=
  let minutes := z.offset.natAbs
  z.clock.text 'T' ++ String.ofList
    ((if z.offset < 0 then '-' else '+') :: paddedChars 2 (minutes / 60) ++
      ':' :: paddedChars 2 (minutes % 60))

end ZonedDateTime

end ResourceTable
