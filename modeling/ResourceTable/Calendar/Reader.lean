import ResourceTable.Calendar.Text
import ResourceTable.Text.CharClass

/-!
# Reading dates and times

Timestamps arrive in the Internet format: a date, a time and an offset, every
number with all its digits.  A stored text may also be a date and a time without
an offset, which then are UTC; that form is read leniently, each number with as
many digits as there are and with blanks before it.

## Main definitions

* `readInternet`: the Internet format.
* `Date.read?`, `LocalDateTime.read?`: the lenient forms.
* `Timestamp.read?`: either form, as UTC.
-/

namespace ResourceTable

/-- The number that decimal digits denote, or nothing if one is no digit. -/
def readDigits? (cs : List Char) : Option Nat :=
  if cs.all Char.isDigit then some (cs.foldl (fun n c => n * 10 + (c.toNat - '0'.toNat)) 0)
  else none

/-- The nanoseconds that the digits after a point denote; digits past the ninth are
dropped. -/
def readNanos? (digits : List Char) : Option Nat :=
  let kept := digits.take 9
  (readDigits? kept).map (· * Nat.pow 10 (9 - kept.length))

/-- A fraction of a second, if one follows, and the rest of the text. -/
def readFraction? : List Char → Option (Nat × List Char)
  | '.' :: rest =>
    let digits := rest.takeWhile Char.isDigit
    if digits.isEmpty then none
    else (readNanos? digits).map fun nano => (nano, rest.dropWhile Char.isDigit)
  | rest => some (0, rest)

/-- The minutes of an offset from UTC, which ends the text. -/
def readOffset? : List Char → Option Int
  | ['Z'] => some 0
  | ['z'] => some 0
  | [sign, h, h', ':', m, m'] => do
    let hours ← readDigits? [h, h']
    let minutes ← readDigits? [m, m']
    let size : Int := (hours * 60 + minutes : Nat)
    if 24 ≤ hours ∨ 60 ≤ minutes then none
    else if sign = '+' then some size
    else if sign = '-' ∨ sign.toNat = 0x2212 then some (-size)
    else none
  | _ => none

/-- A date, a time and an offset from UTC: `2024-01-15T10:30:45.5+08:00`. -/
def readInternet : List Char → Option ZonedDateTime
  | y :: y' :: y'' :: y''' :: '-' :: m :: m' :: '-' :: d :: d' :: mark ::
      h :: h' :: ':' :: n :: n' :: ':' :: s :: s' :: rest => do
    let year ← readDigits? [y, y', y'', y''']
    let month ← readDigits? [m, m']
    let day ← readDigits? [d, d']
    let hour ← readDigits? [h, h']
    let minute ← readDigits? [n, n']
    let second ← readDigits? [s, s']
    if mark = 'T' ∨ mark = 't' ∨ mark = ' ' then
      let (nano, rest) ← readFraction? rest
      let offset ← readOffset? rest
      let date ← Date.ofNumbers? year month day
      let time ← TimeOfDay.ofNumbers? hour minute second nano
      return ⟨⟨date, time⟩, offset⟩
    else none
  | _ => none

/-! ### The lenient forms -/

/-- Blank characters. -/
def blankChars : CharClass :=
  [(0x9, 0xd), (0x20, 0x20), (0x85, 0x85), (0xa0, 0xa0), (0x1680, 0x1680), (0x2000, 0x200a),
    (0x2028, 0x2029), (0x202f, 0x202f), (0x205f, 0x205f), (0x3000, 0x3000)]

/-- The text without the blanks at its front. -/
def skipBlanks (cs : List Char) : List Char := cs.dropWhile (blankChars.contains ·)

/-- A number of at most `width` digits after blanks, and the rest of the text. -/
def readNumber? (width : Nat) (cs : List Char) : Option (Nat × List Char) :=
  let cs := skipBlanks cs
  let digits := (cs.take width).takeWhile Char.isDigit
  if digits.isEmpty then none else (readDigits? digits).map fun n => (n, cs.drop digits.length)

/-- A year after blanks: four digits at most, or any number of them after a sign. -/
def readYear? (cs : List Char) : Option (Int × List Char) :=
  let signed (rest : List Char) (negative : Bool) : Option (Int × List Char) :=
    let digits := rest.takeWhile Char.isDigit
    if digits.isEmpty then none
    else
      (readDigits? digits).map fun n =>
        (if negative then -(n : Int) else n, rest.drop digits.length)
  match skipBlanks cs with
  | '+' :: rest => signed rest false
  | '-' :: rest => signed rest true
  | rest => (readNumber? 4 rest).map fun (n, rest) => ((n : Int), rest)

/-- The years that a date can have. -/
def isYear (year : Int) : Bool := -262143 ≤ year && year ≤ 262142

/-- A mark that has to stand at the front. -/
def expect? (mark : Char) : List Char → Option (List Char)
  | c :: rest => if c = mark then some rest else none
  | [] => none

namespace Date

/-- A date at the front of a text, and the rest of the text. -/
def readFront? (cs : List Char) : Option (Date × List Char) := do
  let (year, cs) ← readYear? cs
  let cs ← expect? '-' cs
  let (month, cs) ← readNumber? 2 cs
  let cs ← expect? '-' cs
  let (day, cs) ← readNumber? 2 cs
  if isYear year then
    let date ← ofNumbers? year month day
    return (date, cs)
  else none

/-- A date that is the whole text. -/
def read? (cs : List Char) : Option Date := do
  let (date, rest) ← readFront? cs
  if rest.isEmpty then some date else none

end Date

namespace LocalDateTime

/-- A date and a time that are the whole text. -/
def read? (cs : List Char) : Option LocalDateTime := do
  let (date, cs) ← Date.readFront? cs
  let (hour, cs) ← readNumber? 2 (skipBlanks cs)
  let cs ← expect? ':' cs
  let (minute, cs) ← readNumber? 2 cs
  let cs ← expect? ':' cs
  let (second, cs) ← readNumber? 2 cs
  let (nano, cs) ← readFraction? cs
  let time ← TimeOfDay.ofNumbers? hour minute second nano
  if cs.isEmpty then some ⟨date, time⟩ else none

end LocalDateTime

namespace Timestamp

/-- The moment that a stored or supplied text denotes. -/
def read? (cs : List Char) : Option Timestamp :=
  match readInternet cs with
  | some z => some z.toTimestamp
  | none => (LocalDateTime.read? cs).map ofLocal

end Timestamp

end ResourceTable
