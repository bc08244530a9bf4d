import ResourceTable.Binary.Paired
import ResourceTable.Decimal

/-!
# Numbers in text

Numbers are read from the front of a text, and fractional numbers are written with
at most fifteen digits.  Both directions go through pairs of binary numbers.

## Main definitions

* `NumberText`, `NumberText.read?`: a number at the front of a text.
* `NumberText.toDouble`: the fractional number of a text.
* `realText`: the text of a fractional number.
-/

namespace ResourceTable.Sql

/-- A number at the front of a text. -/
structure NumberText where
  /-- Whether it has a minus sign. -/
  negative : Bool
  /-- The digits before the point. -/
  digits : List Char
  /-- The digits after the point. -/
  places : List Char
  /-- The exponent. -/
  exponent : Int
  /-- Whether there is neither a point nor an exponent. -/
  whole : Bool
  /-- Whether only blanks follow. -/
  complete : Bool
  deriving DecidableEq, Repr

namespace NumberText

/-- Whether the character is blank. -/
def isBlank (c : Char) : Bool := c == ' ' || (9 ≤ c.toNat && c.toNat ≤ 13)

/-- The value of a digit. -/
def digitValue (c : Char) : Nat := c.toNat - 48

/-- The natural number of some digits. -/
def ofDigits (ds : List Char) : Nat := ds.foldl (fun n c => n * 10 + digitValue c) 0

/-- A sign and the text after it. -/
def readSign : List Char → Bool × List Char
  | '-' :: rest => (true, rest)
  | '+' :: rest => (false, rest)
  | cs => (false, cs)

/-- The digits after a point and the text after them. -/
def readFraction : List Char → Option (List Char) × List Char
  | '.' :: rest => (some (rest.takeWhile Char.isDigit), rest.dropWhile Char.isDigit)
  | cs => (none, cs)

/-- The number of an exponent's digits.  One of more than five digits counts as ten
thousand. -/
def exponentOf (ds : List Char) : Nat :=
  ds.foldl (fun e c => if e < 10000 then e * 10 + digitValue c else 10000) 0

/-- An exponent and the text after it; an `e` without digits is not one. -/
def readExponent : List Char → Option Int × List Char
  | [] => (none, [])
  | c :: rest =>
    if c = 'e' ∨ c = 'E' then
      let (negative, more) := readSign rest
      let ds := more.takeWhile Char.isDigit
      if ds.isEmpty then (none, c :: rest)
      else
        let n := exponentOf ds
        (some (if negative then -n else n), more.dropWhile Char.isDigit)
    else (none, c :: rest)

/-- The number at the front of a text. -/
def read? (cs : List Char) : Option NumberText :=
  let (negative, cs) := readSign (cs.dropWhile isBlank)
  let digits := cs.takeWhile Char.isDigit
  let (fraction, cs) := readFraction (cs.dropWhile Char.isDigit)
  let places := fraction.getD []
  if (digits ++ places).isEmpty then none
  else
    let (exponent, cs) := readExponent cs
    some {
      negative
      digits
      places
      exponent := exponent.getD 0
      whole := fraction.isNone && exponent.isNone
      complete := cs.all isBlank }

/-! ### Reading -/

/-- The integer of a number without point and exponent. -/
def toInt (t : NumberText) : Int :=
  if t.negative then -(ofDigits t.digits : Int) else ofDigits t.digits

/-- A natural number below two to the 64 times a power of ten. -/
structure Significand where
  /-- The number. -/
  digits : Nat
  /-- The power of ten. -/
  exponent : Int
  deriving DecidableEq, Repr

namespace Significand

/-- The greatest 64-bit number. -/
def greatest : Nat := Nat.pow 2 64 - 1

/-- Whether another digit fits. -/
def hasRoom (s : Significand) : Bool := s.digits < (greatest - 9) / 10

/-- A digit before the point, which is dropped if it does not fit. -/
def digit (s : Significand) (c : Char) : Significand :=
  if s.hasRoom then ⟨s.digits * 10 + digitValue c, s.exponent⟩
  else ⟨s.digits, s.exponent + 1⟩

/-- A digit after the point, which is dropped if it does not fit. -/
def place (s : Significand) (c : Char) : Significand :=
  if s.hasRoom then ⟨s.digits * 10 + digitValue c, s.exponent - 1⟩ else s

/-- Moves as much of the exponent into the number as fits, in so many steps. -/
def absorb : Nat → Significand → Significand
  | 0, s => s
  | fuel + 1, s =>
    if 0 < s.exponent ∧ s.digits < (greatest - 2047) / 10 then
      absorb fuel ⟨s.digits * 10, s.exponent - 1⟩
    else if s.exponent < 0 ∧ s.digits % 10 = 0 then
      absorb fuel ⟨s.digits / 10, s.exponent + 1⟩
    else s

/-- The pair of the number.  One that rounds to two to the 64 lacks nothing. -/
def paired (s : Significand) : Paired :=
  let pair := Paired.ofRatio s.digits 1
  if pair.near.whole ≤ greatest then pair else { pair with rest := .zero false }

/-- The fractional number. -/
def toDouble (s : Significand) : Double :=
  if s.digits = 0 then .zero false
  else
    let s := s.absorb 20
    let x := (s.paired.scale s.exponent).toDouble
    if x.isNaN then .infinity false else x

end Significand

/-- The digits that are used, with the power of ten that remains. -/
def significand (t : NumberText) : Significand :=
  let s := t.places.foldl Significand.place (t.digits.foldl Significand.digit ⟨0, 0⟩)
  ⟨s.digits, s.exponent + t.exponent⟩

/-- The fractional number. -/
def toDouble (t : NumberText) : Double :=
  let x := t.significand.toDouble
  if t.negative then x.neg else x

end NumberText

/-! ### Writing -/

/-- Fractional numbers are written with at most fifteen digits. -/
def realLayout : Layout where
  positional p := -5 < p && p < 15
  plusSign := true
  pointAlways := true
  exponentDigits := 2
  tie := .up

/-- The greatest number below two to the 63, times a power of ten. -/
def limit (exponent : Int) : Double :=
  let n := 9223372036854774784
  if 0 ≤ exponent then .ofRatio false (n * Nat.pow 10 exponent.toNat) 1
  else .ofRatio false n (Nat.pow 10 (-exponent).toNat)

/-- Multiplies with ten to the `step` while a number is on the wrong side of a limit,
at most `fuel` times; counts the power of ten that was taken out. -/
def shiftWhile (wrong : Double → Bool) (step : Int) : Nat → Paired × Int → Paired × Int
  | 0, x => x
  | fuel + 1, (x, taken) =>
    if wrong x.near then
      shiftWhile wrong step fuel (x.mul (.powerOfTen step), taken - step)
    else (x, taken)

/-- The steps by which a number is scaled, with the distance to the limit that they
need. -/
def steps : List (Nat × Nat) := [(100, 100), (10, 10), (1, 0)]

/-- A magnitude scaled to an integer part of eighteen or nineteen digits, and the power
of ten that was taken out. -/
def settled (x : Double) : Paired × Int :=
  let above (margin : Nat) (y : Double) : Bool := y.compare (limit margin) == .gt
  let below (margin : Nat) (y : Double) : Bool := y.compare (limit (-1 - margin)) == .lt
  let start : Paired × Int := (⟨x, .zero false⟩, 0)
  if above 0 x then
    steps.foldl (fun y step => shiftWhile (above step.2) (-step.1) 20 y) start
  else steps.foldl (fun y step => shiftWhile (below step.2) step.1 20 y) start

/-- A finite number that is not zero, in fifteen decimal digits, without trailing
zeros. -/
def realDecimal (x : Double) : Decimal :=
  let (pair, taken) := settled (.ofMagnitude false x.magnitudeBits)
  let n :=
    if pair.rest.negative then pair.near.whole - pair.rest.whole
    else pair.near.whole + pair.rest.whole
  let dropped := Decimal.digitCount n - 15
  Decimal.trimZeros 20 ⟨Tie.up.round n (Nat.pow 10 dropped), taken + dropped⟩

/-- The text of a fractional number. -/
def realText (x : Double) : String :=
  let magnitude :=
    if x.isInfinite then ['I', 'n', 'f']
    else if x.isZero then ['0', '.', '0']
    else (realDecimal x).text realLayout
  String.ofList (if x.negative && !x.isZero then '-' :: magnitude else magnitude)

end ResourceTable.Sql
