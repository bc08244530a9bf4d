import ResourceTable.Binary

/-!
# Decimal text of binary numbers

A finite binary number is written with the fewest decimal digits that still read
back as the same number, and of those the digits nearest to it.  Where the point
stands, and how an exponent looks, is a property of the format that is written
and given by a `Layout`; so is the choice between two texts that are equally near.

## Main definitions

* `Decimal`: `digits * 10 ^ exponent`.
* `Tie`: which of two equally near numbers is taken.
* `Binary.shortest`: the fewest digits that read back.
* `Layout`, `Decimal.text`: the written form.
-/

namespace ResourceTable

/-- The number `digits * 10 ^ exponent`. -/
structure Decimal where
  /-- The digits, read as a natural number. -/
  digits : Nat
  /-- The power of ten of the last digit. -/
  exponent : Int
  deriving DecidableEq, Repr

namespace Decimal

/-- The number of decimal digits; zero has none. -/
def digitCount (n : Nat) : Nat := if n = 0 then 0 else (Nat.toDigits 10 n).length

/-- Drops trailing zero digits, at most `fuel` of them. -/
def trimZeros : Nat → Decimal → Decimal
  | 0, d => d
  | fuel + 1, d =>
    if d.digits ≠ 0 ∧ d.digits % 10 = 0 then trimZeros fuel ⟨d.digits / 10, d.exponent + 1⟩ else d

/-- The greatest `k` with `10 ^ k ≤ num / den`, for positive arguments. -/
def floorLog10 (num den : Nat) : Int :=
  if den ≤ num then (digitCount (num / den) : Int) - 1 else -(digitCount ((den - 1) / num) : Int)

/-- `num / den` divided by `10 ^ k`, as a quotient. -/
def scaled (num den : Nat) (k : Int) : Nat × Nat :=
  if 0 ≤ k then (num, den * Nat.pow 10 k.toNat) else (num * Nat.pow 10 (-k).toNat, den)

end Decimal

/-- Which of two equally near integers is taken. -/
inductive Tie
  /-- The even one. -/
  | even
  /-- The greater one. -/
  | up
  deriving DecidableEq, Repr

/-- The integer nearest to `num / den`, for a positive `den`. -/
def Tie.round : Tie → Nat → Nat → Nat
  | even, num, den => Binary.roundHalfEven num den
  | up, num, den => (2 * num + den) / (2 * den)

namespace Binary

variable {f : Format}

/-- The bounds of the interval that reads back as `x`, and `x` itself, in quarters
of the unit in the last place. -/
def quarters (x : Binary f) : Nat × Nat × Nat :=
  let m := x.significand
  let below := if x.fraction = 0 ∧ 1 < x.exponentField then 1 else 2
  (4 * m - below, 4 * m, 4 * m + 2)

/-- A nearest point of the grid of multiples of `10 ^ k` that reads back as `x`. -/
def onGrid? (tie : Tie) (x : Binary f) (k : Int) : Option Nat :=
  let (low, mid, high) := x.quarters
  let unit := x.exponent - 2
  let (factor, den) := if 0 ≤ unit then (Nat.pow 2 unit.toNat, 1) else (1, Nat.pow 2 (-unit).toNat)
  let even := x.significand % 2 == 0
  let (num, div) := Decimal.scaled (mid * factor) den k
  let (lowNum, _) := Decimal.scaled (low * factor) den k
  let (highNum, _) := Decimal.scaled (high * factor) den k
  let inside (d : Nat) : Bool :=
    if even then lowNum ≤ d * div && d * div ≤ highNum else lowNum < d * div && d * div < highNum
  let down := num / div
  let nearest := tie.round num div
  if inside nearest then some nearest
  else if inside down then some down
  else if inside (down + 1) then some (down + 1)
  else none

/-- The fewest digits that read back as the finite number `x`: the coarsest
decimal grid that has a point reading back as `x` decides their number. -/
def shortest (tie : Tie) (x : Binary f) : Decimal :=
  if x.isZero then ⟨0, 0⟩
  else
    let top := Decimal.floorLog10 x.ratio.1 x.ratio.2
    let grid? (count : Nat) : Option Decimal :=
      let k := top - count
      (x.onGrid? tie k).map fun d => Decimal.trimZeros 20 ⟨d, k⟩
    ((List.range 20).findSome? grid?).getD ⟨x.significand, 0⟩

end Binary

/-- How the digits of a number are laid out. -/
structure Layout where
  /-- The scientific exponents that are written positionally. -/
  positional : Int → Bool
  /-- Whether a positive exponent carries a plus sign. -/
  plusSign : Bool
  /-- Whether a single digit before an exponent is followed by `.0`. -/
  pointAlways : Bool
  /-- The least number of digits of an exponent. -/
  exponentDigits : Nat
  /-- The digits that are taken of two equally near ones. -/
  tie : Tie

namespace Decimal

/-- The digits as characters. -/
def digitChars (d : Decimal) : List Char := Nat.toDigits 10 d.digits

/-- The exponent of the first digit. -/
def scientific (d : Decimal) : Int := d.exponent + (d.digitChars.length - 1 : Nat)

/-- Positional text, with at least one digit on either side of the point. -/
def positionalText (d : Decimal) : List Char :=
  let cs := d.digitChars
  if 0 ≤ d.exponent then cs ++ List.replicate d.exponent.toNat '0' ++ ['.', '0']
  else
    let places := (-d.exponent).toNat
    if places < cs.length then cs.take (cs.length - places) ++ '.' :: cs.drop (cs.length - places)
    else '0' :: '.' :: List.replicate (places - cs.length) '0' ++ cs

/-- One digit, the point and the other digits, and the exponent. -/
def exponentText (layout : Layout) (d : Decimal) : List Char :=
  let p := d.scientific
  let mantissa :=
    match d.digitChars with
    | [] => []
    | [c] => if layout.pointAlways then [c, '.', '0'] else [c]
    | c :: rest => c :: '.' :: rest
  let sign := if p < 0 then ['-'] else if layout.plusSign then ['+'] else []
  let digits := Nat.toDigits 10 p.natAbs
  let padding := List.replicate (layout.exponentDigits - digits.length) '0'
  mantissa ++ 'e' :: sign ++ padding ++ digits

/-- The text of a decimal in a layout. -/
def text (layout : Layout) (d : Decimal) : List Char :=
  if d.digits = 0 then ['0', '.', '0']
  else if layout.positional d.scientific then d.positionalText
  else d.exponentText layout

end Decimal

namespace Binary

variable {f : Format}

/-- The text of a number with its shortest digits, `NaN`, `inf` or `-inf`. -/
def text (layout : Layout) (x : Binary f) : List Char :=
  if x.isNaN then ['N', 'a', 'N']
  else
    let magnitude := if x.isInfinite then ['i', 'n', 'f'] else (x.shortest layout.tie).text layout
    if x.negative then '-' :: magnitude else magnitude

end Binary

end ResourceTable
