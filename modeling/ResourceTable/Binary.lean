/-!
# Binary floating-point numbers

Fractional column values are binary interchange numbers of 32 or 64 bits.  A
number is kept as its bit pattern, so two values are equal exactly when a reader
of the bits cannot tell them apart, and every operation is exact integer
arithmetic followed by one rounding: to the nearest number, ties to the even
pattern.

## Main definitions

* `Binary.Format`, `Format.single`, `Format.double`: the two layouts.
* `Binary f`: the numbers of a layout, as bit patterns.
* `Binary.ofRatio`: the number nearest to a quotient of naturals.
* `Binary.compareInt`, `Binary.compare`: numeric comparison.
-/

namespace ResourceTable

/-- The layout of a binary floating-point number: a sign bit, an exponent field
and a fraction field. -/
structure Binary.Format where
  /-- Bits of the fraction field. -/
  fractionBits : Nat
  /-- Bits of the exponent field. -/
  exponentBits : Nat
  deriving DecidableEq

namespace Binary.Format

/-- The 32-bit layout. -/
def single : Format := ⟨23, 8⟩

/-- The 64-bit layout. -/
def double : Format := ⟨52, 11⟩

/-- Bits of a whole number. -/
def width (f : Format) : Nat := 1 + f.exponentBits + f.fractionBits

/-- The weight of the sign bit. -/
def signWeight (f : Format) : Nat := Nat.pow 2 (f.exponentBits + f.fractionBits)

/-- The exponent field that marks infinities and not-a-numbers. -/
def specialField (f : Format) : Nat := Nat.pow 2 f.exponentBits - 1

/-- The pattern of positive infinity. -/
def infinityBits (f : Format) : Nat := f.specialField * Nat.pow 2 f.fractionBits

/-- The exponent of the unit in the last place of the smallest numbers. -/
def leastExponent (f : Format) : Int :=
  2 - (Nat.pow 2 (f.exponentBits - 1) : Int) - f.fractionBits

end Binary.Format

/-- A binary floating-point number, as its bit pattern. -/
structure Binary (f : Binary.Format) where
  /-- The bit pattern. -/
  bits : Nat
  /-- The pattern fits the layout. -/
  bits_lt : bits < Nat.pow 2 f.width
  deriving DecidableEq

/-- Numbers of the 32-bit layout. -/
abbrev Single := Binary .single

/-- Numbers of the 64-bit layout. -/
abbrev Double := Binary .double

namespace Binary

variable {f g : Format}

/-- The number whose pattern is the low bits of `n`. -/
def ofBits (n : Nat) : Binary f := ⟨n % Nat.pow 2 f.width, Nat.mod_lt _ (Nat.two_pow_pos _)⟩

instance : Inhabited (Binary f) := ⟨ofBits 0⟩

instance : Repr (Binary f) where
  reprPrec x n := reprPrec x.bits n

/-- Whether the sign bit is set. -/
def negative (x : Binary f) : Bool := f.signWeight ≤ x.bits

/-- The pattern without its sign bit. -/
def magnitudeBits (x : Binary f) : Nat := x.bits % f.signWeight

/-- The exponent field. -/
def exponentField (x : Binary f) : Nat := x.magnitudeBits / Nat.pow 2 f.fractionBits

/-- The fraction field. -/
def fraction (x : Binary f) : Nat := x.magnitudeBits % Nat.pow 2 f.fractionBits

/-- Whether the number is not a number. -/
def isNaN (x : Binary f) : Bool := f.infinityBits < x.magnitudeBits

/-- Whether the number is an infinity. -/
def isInfinite (x : Binary f) : Bool := x.magnitudeBits = f.infinityBits

/-- Whether the number is neither an infinity nor not-a-number. -/
def isFinite (x : Binary f) : Bool := x.magnitudeBits < f.infinityBits

/-- Whether the number is one of the two zeros. -/
def isZero (x : Binary f) : Bool := x.magnitudeBits = 0

/-- The integer `m` of a finite number of magnitude `m * 2 ^ q`. -/
def significand (x : Binary f) : Nat :=
  if x.exponentField = 0 then x.fraction else x.fraction + Nat.pow 2 f.fractionBits

/-- The exponent `q` of a finite number of magnitude `m * 2 ^ q`. -/
def exponent (x : Binary f) : Int :=
  f.leastExponent + (x.exponentField - 1 : Nat)

/-- The magnitude of a finite number as a quotient. -/
def ratio (x : Binary f) : Nat × Nat :=
  if 0 ≤ x.exponent then (x.significand * Nat.pow 2 x.exponent.toNat, 1)
  else (x.significand, Nat.pow 2 (-x.exponent).toNat)

/-- The number with the given sign and magnitude pattern. -/
def ofMagnitude (negative : Bool) (bits : Nat) : Binary f :=
  ofBits (if negative then f.signWeight + bits else bits)

/-- Zero, with a sign. -/
def zero (negative : Bool) : Binary f := ofMagnitude negative 0

/-- Infinity, with a sign. -/
def infinity (negative : Bool) : Binary f := ofMagnitude negative f.infinityBits

/-- The number of the other sign. -/
def neg (x : Binary f) : Binary f := ofMagnitude (!x.negative) x.magnitudeBits

/-! ### Rounding -/

/-- The integer nearest to `num / den`, the even one of two. -/
def roundHalfEven (num den : Nat) : Nat :=
  let whole := num / den
  let twice := 2 * (num % den)
  if twice < den then whole
  else if den < twice then whole + 1
  else whole + whole % 2

/-- The greatest `k` with `2 ^ k ≤ num / den`, for positive arguments. -/
def floorLog2 (num den : Nat) : Int :=
  let guess : Int := (Nat.log2 num : Int) - Nat.log2 den
  let fits :=
    if 0 ≤ guess then den * Nat.pow 2 guess.toNat ≤ num
    else den ≤ num * Nat.pow 2 (-guess).toNat
  if fits then guess else guess - 1

/-- The number nearest to `num / den`, ties to even, beyond the largest number
infinity.  The unit of the result is chosen first; the quotient in that unit is
rounded to an integer, and the carry of that integer into the exponent field is
the carry of the addition. -/
def ofRatio (negative : Bool) (num den : Nat) : Binary f :=
  if num = 0 ∨ den = 0 then zero negative
  else
    let unit := max f.leastExponent (floorLog2 num den - f.fractionBits)
    let m :=
      if 0 ≤ unit then roundHalfEven num (den * Nat.pow 2 unit.toNat)
      else roundHalfEven (num * Nat.pow 2 (-unit).toNat) den
    let bits := (unit - f.leastExponent).toNat * Nat.pow 2 f.fractionBits + m
    ofMagnitude negative (min bits f.infinityBits)

/-- The number nearest to an integer. -/
def ofInt (n : Int) : Binary f := ofRatio (n < 0) n.natAbs 1

/-- A number that is not a number. -/
def nan : Binary f := ofMagnitude false (f.infinityBits + Nat.pow 2 (f.fractionBits - 1))

/-- The product. -/
def mul (x y : Binary f) : Binary f :=
  if x.isFinite && y.isFinite then
    ofRatio (x.negative != y.negative) (x.ratio.1 * y.ratio.1) (x.ratio.2 * y.ratio.2)
  else if x.isNaN || y.isNaN || x.isZero || y.isZero then nan
  else infinity (x.negative != y.negative)

/-- The quotient of finite numbers, the second not zero. -/
def div (x y : Binary f) : Binary f :=
  ofRatio (x.negative != y.negative) (x.ratio.1 * y.ratio.2) (x.ratio.2 * y.ratio.1)

/-- The signed numerator of a finite number, over the denominator of its `ratio`. -/
def numerator (x : Binary f) : Int := if x.negative then -(x.ratio.1 : Int) else x.ratio.1

/-- The sum of finite numbers, rounded once. -/
def addFinite (x y : Binary f) : Binary f :=
  let sum := x.numerator * y.ratio.2 + y.numerator * x.ratio.2
  if sum = 0 then zero (x.negative && y.negative)
  else ofRatio (sum < 0) sum.natAbs (x.ratio.2 * y.ratio.2)

/-- The sum. -/
def add (x y : Binary f) : Binary f :=
  if x.isFinite && y.isFinite then addFinite x y
  else if x.isNaN || y.isNaN then nan
  else if x.isFinite then y
  else if y.isFinite || x.negative == y.negative then x
  else nan

/-- The difference. -/
def sub (x y : Binary f) : Binary f := x.add y.neg

/-- The integer part of a finite magnitude. -/
def whole (x : Binary f) : Nat := x.ratio.1 / x.ratio.2

/-- The number of another layout nearest to `x`; the payload of a not-a-number
keeps its leading bits and is made quiet. -/
def convert (x : Binary f) : Binary g :=
  if x.isFinite then ofRatio x.negative x.ratio.1 x.ratio.2
  else if x.isInfinite then infinity x.negative
  else
    let payload :=
      if g.fractionBits ≤ f.fractionBits then
        x.fraction / Nat.pow 2 (f.fractionBits - g.fractionBits)
      else x.fraction * Nat.pow 2 (g.fractionBits - f.fractionBits)
    let quiet := Nat.pow 2 (g.fractionBits - 1)
    ofMagnitude x.negative (g.infinityBits + quiet + payload % quiet)

/-! ### Order -/

/-- An integer that orders the numbers; both zeros have key zero. -/
def orderKey (x : Binary f) : Int :=
  if x.negative then -(x.magnitudeBits : Int) else x.magnitudeBits

/-- The numeric order of two numbers that are not not-a-numbers. -/
def compare (x y : Binary f) : Ordering := Ord.compare x.orderKey y.orderKey

/-- The numeric order of a number and an integer, exactly. -/
def compareInt (x : Binary f) (n : Int) : Ordering :=
  if x.isFinite then Ord.compare x.numerator (n * x.ratio.2)
  else if x.negative then .lt
  else .gt

/-- The integer that a finite number equals. -/
def toInt? (x : Binary f) : Option Int :=
  if x.isFinite && x.ratio.1 % x.ratio.2 == 0 then
    let n : Int := (x.ratio.1 / x.ratio.2 : Nat)
    some (if x.negative then -n else n)
  else none

end Binary

end ResourceTable
