import ResourceTable.Binary

/-!
# Paired numbers

A pair of 64-bit numbers stands for its sum: a number near to the value, and one
near to what the first lacks.  Decimal text is turned into binary numbers and back
by multiplying pairs with powers of ten, which keeps about twice the digits of one
number and rounds at the end.  The result is not always the nearest number; it is
the one that these multiplications give.

## Main definitions

* `Paired.ofRatio`: the pair of a quotient.
* `Paired.mul`: the product of pairs.
* `Paired.scale`: repeated multiplication with powers of ten.
-/

namespace ResourceTable

/-- A number kept as the sum of two. -/
structure Paired where
  /-- A number near to the value. -/
  near : Double
  /-- A number near to what the first one lacks. -/
  rest : Double
  deriving DecidableEq, Repr

namespace Paired

/-- The number nearest to a quotient, and the number nearest to what it lacks. -/
def ofRatio (num den : Nat) : Paired :=
  let near : Double := .ofRatio false num den
  let lacking : Int := num * near.ratio.2 - near.ratio.1 * den
  ⟨near, .ofRatio (lacking < 0) lacking.natAbs (den * near.ratio.2)⟩

/-- The pair of ten to the `n`. -/
def powerOfTen (n : Int) : Paired :=
  if 0 ≤ n then ofRatio (Nat.pow 10 n.toNat) 1 else ofRatio 1 (Nat.pow 10 (-n).toNat)

/-- The leading 26 bits of the fraction, which leave room for an exact product. -/
def leading (x : Double) : Double := .ofBits (x.bits - x.bits % Nat.pow 2 26)

/-- The product of two pairs, without the product of what both lack. -/
def mul (x y : Paired) : Paired :=
  let a := leading x.near
  let b := x.near.sub a
  let c := leading y.near
  let d := y.near.sub c
  let main := a.mul c
  let cross := (a.mul d).add (b.mul c)
  let near := main.add cross
  let rest := (((main.sub near).add cross)).add (b.mul d)
  let rest := ((x.near.mul y.rest).add (x.rest.mul y.near)).add rest
  let sum := near.add rest
  ⟨sum, (near.sub sum).add rest⟩

/-- The number that the pair stands for, rounded once. -/
def toDouble (x : Paired) : Double := x.near.add x.rest

/-- Multiplies with the powers of ten to the given exponents, each as often as it
fits, until an exponent of at least zero is used up. -/
def scaleBy (sign : Int) : List Nat → Nat → Paired → Paired
  | [], _, x => x
  | step :: steps, e, x =>
    let factor := powerOfTen (sign * step)
    scaleBy sign steps (e % step) (Nat.repeat (mul · factor) (e / step) x)

/-- The pair times ten to the `e`. -/
def scale (e : Int) (x : Paired) : Paired :=
  scaleBy (if e < 0 then -1 else 1) [100, 10, 1] e.natAbs x

end Paired

end ResourceTable
