/-!
# Hexadecimal digits

## Main definitions

* `hexValue?`, `natOfHex?`, `bytesOfHex?`: reading.
* `paddedHex`, `hexOfBytes`: writing, in lower case.
-/

namespace ResourceTable

/-- The value of a hexadecimal digit. -/
def hexValue? (c : Char) : Option Nat :=
  if c.isDigit then some (c.toNat - '0'.toNat)
  else if 'a' ≤ c ∧ c ≤ 'f' then some (c.toNat - 'a'.toNat + 10)
  else if 'A' ≤ c ∧ c ≤ 'F' then some (c.toNat - 'A'.toNat + 10)
  else none

/-- The natural number of hexadecimal digits. -/
def natOfHex? (cs : List Char) : Option Nat :=
  cs.foldlM (fun n c => (hexValue? c).map fun d => n * 16 + d) 0

/-- The hexadecimal digits of a number, zeros put before them up to the width. -/
def paddedHex (width n : Nat) : List Char :=
  let digits := Nat.toDigits 16 n
  List.replicate (width - digits.length) '0' ++ digits

/-- The bytes of pairs of hexadecimal digits. -/
def bytesOfHex? : List Char → Option (List UInt8)
  | [] => some []
  | [_] => none
  | high :: low :: rest => do
    let byte ← natOfHex? [high, low]
    return byte.toUInt8 :: (← bytesOfHex? rest)

/-- The pairs of hexadecimal digits of bytes. -/
def hexOfBytes (bytes : List UInt8) : List Char :=
  bytes.flatMap fun byte => paddedHex 2 byte.toNat

end ResourceTable
