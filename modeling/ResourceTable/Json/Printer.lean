import ResourceTable.Decimal
import ResourceTable.Json
import ResourceTable.Text.Hex

/-!
# JSON text

Documents are stored and shown as compact JSON text: no blanks, members in the
order of the value, and no escape but those that the format demands.

## Main definitions

* `Json.numberLayout`: how fractional numbers are written.
* `Json.chars`, `Json.text`: the text of a value.
-/

namespace ResourceTable.Json

/-- Fractional numbers from `0.00001` up to below ten to the sixteenth are written
positionally, others with a signed exponent.  Of two equally near texts the even one
is written. -/
def numberLayout : Layout where
  positional p := -5 ≤ p && p < 16
  plusSign := true
  pointAlways := false
  exponentDigits := 1
  tie := .even

/-- The decimal text of an integer. -/
def integerChars (n : Int) : List Char :=
  if n < 0 then '-' :: Nat.toDigits 10 n.natAbs else Nat.toDigits 10 n.natAbs

/-- The text of a number. -/
def Number.chars : Number → List Char
  | .integer n => integerChars n
  | .double x => x.text numberLayout

/-- One character inside a quoted text. -/
def escape (c : Char) : List Char :=
  if c = '"' ∨ c = '\\' then ['\\', c]
  else if c.toNat = 8 then ['\\', 'b']
  else if c.toNat = 12 then ['\\', 'f']
  else if c = '\n' then ['\\', 'n']
  else if c = '\r' then ['\\', 'r']
  else if c = '\t' then ['\\', 't']
  else if c.toNat < 0x20 then '\\' :: 'u' :: paddedHex 4 c.toNat
  else [c]

/-- A quoted text. -/
def quoted (s : String) : List Char := '"' :: (s.toList.flatMap escape ++ ['"'])

mutual

/-- The text of a value. -/
def chars : Json → List Char
  | .null => ['n', 'u', 'l', 'l']
  | .bool true => ['t', 'r', 'u', 'e']
  | .bool false => ['f', 'a', 'l', 's', 'e']
  | .number n => n.chars
  | .string s => quoted s
  | .array items => '[' :: (itemChars true items ++ [']'])
  | .object members => '\x7b' :: (memberChars true members ++ ['\x7d'])
termination_by structural j => j

/-- The texts of the items, each but the first after a comma. -/
def itemChars (first : Bool) : List Json → List Char
  | [] => []
  | j :: rest => (if first then [] else [',']) ++ chars j ++ itemChars false rest
termination_by structural l => l

/-- The texts of the members, each but the first after a comma. -/
def memberChars (first : Bool) : List (String × Json) → List Char
  | [] => []
  | m :: rest => (if first then [] else [',']) ++ oneMember m ++ memberChars false rest
termination_by structural l => l

/-- The text of a member. -/
def oneMember : String × Json → List Char
  | (name, j) => quoted name ++ ':' :: chars j
termination_by structural m => m

end

/-- The text of a value. -/
def text (j : Json) : String := String.ofList j.chars

end ResourceTable.Json
