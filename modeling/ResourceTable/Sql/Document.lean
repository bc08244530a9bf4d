import ResourceTable.Sql.Fault
import ResourceTable.Text.Hex

/-!
# Documents in cells

A cell can hold the text of a document.  Numbers and texts of a document keep the way
they are written, so that a part of a document is shown as it stands there; only
what the strict form of the format has no place for is written anew.

## Main definitions

* `TextUnit`: a character of a text with the way it is written.
* `Document`: the documents, with `Document.written`.
* `Document.value`, `Document.kind`, `Document.length`, `Document.elements`: what
  statements see of a part.
-/

namespace ResourceTable.Sql

/-! ### Texts -/

/-- A unit of a text in a document. -/
structure TextUnit where
  /-- How the unit is written between double quotes. -/
  written : List Char
  /-- The code point that it stands for; the end of a line that is passed over stands
  for none. -/
  point : Option Nat
  deriving DecidableEq, Repr

namespace TextUnit

/-- The code point of a pair of surrogates. -/
def joined (high low : Nat) : Nat := (high % 1024) * 1024 + low % 1024 + 65536

/-- Whether a code point is the first of a pair of surrogates. -/
def isHigh (n : Nat) : Bool := n / 1024 == 54

/-- Whether a code point is the second of a pair of surrogates. -/
def isLow (n : Nat) : Bool := n / 1024 == 55

/-- The code points of a text; surrogates that follow each other are joined. -/
def points : List TextUnit → List Nat
  | [] => []
  | [u] => u.point.toList
  | u :: v :: rest =>
    match u.point, v.point with
    | some a, some b =>
      if isHigh a && isLow b then joined a b :: points rest else a :: points (v :: rest)
    | some a, none => a :: points (v :: rest)
    | none, _ => points (v :: rest)

/-- The bytes of a code point. -/
def pointBytes (n : Nat) : List UInt8 :=
  let tail (weight : Nat) : UInt8 := (128 + n / weight % 64).toUInt8
  if n < 128 then [n.toUInt8]
  else if n < 2048 then [(192 + n / 64).toUInt8, tail 1]
  else if n < 65536 then [(224 + n / 4096).toUInt8, tail 64, tail 1]
  else [(240 + n / 262144).toUInt8, tail 4096, tail 64, tail 1]

/-- The value of a text: bytes if a surrogate stands alone. -/
def value (units : List TextUnit) : Cell :=
  let ns := points units
  if ns.all Nat.isValidChar then .text (String.ofList (ns.map Char.ofNat))
  else .blob (ns.flatMap pointBytes)

/-- Whether a key is the given one; a null character ends it. -/
def names (key : String) (units : List TextUnit) : Bool :=
  (points units).takeWhile (· != 0) == key.toList.map Char.toNat

/-- The text between double quotes. -/
def quoted (units : List TextUnit) : List Char :=
  '"' :: (units.flatMap TextUnit.written ++ ['"'])

end TextUnit

/-! ### Documents -/

/-- A document. -/
inductive Document
  /-- Nothing. -/
  | null
  /-- A truth value. -/
  | bool (b : Bool)
  /-- A decimal integer, as it is written. -/
  | integer (written : List Char)
  /-- A hexadecimal integer. -/
  | hexInteger (negative : Bool) (n : Nat)
  /-- A fractional number, as it is written. -/
  | fraction (written : List Char)
  /-- A text. -/
  | text (units : List TextUnit)
  /-- A sequence. -/
  | array (items : List Document)
  /-- An object: its members as they are written. -/
  | object (members : List (List TextUnit × Document))
  deriving Repr

namespace Document

/-- What stands for a number that is too large. -/
def beyond : List Char := "9.0e999".toList

/-- A minus sign, if the number is negative. -/
def signed (negative : Bool) (cs : List Char) : List Char := if negative then '-' :: cs else cs

mutual

/-- The text of a document without blanks. -/
def written : Document → List Char
  | .null => "null".toList
  | .bool b => if b then "true".toList else "false".toList
  | .integer cs | .fraction cs => cs
  | .hexInteger negative n =>
    signed negative (if n < Nat.pow 2 64 then Nat.toDigits 10 n else beyond)
  | .text units => TextUnit.quoted units
  | .array items => '[' :: (writtenItems true items ++ [']'])
  | .object members => '\x7b' :: (writtenMembers true members ++ ['\x7d'])
termination_by structural d => d

/-- The texts of the items, each but the first after a comma. -/
def writtenItems (first : Bool) : List Document → List Char
  | [] => []
  | d :: rest => (if first then [] else [',']) ++ written d ++ writtenItems false rest
termination_by structural l => l

/-- The texts of the members, each but the first after a comma. -/
def writtenMembers (first : Bool) : List (List TextUnit × Document) → List Char
  | [] => []
  | m :: rest => (if first then [] else [',']) ++ writtenMember m ++ writtenMembers false rest
termination_by structural l => l

/-- The text of a member. -/
def writtenMember : List TextUnit × Document → List Char
  | (key, d) => TextUnit.quoted key ++ ':' :: written d
termination_by structural m => m

end

/-! ### Values -/

/-- The value of a decimal number, which has to have digits. -/
def numberValue (cs : List Char) : Except Fault Cell :=
  match NumberText.read? cs with
  | some t => .ok t.toCell
  | none => .error .malformedDocument

/-- The value of a hexadecimal integer, unless it has more than 64 bits. -/
def hexValue (negative : Bool) (n : Nat) : Except Fault Cell :=
  if n < Nat.pow 2 64 then .ok (.ofInt (if negative then -n else n))
  else .error .malformedDocument

/-- The value of a part: of a sequence or an object, its text. -/
def value : Document → Except Fault Cell
  | .null => .ok .null
  | .bool b => .ok (.ofInt (if b then 1 else 0))
  | .integer cs | .fraction cs => numberValue cs
  | .hexInteger negative n => hexValue negative n
  | .text units => .ok (TextUnit.value units)
  | .array items => .ok (.text (String.ofList (written (.array items))))
  | .object members => .ok (.text (String.ofList (written (.object members))))

/-- The name of the kind of a part. -/
def kind : Document → String
  | .null => "null"
  | .bool true => "true"
  | .bool false => "false"
  | .integer _ | .hexInteger _ _ => "integer"
  | .fraction _ => "real"
  | .text _ => "text"
  | .array _ => "array"
  | .object _ => "object"

/-- The number of elements of a part that is a sequence; else zero. -/
def length : Document → Nat
  | .array items => items.length
  | _ => 0

/-- The elements of a sequence, those of the members of an object, or the part
itself. -/
def elements : Document → List Document
  | .array items => items
  | .object members => members.map Prod.snd
  | d => [d]

end Document

end ResourceTable.Sql
