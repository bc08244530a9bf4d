import ResourceTable.Calendar.Text
import ResourceTable.Json.Printer
import ResourceTable.Text.Quoted
import ResourceTable.Value

/-!
# Described values

Diagnostics show a value with the name of its type, and say of a null that nothing
is there: `BigInt(Some(3))`, `String(None)`.

## Main definitions

* `Value.typeName`: the name of a value's type.
* `Value.describe`: a value as diagnostics show it.
-/

namespace ResourceTable

/-- Described fractional numbers from `0.0001` up to below ten to the sixteenth are
written positionally; the exponent of others has no plus sign.  Of two equally near
texts the greater one is written. -/
def describedLayout : Layout where
  positional p := -4 ≤ p && p < 16
  plusSign := false
  pointAlways := false
  exponentDigits := 1
  tie := .up

namespace Json

mutual

/-- A document as diagnostics show it. -/
def describe : Json → String
  | .null => "Null"
  | .bool b => "Bool(" ++ (if b then "true" else "false") ++ ")"
  | .number n => "Number(" ++ String.ofList n.chars ++ ")"
  | .string s => "String(" ++ Text.quoted s ++ ")"
  | .array items => "Array [" ++ describeItems true items ++ "]"
  | .object members => "Object \x7b" ++ describeMembers true members ++ "\x7d"
termination_by structural j => j

/-- The described items, each but the first after a comma. -/
def describeItems (first : Bool) : List Json → String
  | [] => ""
  | j :: rest => (if first then "" else ", ") ++ describe j ++ describeItems false rest
termination_by structural l => l

/-- The described members, each but the first after a comma. -/
def describeMembers (first : Bool) : List (String × Json) → String
  | [] => ""
  | m :: rest => (if first then "" else ", ") ++ describeMember m ++ describeMembers false rest
termination_by structural l => l

/-- A described member. -/
def describeMember : String × Json → String
  | (name, j) => Text.quoted name ++ ": " ++ describe j
termination_by structural m => m

end

end Json

namespace Value

/-- The name of the value's type. -/
def typeName : Value → String
  | .bool _ => "Bool"
  | .integer .i8 _ => "TinyInt"
  | .integer .i16 _ => "SmallInt"
  | .integer .i32 _ => "Int"
  | .integer .i64 _ => "BigInt"
  | .integer .u8 _ => "TinyUnsigned"
  | .integer .u16 _ => "SmallUnsigned"
  | .integer .u32 _ => "Unsigned"
  | .integer .u64 _ => "BigUnsigned"
  | .single _ => "Float"
  | .double _ => "Double"
  | .string _ => "String"
  | .char _ => "Char"
  | .bytes _ => "Bytes"
  | .json _ => "Json"
  | .date _ => "ChronoDate"
  | .time _ => "ChronoTime"
  | .dateTime _ => "ChronoDateTime"
  | .timestamp _ => "ChronoDateTimeUtc"
  | .machineTime _ => "ChronoDateTimeLocal"
  | .zoned _ => "ChronoDateTimeWithTimeZone"

/-- The described content of a value that is not null. -/
def content? : Value → Option String
  | .bool v => v.map fun b => if b then "true" else "false"
  | .integer _ v => v.map fun n => String.ofList (Json.integerChars n.val)
  | .single v => v.map fun x => String.ofList (x.text describedLayout)
  | .double v => v.map fun x => String.ofList (x.text describedLayout)
  | .string v => v.map Text.quoted
  | .char v => v.map Text.quotedChar
  | .bytes v => v.map fun b =>
      "[" ++ String.intercalate ", " (b.map fun byte => toString byte.toNat) ++ "]"
  | .json v => v.map Json.describe
  | .date v => v.map Date.text
  | .time v => v.map TimeOfDay.text
  | .dateTime v => v.map (LocalDateTime.text 'T')
  | .timestamp v => v.map (Timestamp.text .needed)
  | .machineTime v => v.map ZonedDateTime.text
  | .zoned v => v.map ZonedDateTime.text

/-- A value as diagnostics show it. -/
def describe (v : Value) : String :=
  match v.content? with
  | some s => v.typeName ++ "(Some(" ++ s ++ "))"
  | none => v.typeName ++ "(None)"

end Value

end ResourceTable
