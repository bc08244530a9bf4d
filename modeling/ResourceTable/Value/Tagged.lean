import ResourceTable.Calendar.Reader
import ResourceTable.Json.Reader
import ResourceTable.Text.Hex
import ResourceTable.Value.Description

/-!
# Tagged values

A tagged value is a JSON object with the type of a value under `t` and its content
under `v`, null for a null.  Contents are texts, but for truth values: numbers in
decimal, the bits of fractional numbers and bytes in hexadecimal, so that nothing
is lost.

## Main definitions

* `Value.toTagged`, `Value.ofTagged?`.
-/

namespace ResourceTable

namespace Value

/-! ### Writing -/

/-- A text under a tag. -/
def taggedText {α : Type} (text : α → String) (v : Option α) : Json :=
  v.elim .null fun a => .string (text a)

/-- The content of a tagged value. -/
def taggedContent : Value → Json
  | .bool v => v.elim .null .bool
  | .integer _ v => taggedText (fun n => toString n.val) v
  | .single v => taggedText (fun x => String.ofList (paddedHex 8 x.bits)) v
  | .double v => taggedText (fun x => String.ofList (paddedHex 16 x.bits)) v
  | .string v => taggedText id v
  | .char v => taggedText String.singleton v
  | .bytes v => taggedText (fun b => String.ofList (hexOfBytes b)) v
  | .json v => taggedText Json.text v
  | .date v => taggedText Date.text v
  | .time v => taggedText TimeOfDay.text v
  | .dateTime v => taggedText (LocalDateTime.text ' ') v
  | .timestamp v => taggedText (Timestamp.text .nanos) v
  | .machineTime v => taggedText ZonedDateTime.text v
  | .zoned v => taggedText ZonedDateTime.text v

/-- The members of a tagged value. -/
def taggedMembers (v : Value) : List (String × Json) :=
  [("t", .string v.typeName), ("v", v.taggedContent)]

/-- The tagged value. -/
def toTagged (v : Value) : Json := .object v.taggedMembers

/-! ### Reading -/

/-- The content of a text, or nothing for null. -/
def contentOf? {α : Type} (read : List Char → Option α) : Json → Option (Option α)
  | .null => some none
  | .string s => (read s.toList).map some
  | _ => none

/-- The number of a decimal text. -/
def intOfText? (cs : List Char) : Option Int := (String.ofList cs).toInt?

/-- The number of a type of a decimal text. -/
def fixedIntOf? (t : IntType) (cs : List Char) : Option (FixedInt t) :=
  (intOfText? cs).bind (FixedInt.ofInt? t)

/-- The date and time of a text with a `T` or a blank between them. -/
def localOf? (cs : List Char) : Option LocalDateTime :=
  LocalDateTime.read? (cs.map fun c => if c = 'T' then ' ' else c)

/-- The time of day of a text. -/
def timeOf? (cs : List Char) : Option TimeOfDay :=
  (localOf? ("1970-01-01 ".toList ++ cs)).map LocalDateTime.time

/-- The document of a text of any depth. -/
def documentOf? (cs : List Char) : Option Json := (Json.read (cs.length + 1) cs).map Json.canonical

/-- The fractional number of bits in hexadecimal. -/
def binaryOf? {f : Binary.Format} (cs : List Char) : Option (Binary f) :=
  (natOfHex? cs).map .ofBits

/-- The value of a type and a content. -/
def ofTag? (tag : String) (v : Json) : Option Value :=
  let integer (t : IntType) : Option Value := (contentOf? (fixedIntOf? t) v).map (.integer t)
  match tag with
  | "Bool" =>
    match v with
    | .null => some (.bool none)
    | .bool b => some (.bool (some b))
    | _ => none
  | "TinyInt" => integer .i8
  | "SmallInt" => integer .i16
  | "Int" => integer .i32
  | "BigInt" => integer .i64
  | "TinyUnsigned" => integer .u8
  | "SmallUnsigned" => integer .u16
  | "Unsigned" => integer .u32
  | "BigUnsigned" => integer .u64
  | "Float" => (contentOf? binaryOf? v).map .single
  | "Double" => (contentOf? binaryOf? v).map .double
  | "String" => (contentOf? (fun cs => some (String.ofList cs)) v).map .string
  | "Char" => (contentOf? List.head? v).map .char
  | "Bytes" => (contentOf? bytesOfHex? v).map .bytes
  | "Json" => (contentOf? documentOf? v).map .json
  | "ChronoDate" => (contentOf? Date.read? v).map .date
  | "ChronoTime" => (contentOf? timeOf? v).map .time
  | "ChronoDateTime" => (contentOf? localOf? v).map .dateTime
  | "ChronoDateTimeUtc" => (contentOf? Timestamp.read? v).map .timestamp
  | "ChronoDateTimeLocal" => (contentOf? readInternet v).map .machineTime
  | "ChronoDateTimeWithTimeZone" => (contentOf? readInternet v).map .zoned
  | _ => none

/-- The value of a tagged value. -/
def ofTagged? (j : Json) : Option Value :=
  match j.get? "t" with
  | some (.string tag) => ofTag? tag ((j.get? "v").getD .null)
  | _ => none

end Value

end ResourceTable
