import ResourceTable.Calendar.Reader
import ResourceTable.Json.Reader
import ResourceTable.Record
import ResourceTable.Text.Utf8

/-!
# Rows

A row holds the fetched values of columns.  A record is read from a row field by
field.  A column that was not fetched, or is null, gives the content of a field
that was never set; a value that the field cannot hold is refused.

## Main definitions

* `Row`, `Row.hasValue`.
* `ScalarType.fetch`, `FieldType.fetch`, `Fields.fetch`.
* `RecordType.ofRow`: reads a record.
-/

namespace ResourceTable

/-- The fetched values of columns, by name. -/
abbrev Row := NameMap Value

namespace Row

/-- Whether the column was fetched with a value that is not null. -/
def hasValue (row : Row) (column : String) : Bool :=
  (row.get? column).any fun v => !v.isNull

/-- Reads a column by `convert`, whose result the words `expected` name. -/
def fetchWith {α : Type} (row : Row) (column expected : String) (blank : α)
    (convert : Value → Option α) : Checked α :=
  match row.get? column with
  | none => .ok blank
  | some v =>
    if v.isNull then .ok blank
    else
      match convert v with
      | some a => .ok a
      | none => .error (.notDecodable column expected v)

end Row

namespace Value

/-- The signed 64-bit integer that the value stands for. -/
def toInt64? (v : Value) : Option Int := v.toInt?.filter fun n => IntType.i64.Holds n

/-- The 64-bit floating-point number that the value stands for. -/
def toDouble? : Value → Option Double
  | .double (some x) => some x
  | .single (some x) => some x.convert
  | v => v.toInt64?.map .ofInt

/-- The 32-bit floating-point number that the value stands for. -/
def toSingle? : Value → Option Single
  | .single (some x) => some x
  | .double (some x) => some x.convert
  | v => v.toInt64?.map .ofInt

/-- The character that the value stands for; of a text, the first. -/
def toChar? : Value → Option Char
  | .char (some c) => some c
  | .string (some s) => s.toList.head?
  | _ => none

/-- The text that the value stands for. -/
def toText? : Value → Option String
  | .string (some s) => some s
  | .char (some c) => some (String.singleton c)
  | _ => none

/-- The bytes that the value stands for. -/
def toBytes? : Value → Option (List UInt8)
  | .bytes (some b) => some b
  | .string (some s) => some (utf8Bytes s)
  | _ => none

/-- The moment that the value stands for. -/
def toTimestamp? : Value → Option Timestamp
  | .timestamp (some t) => some t
  | _ => none

/-- The day that the value stands for. -/
def toDate? : Value → Option Date
  | .date (some d) => some d
  | .string (some s) => Date.read? s.toList
  | _ => none

end Value

namespace Row

/-- Reads a moment; a text has to be that of a timestamp. -/
def fetchTimestamp (row : Row) (column : String) : Checked Timestamp :=
  match row.get? column with
  | some (.string (some s)) =>
    match Timestamp.read? s.toList with
    | some t => .ok t
    | none => .error (.unsupportedTimestamp s)
  | _ => row.fetchWith column "a timestamp" .epoch Value.toTimestamp?

/-- Reads a JSON value; a text or bytes have to be those of a document. -/
def fetchJson (row : Row) (column : String) : Checked Json :=
  let parsed (text : Option String) : Checked Json :=
    match text.bind Json.document? with
    | some j => .ok j
    | none => .error (.malformedDocument column)
  match row.get? column with
  | some (.string (some s)) => parsed (some s)
  | some (.bytes (some b)) => parsed (textOfBytes? b)
  | some (.json (some j)) => .ok j
  | some v => if v.isNull then .ok .null else .error (.notDecodable column "JSON" v)
  | none => .ok .null

/-- Reads a document of a type. -/
def fetchDocument (row : Row) (column : String) (t : DocumentType) : Checked Json := do
  let j ← row.fetchJson column
  if j.isNull then return t.blank
  match t.decode j with
  | .ok document => return document
  | .error e => .error (.documentMismatch column e)

end Row

namespace ScalarType

/-- Reads a field from its column. -/
def fetch (row : Row) (column : String) : (s : ScalarType) → Checked s.Content
  | bool => row.fetchWith column "boolean" false fun v => v.toInt64?.map (· != 0)
  | integer t =>
    row.fetchWith column t.name (FixedInt.zero t) fun v => v.toInt?.bind (FixedInt.ofInt? t)
  | single => row.fetchWith column "f32" (Binary.zero false) Value.toSingle?
  | double => row.fetchWith column "f64" (Binary.zero false) Value.toDouble?
  | char => row.fetchWith column "char" (Char.ofNat 0) Value.toChar?
  | string => row.fetchWith column "a string" "" Value.toText?
  | bytes => row.fetchWith column "binary" [] Value.toBytes?
  | timestamp => row.fetchTimestamp column
  | date => row.fetchWith column "a date" Date.epoch Value.toDate?
  | json => row.fetchJson column
  | document t => row.fetchDocument column t

end ScalarType

mutual

/-- Whether the row has a value for the field. -/
def FieldType.present (row : Row) (column : String) : FieldType → Bool
  | .scalar _ => row.hasValue column
  | .optional t => t.present row column
  | .record _ fields => fields.present row

/-- Whether the row has a value for one of the fields. -/
def Fields.present (row : Row) : Fields → Bool
  | .nil => false
  | .cons name column t rest => t.present row (column.getD name) || rest.present row

end

mutual

/-- Reads a field from its column.  An optional field is there when the row has a
value for it. -/
def FieldType.fetch (row : Row) (column : String) : (t : FieldType) → Checked t.Content
  | .scalar s => s.fetch row column
  | .optional t =>
    if t.present row column then (t.fetch row column).map some else .ok none
  | .record _ fields => fields.fetch row

/-- Reads fields in order; a field without a column is read from that of its own
name. -/
def Fields.fetch (row : Row) : (fields : Fields) → Checked fields.Content
  | .nil => .ok ()
  | .cons name column t rest => do
    let x ← t.fetch row (column.getD name)
    let xs ← rest.fetch row
    return (x, xs)

end

namespace RecordType

/-- Reads the content of a record from a row. -/
def ofRow (r : RecordType) (row : Row) : Checked r.Content := r.fields.fetch row

end RecordType

end ResourceTable
