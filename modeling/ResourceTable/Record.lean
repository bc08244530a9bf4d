import ResourceTable.Error
import ResourceTable.Record.Document

/-!
# Records

A record type lists its fields in order.  A field has a name, the column it is
stored in, if it has one, and a type: a scalar, an optional field, or a record,
whose fields are stored in columns of their own.  The content of a record has a
component for every field.

Flattening a record gives the value of every column.  Of two fields with the same
column the one declared later counts.

## Main definitions

* `ScalarType`, `FieldType`, `Fields`, `RecordType`.
* `Record`: a record with its type.
* `Leaf`: the value of a column and how its field is declared.
* `Record.flatten`.
-/

namespace ResourceTable

/-- The type of a field that is stored in one column. -/
inductive ScalarType
  /-- A truth value. -/
  | bool
  /-- An integer of a type. -/
  | integer (t : IntType)
  /-- A 32-bit floating-point number. -/
  | single
  /-- A 64-bit floating-point number. -/
  | double
  /-- A character. -/
  | char
  /-- A text. -/
  | string
  /-- A sequence of bytes. -/
  | bytes
  /-- A moment in UTC. -/
  | timestamp
  /-- A day. -/
  | date
  /-- A JSON value. -/
  | json
  /-- A document of a type. -/
  | document (t : DocumentType)

namespace ScalarType

/-- The content of a field of the type. -/
def Content : ScalarType → Type
  | bool => Bool
  | integer t => FixedInt t
  | single => Single
  | double => Double
  | char => Char
  | string => String
  | bytes => List UInt8
  | timestamp => Timestamp
  | date => Date
  | json => Json
  | document _ => Json

/-- The content of a field that was never set. -/
def blank : (s : ScalarType) → s.Content
  | bool => false
  | integer t => FixedInt.zero t
  | single => Binary.zero false
  | double => Binary.zero false
  | char => Char.ofNat 0
  | string => ""
  | bytes => []
  | timestamp => Timestamp.epoch
  | date => Date.epoch
  | json => Json.null
  | document t => t.blank

end ScalarType

mutual

/-- The type of a field. -/
inductive FieldType
  /-- A field stored in one column. -/
  | scalar (s : ScalarType)
  /-- A field that may be absent. -/
  | optional (t : FieldType)
  /-- A record whose fields are stored in columns of their own. -/
  | record (name : String) (fields : Fields)

/-- The fields of a record in order. -/
inductive Fields
  /-- No more fields. -/
  | nil
  /-- A field with its name, its column and its type, and the fields after it. -/
  | cons (name : String) (column : Option String) (type : FieldType) (rest : Fields)

end

mutual

/-- The content of a field of the type. -/
def FieldType.Content : FieldType → Type
  | .scalar s => s.Content
  | .optional t => Option t.Content
  | .record _ fields => fields.Content

/-- The contents of the fields in order. -/
def Fields.Content : Fields → Type
  | .nil => Unit
  | .cons _ _ t rest => t.Content × rest.Content

end

/-- The type of a record. -/
structure RecordType where
  /-- The name, which diagnostics show. -/
  name : String
  /-- The fields in order. -/
  fields : Fields

/-- The content of a record of the type. -/
abbrev RecordType.Content (r : RecordType) : Type := r.fields.Content

/-- A record with its type. -/
structure Record where
  /-- The type. -/
  type : RecordType
  /-- The content of the fields. -/
  content : type.Content

/-! ### Flattening -/

/-- How the field of a column is declared, which decides when an update writes
it. -/
inductive LeafKind
  /-- A plain value. -/
  | scalar
  /-- A value that may be absent. -/
  | optional
  /-- A document. -/
  | codec
  deriving DecidableEq, Repr

namespace LeafKind

/-- The name of the kind. -/
def name : LeafKind → String
  | scalar => "scalar"
  | optional => "optional"
  | codec => "codec"

/-- The kind of a field that may be absent. -/
def asOptional : LeafKind → LeafKind
  | scalar => optional
  | kind => kind

end LeafKind

/-- The value of a column. -/
structure Leaf where
  /-- The value to bind. -/
  value : Value
  /-- How the field is declared. -/
  kind : LeafKind
  deriving DecidableEq

namespace Leaf

/-- Whether the value is null. -/
def isNull (l : Leaf) : Bool := l.value.isNull

/-- The leaf of a field that may be absent. -/
def asOptional (l : Leaf) : Leaf := { l with kind := l.kind.asOptional }

end Leaf

/-- The value of every column of a record. -/
abbrev Flattened := NameMap Leaf

namespace ScalarType

/-- The leaf of a JSON value; null is a null document. -/
def documentLeaf (j : Json) : Leaf := ⟨.json (if j.isNull then none else some j), .codec⟩

/-- The leaf of a field's content. -/
def leaf : (s : ScalarType) → s.Content → Leaf
  | bool, b => ⟨.bool (some b), .scalar⟩
  | integer t, n => ⟨.integer t (some n), .scalar⟩
  | single, x => ⟨.single (some x), .scalar⟩
  | double, x => ⟨.double (some x), .scalar⟩
  | char, c => ⟨.char (some c), .scalar⟩
  | string, s => ⟨.string (some s), .scalar⟩
  | bytes, b => ⟨.bytes (some b), .scalar⟩
  | timestamp, t => ⟨.timestamp (some t), .scalar⟩
  | date, d => ⟨.date (some d), .scalar⟩
  | json, j => documentLeaf j
  | document _, j => documentLeaf j

/-- The leaf of an absent field. -/
def absentLeaf : ScalarType → Leaf
  | bool => ⟨.bool none, .optional⟩
  | integer t => ⟨.integer t none, .optional⟩
  | single => ⟨.single none, .optional⟩
  | double => ⟨.double none, .optional⟩
  | char => ⟨.char none, .optional⟩
  | string => ⟨.string none, .optional⟩
  | bytes => ⟨.bytes none, .optional⟩
  | timestamp => ⟨.timestamp none, .optional⟩
  | date => ⟨.date none, .optional⟩
  | json => documentLeaf .null
  | document _ => documentLeaf .null

end ScalarType

namespace FieldType

/-- Stores what an absent field leaves in its column; an absent record leaves
nothing. -/
def storeAbsent (column : String) : FieldType → Flattened → Flattened
  | .scalar s, flat => flat.insert column s.absentLeaf
  | .optional t, flat => t.storeAbsent column flat
  | .record _ _, flat => flat

end FieldType

mutual

/-- Stores the content of a field under its column; `mayLack` says that the field is
the inside of an optional one. -/
def FieldType.store (column : String) : (t : FieldType) → (mayLack : Bool) → t.Content →
    Flattened → Checked Flattened
  | .scalar s, mayLack, x, flat =>
    let leaf := s.leaf x
    .ok (flat.insert column (if mayLack then leaf.asOptional else leaf))
  | .optional t, _, x, flat =>
    match x with
    | none => .ok (t.storeAbsent column flat)
    | some x => t.store column true x flat
  | .record name fields, _, x, flat => fields.store name x flat

/-- Stores the contents of the fields of the record `name`. -/
def Fields.store (name : String) : (fields : Fields) → fields.Content → Flattened →
    Checked Flattened
  | .nil, _, flat => .ok flat
  | .cons field none _ _, _, _ => .error (.unmappedField name field)
  | .cons _ (some column) t rest, (x, xs), flat => do
    let flat ← t.store column false x flat
    rest.store name xs flat

end

/-! ### Assigning -/

mutual

/-- The content with another text in the text field of a column, if there is one. -/
def FieldType.withText (column own text : String) : (t : FieldType) → t.Content → t.Content
  | .scalar .string, x => if own = column then text else x
  | .scalar .bool, x | .scalar (.integer _), x | .scalar .single, x | .scalar .double, x
  | .scalar .char, x | .scalar .bytes, x | .scalar .timestamp, x | .scalar .date, x
  | .scalar .json, x | .scalar (.document _), x => x
  | .optional _, x => x
  | .record _ fields, x => fields.withText column text x

/-- The contents with another text in the text fields of a column. -/
def Fields.withText (column text : String) : (fields : Fields) → fields.Content → fields.Content
  | .nil, x => x
  | .cons name own t rest, (x, xs) =>
    (t.withText column (own.getD name) text x, rest.withText column text xs)

end

namespace Record

/-- The name of the record's type. -/
def name (r : Record) : String := r.type.name

/-- The value of every column. -/
def flatten (r : Record) : Checked Flattened :=
  r.type.fields.store r.type.name r.content .empty

end Record

end ResourceTable
