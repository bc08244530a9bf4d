import ResourceTable.IntType
import ResourceTable.Json.Printer
import ResourceTable.Text.Quoted

/-!
# Decoding JSON into typed data

Requests arrive as JSON values and are decoded into typed data.  What does not fit
is reported by what was found and what was expected in its place.

An alternative of a fixed set is written as its name, or as an object with that
name as its only member and null under it.  A record is written as an object, or
as a sequence of its fields in order.

## Main definitions

* `Found`, `DecodeError`: what went wrong, with its `message`.
* `Json.decodeBool`, `Json.decodeInt`, `Json.decodeText`, `Json.decodeList`,
  `Json.decodeChoice`: the building blocks.
* `Json.decodeMembers`, `Json.decodeFields`: the two forms of a record.
-/

namespace ResourceTable

/-- What was found where something else was expected. -/
inductive Found
  /-- The null value. -/
  | null
  /-- A truth value. -/
  | bool (b : Bool)
  /-- An integer. -/
  | integer (n : Int)
  /-- A fractional number. -/
  | fractional (x : Double)
  /-- A text. -/
  | string (s : String)
  /-- A sequence. -/
  | sequence
  /-- An object. -/
  | map
  deriving DecidableEq, Repr

namespace Found

/-- What a JSON value is, when it is not what was expected. -/
def ofJson : Json → Found
  | .null => null
  | .bool b => bool b
  | .number (.integer n) => integer n
  | .number (.double x) => fractional x
  | .string s => string s
  | .array _ => sequence
  | .object _ => map

/-- The wording. -/
def text : Found → String
  | null => "null"
  | bool b => "boolean `" ++ (if b then "true" else "false") ++ "`"
  | integer n => "integer `" ++ String.ofList (Json.Number.integer n).chars ++ "`"
  | fractional x => "floating point `" ++ String.ofList (Json.Number.double x).chars ++ "`"
  | string s => "string " ++ Text.quoted s
  | sequence => "sequence"
  | map => "map"

end Found

/-- Why a JSON value could not be decoded. -/
inductive DecodeError
  /-- Another kind of value was expected. -/
  | invalidType (found : Found) (expected : String)
  /-- The kind of value was right, but not the value. -/
  | invalidValue (found : Found) (expected : String)
  /-- The name is none of the alternatives. -/
  | unknownVariant (name : String) (choices : List String)
  /-- A member without default is missing. -/
  | missingField (name : String)
  /-- The sequence has another length. -/
  | invalidLength (length : Nat) (expected : String)
  /-- A reason of the decoded type's own. -/
  | custom (text : String)
  deriving DecidableEq, Repr

namespace DecodeError

/-- The alternatives, in words. -/
def choiceText (choices : List String) : String :=
  let ticked := choices.map fun c => "`" ++ c ++ "`"
  match ticked with
  | [] => "there are no variants"
  | [a] => "expected " ++ a
  | [a, b] => "expected " ++ a ++ " or " ++ b
  | _ => "expected one of " ++ String.intercalate ", " ticked

/-- The wording. -/
def message : DecodeError → String
  | invalidType found expected => "invalid type: " ++ found.text ++ ", expected " ++ expected
  | invalidValue found expected => "invalid value: " ++ found.text ++ ", expected " ++ expected
  | unknownVariant name choices => "unknown variant `" ++ name ++ "`, " ++ choiceText choices
  | missingField name => "missing field `" ++ name ++ "`"
  | invalidLength length expected =>
    "invalid length " ++ toString length ++ ", expected " ++ expected
  | custom text => text

end DecodeError

namespace Json

/-- The result of decoding. -/
abbrev Decoded (α : Type) := Except DecodeError α

/-- A value of another kind than expected. -/
def unexpected {α : Type} (j : Json) (expected : String) : Decoded α :=
  .error (.invalidType (.ofJson j) expected)

/-- A truth value. -/
def decodeBool : Json → Decoded Bool
  | .bool b => .ok b
  | j => unexpected j "a boolean"

/-- An integer of a type. -/
def decodeInt (t : IntType) : Json → Decoded (FixedInt t)
  | .number (.integer n) =>
    match FixedInt.ofInt? t n with
    | some x => .ok x
    | none => .error (.invalidValue (.integer n) t.name)
  | j => unexpected j t.name

/-- A text. -/
def decodeText : Json → Decoded String
  | .string s => .ok s
  | j => unexpected j "a string"

/-- A value that may be null. -/
def decodeOption {α : Type} (decode : Json → Decoded α) : Json → Decoded (Option α)
  | .null => .ok none
  | j => (decode j).map some

/-- A sequence whose items are decoded alike. -/
def decodeList {α : Type} (decode : Json → Decoded α) : Json → Decoded (List α)
  | .array items => items.mapM decode
  | j => unexpected j "a sequence"

/-- One of the alternatives, by its name. -/
def chooseByName {α : Type} (choices : List (String × α)) (name : String) : Decoded α :=
  match choices.lookup name with
  | some a => .ok a
  | none => .error (.unknownVariant name (choices.map Prod.fst))

/-- One of the alternatives. -/
def decodeChoice {α : Type} (choices : List (String × α)) : Json → Decoded α
  | .string name => chooseByName choices name
  | .object [(name, content)] => do
    let a ← chooseByName choices name
    match content with
    | .null => return a
    | j => unexpected j "unit"
  | .object _ => .error (.invalidValue .map "map with a single key")
  | j => unexpected j "string or map"

/-- One field of a record of type `α`: its name, and how its value changes the
record. -/
structure FieldDecoder (α : Type) where
  /-- The name of the member. -/
  name : String
  /-- Stores the decoded value. -/
  store : α → Json → Decoded α

/-- Decodes the members of an object, in their order, into a record that holds the
defaults; members that are no field are passed over. -/
def decodeMembers {α : Type} (fields : List (FieldDecoder α)) (initial : α)
    (members : List (String × Json)) : Decoded α :=
  members.foldlM (fun acc member =>
    match fields.find? (·.name == member.1) with
    | some field => field.store acc member.2
    | none => .ok acc) initial

/-- Decodes a sequence of fields in order into a record that holds the defaults,
and gives back the fields and items that are left. -/
def decodeFields {α : Type} :
    List (FieldDecoder α) → α → List Json → Decoded (α × List (FieldDecoder α) × List Json)
  | field :: fields, acc, j :: rest => do decodeFields fields (← field.store acc j) rest
  | fields, acc, rest => .ok (acc, fields, rest)

/-- The items of a sequence are all used up. -/
def noneLeft (items rest : List Json) : Decoded Unit :=
  if rest.isEmpty then .ok ()
  else .error (.invalidLength items.length "fewer elements in array")

/-- A record in either form; fields that are missing keep their defaults. -/
def decodeRecord {α : Type} (name : String) (fields : List (FieldDecoder α)) (initial : α) :
    Json → Decoded α
  | .object members => decodeMembers fields initial members
  | .array items => do
    let (a, _, rest) ← decodeFields fields initial items
    noneLeft items rest
    return a
  | j => unexpected j ("struct " ++ name)

end Json

end ResourceTable
