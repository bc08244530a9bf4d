import ResourceTable.NameMap
import ResourceTable.Wire

/-!
# Types of documents

A field can hold a document of a given type.  Decoding turns a JSON value into the
document's canonical form, in which only the fields of the type are left.

## Main definitions

* `DocumentType`: the types.
* `DocumentType.decode`: a JSON value as a document of a type.
* `DocumentType.blank`: the document of a field that was never set.
-/

namespace ResourceTable

/-- The type of a document. -/
inductive DocumentType
  /-- Any JSON value. -/
  | any
  /-- A text. -/
  | text
  /-- An integer of a type. -/
  | integer (t : IntType)
  /-- A sequence. -/
  | list (item : DocumentType)
  /-- An object with these members, none of which may be missing. -/
  | record (name : String) (fields : List (String × DocumentType))

namespace DocumentType

/-- The decoder of a member. -/
abbrev MemberDecoder := String × (Json → Json.Decoded Json)

/-- Decodes the members of an object in their order. -/
def decodeObject (decoders : List MemberDecoder) (members : List (String × Json)) :
    Json.Decoded (NameMap Json) :=
  members.foldlM (fun found member =>
    match decoders.find? (·.1 == member.1) with
    | some decoder => do return found.insert member.1 (← decoder.2 member.2)
    | none => .ok found) .empty

/-- Every member was found. -/
def complete (found : NameMap Json) : List MemberDecoder → Json.Decoded Json
  | [] => .ok (.object found.entries)
  | decoder :: rest =>
    if found.contains decoder.1 then complete found rest
    else .error (.missingField decoder.1)

/-- Decodes the items of a sequence as the members in order. -/
def decodeItems (expected : String) (decoders : List MemberDecoder) (items : List Json) :
    Json.Decoded Json :=
  let rec go (found : NameMap Json) (done : Nat) :
      List MemberDecoder → List Json → Json.Decoded Json
    | [], rest => do
      Json.noneLeft items rest
      return .object found.entries
    | _ :: _, [] => .error (.invalidLength done expected)
    | decoder :: decoders, j :: rest => do
      go (found.insert decoder.1 (← decoder.2 j)) (done + 1) decoders rest
  go .empty 0 decoders items

/-- Decodes an object, or a sequence of its members in order. -/
def decodeRecord (name : String) (decoders : List MemberDecoder) : Json → Json.Decoded Json
  | .object members => do complete (← decodeObject decoders members) decoders
  | .array items =>
    decodeItems ("struct " ++ name ++ " with " ++ toString decoders.length ++ " elements")
      decoders items
  | j => j.unexpected ("struct " ++ name)

mutual

/-- The document of the type that a JSON value stands for. -/
def decode : DocumentType → Json → Json.Decoded Json
  | .any, j => .ok j
  | .text, j => j.decodeText.map .string
  | .integer t, j => (j.decodeInt t).map fun n => .ofInt n.val
  | .list item, j => (j.decodeList (decode item)).map .array
  | .record name fields, j => decodeRecord name (decoders fields) j
termination_by structural t => t

/-- The decoders of the members. -/
def decoders : List (String × DocumentType) → List MemberDecoder
  | [] => []
  | field :: rest => decoder field :: decoders rest
termination_by structural l => l

/-- The decoder of a member. -/
def decoder : String × DocumentType → MemberDecoder
  | (name, t) => (name, decode t)
termination_by structural f => f

end

mutual

/-- The document of a field that was never set. -/
def blank : DocumentType → Json
  | .any => .null
  | .text => .string ""
  | .integer _ => .ofInt 0
  | .list _ => .array []
  | .record _ fields => .object (NameMap.ofList (blankMembers fields)).entries
termination_by structural t => t

/-- Members that were never set. -/
def blankMembers : List (String × DocumentType) → List (String × Json)
  | [] => []
  | field :: rest => blankMember field :: blankMembers rest
termination_by structural l => l

/-- A member that was never set. -/
def blankMember : String × DocumentType → String × Json
  | (name, t) => (name, blank t)
termination_by structural f => f

end

end DocumentType

end ResourceTable
