import ResourceTable.Filter.Validation
import ResourceTable.Filter.Wire
import ResourceTable.Page

/-!
# List requests

A list request has a filter, a page and the fields that are wanted of every row.

## Main definitions

* `ListRequest`, `ListRequest.ofJson`.
* `ListRequest.validate`: the filter of an acceptable request.
-/

namespace ResourceTable

/-- A request for rows. -/
structure ListRequest where
  /-- The rows that are wanted. -/
  filter : Option Filter := none
  /-- The page of them. -/
  page : Page := {}
  /-- The columns that are wanted; all of them, if none is named. -/
  fields : List String := []
  deriving DecidableEq

namespace ListRequest

/-- Reads the filter of a request. -/
def filterOfJson (j : Json) : Json.Decoded Filter :=
  (Filter.ofJson j).mapError fun e => .custom e.message

/-- The members of a request on the wire. -/
def members : List (Json.FieldDecoder ListRequest) :=
  [⟨"filter", fun r j => do return { r with filter := ← j.decodeOption filterOfJson }⟩,
    ⟨"page", fun r j => do return { r with page := ← Page.ofJson j }⟩,
    ⟨"fields", fun r j => do return { r with fields := ← j.decodeList Json.decodeText }⟩]

/-- Reads a request. -/
def ofJson (j : Json) : Checked ListRequest :=
  (j.decodeRecord "ListOption" members {}).mapError .undecodable

/-- Every field is known. -/
def checkFields (fields : Schema) (names : List String) : Checked Unit :=
  match names.find? fun name => !fields.contains name with
  | some name => .error (.unknownListField name)
  | none => .ok ()

/-- The filter of a request that asks for what it may. -/
def validate (r : ListRequest) (rules : FilterRules) (pages : PageRules) :
    Checked (ValidFilter rules) :=
  match r.filter with
  | none => .error .filterRequired
  | some filter => do
    let valid ← filter.validate rules
    r.page.check pages rules.fields
    checkFields rules.fields r.fields
    return valid

end ListRequest

end ResourceTable
