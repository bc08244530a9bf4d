import ResourceTable.Column
import ResourceTable.Filter
import ResourceTable.Value.Description
import ResourceTable.Wire

/-!
# What a request can get wrong

A request that cannot be compiled, or a row that cannot be decoded, is refused with
a cause.  Causes fall into four kinds, each with a stable code; the wording is a
function of the cause.

## Main definitions

* `ErrorKind`, with `ErrorKind.code`.
* `RequestError`: the causes, with `kind`, `description` and `message`.
-/

namespace ResourceTable

/-- The kinds of causes. -/
inductive ErrorKind
  /-- Something required is missing or malformed. -/
  | invalidParameter
  /-- A name is not that of a column. -/
  | schemaViolation
  /-- An operator or value does not suit the type of a column. -/
  | typeMismatch
  /-- A field of a record has no column. -/
  | unmappedField
  deriving DecidableEq, Repr

namespace ErrorKind

/-- The stable code. -/
def code : ErrorKind → String
  | invalidParameter => "invalid_parameter"
  | schemaViolation => "schema_violation"
  | typeMismatch => "type_mismatch"
  | unmappedField => "missing_annotation"

/-- The words before a description. -/
def heading : ErrorKind → String
  | invalidParameter => "invalid parameter: "
  | schemaViolation => "schema violation: "
  | typeMismatch => "type mismatch: "
  | unmappedField => "missing annotation: "

end ErrorKind

/-- What the value of a rule has to be. -/
inductive Requirement
  /-- A truth value, a number or a text. -/
  | basic
  /-- A number or a time. -/
  | numberOrTime
  /-- A text that is not empty. -/
  | nonemptyText
  /-- A path of keys. -/
  | keyPath
  /-- A number. -/
  | number
  deriving DecidableEq, Repr

namespace Requirement

/-- The requirement in words. -/
def text : Requirement → String
  | basic => "bool, numeric or string"
  | numberOrTime => "numeric or a time"
  | nonemptyText => "a non-empty string"
  | keyPath => "a key path like `key` or `key.sub`"
  | number => "numeric"

end Requirement

/-- Why a request is refused. -/
inductive RequestError
  /-- JSON input does not decode. -/
  | undecodable (e : DecodeError)
  /-- A filter is not an object. -/
  | filterNotObject
  /-- The field of a rule is not a text. -/
  | ruleFieldNotText
  /-- A rule has no operator. -/
  | ruleWithoutOp (field : String)
  /-- A rule has no value. -/
  | ruleWithoutValue (field : String)
  /-- A value of a rule is null. -/
  | nullRuleValue (field : String)
  /-- A group has rules but no connective. -/
  | groupWithoutOp
  /-- The rules of a group are not a sequence. -/
  | rulesNotSequence
  /-- A list request has no filter. -/
  | filterRequired
  /-- A group has more rules than are allowed. -/
  | tooManyRules (count limit : Nat)
  /-- The field of a rule is empty. -/
  | emptyField
  /-- The field of a rule is not known. -/
  | unknownField (field : String)
  /-- The operator is for the primary key only. -/
  | onlyForId (op : Operator)
  /-- The operator is for documents only. -/
  | needsDocument (op : Operator) (field : String) (type : ColumnType)
  /-- The field is not a path into a document. -/
  | notPath (field : String)
  /-- The field is a path into a document, and the operator does not take one. -/
  | pathNeedsJsonOperator (field : String)
  /-- The operator takes a list. -/
  | needsList (op : Operator) (field : String)
  /-- The operator takes a single value. -/
  | needsSingle (op : Operator) (field : String)
  /-- The list is empty. -/
  | emptyList (op : Operator) (field : String)
  /-- The list is longer than is allowed. -/
  | listTooLong (op : Operator) (field : String) (count limit : Nat)
  /-- The value does not meet what the operator requires. -/
  | unsuitableValue (op : Operator) (field : String) (requirement : Requirement)
  /-- A value of a list is not basic. -/
  | unsuitableListValue (op : Operator) (field : String)
  /-- The value does not suit the type of the field. -/
  | wrongType (field : String) (type : ColumnType)
  /-- The operator does not go with the shape of the value. -/
  | operandRefused (op : Operator) (field : String)
  /-- The operator needs a key path as its value. -/
  | needsKeyPath (op : Operator) (field : String)
  /-- The field has no key after its column. -/
  | pathWithoutKey (field : String)
  /-- The value of a time field is not a time. -/
  | invalidTime (text : String)
  /-- A page has no limit. -/
  | limitRequired
  /-- The limit of a page is above the maximum. -/
  | limitTooLarge (limit maximum : Nat)
  /-- The sort of a page is not known. -/
  | unknownSort (sort : String)
  /-- The sort of a page is not the name of a column. -/
  | sortNotColumn (sort : String)
  /-- A requested field is not known. -/
  | unknownListField (field : String)
  /-- None of the selected fields is a column. -/
  | nothingSelected (table : String)
  /-- A deletion has no filter, or one that holds of every row. -/
  | deleteNeedsFilter (table : String)
  /-- An update has no filter, or one that holds of every row. -/
  | updateNeedsFilter (table : String)
  /-- An update sets a column that the table lacks. -/
  | unknownSetColumn (table column : String)
  /-- An update changes nothing. -/
  | nothingChanged (record : String)
  /-- A record has no value for a column that is inserted. -/
  | valueMissing (table column : String)
  /-- A field of a record has no column. -/
  | unmappedField (record field : String)
  /-- The value of a column is not what the field holds. -/
  | notDecodable (column expected : String) (value : Value)
  /-- The text of a column is not a document. -/
  | malformedDocument (column : String)
  /-- The document of a column does not decode. -/
  | documentMismatch (column : String) (e : DecodeError)
  /-- The text is not a timestamp. -/
  | unsupportedTimestamp (text : String)
  /-- A batch of identifiers is empty or too large. -/
  | batchSize (n limit : Nat)
  /-- There are no records to create. -/
  | nothingToCreate (table : String)
  /-- A cause that another part of the system described. -/
  | described (kind : ErrorKind) (text : String)
  deriving DecidableEq

namespace RequestError

/-- The kind of the cause. -/
def kind : RequestError → ErrorKind
  | undecodable _ | filterNotObject | ruleFieldNotText | ruleWithoutOp _ | ruleWithoutValue _
  | nullRuleValue _ | groupWithoutOp | rulesNotSequence | filterRequired | tooManyRules _ _
  | emptyField | onlyForId _ | notPath _ | emptyList _ _ | listTooLong _ _ _ _
  | operandRefused _ _ | needsKeyPath _ _ | pathWithoutKey _ | invalidTime _ | limitRequired
  | limitTooLarge _ _ | sortNotColumn _ | deleteNeedsFilter _ | updateNeedsFilter _
  | nothingChanged _ | batchSize _ _ | nothingToCreate _ => .invalidParameter
  | unknownField _ | unknownSort _ | unknownListField _ | nothingSelected _
  | unknownSetColumn _ _ | valueMissing _ _ => .schemaViolation
  | needsDocument _ _ _ | pathNeedsJsonOperator _ | needsList _ _ | needsSingle _ _
  | unsuitableValue _ _ _ | unsuitableListValue _ _ | wrongType _ _ | notDecodable _ _ _
  | malformedDocument _ | documentMismatch _ _ | unsupportedTimestamp _ => .typeMismatch
  | unmappedField _ _ => .unmappedField
  | described kind _ => kind

/-- A name between backticks. -/
def ticked (s : String) : String := "`" ++ s ++ "`"

/-- The wording of the cause. -/
def description : RequestError → String
  | undecodable e => e.message
  | filterNotObject => "filter expression must be a JSON object"
  | ruleFieldNotText => "rule field must be a string"
  | ruleWithoutOp field => "rule on " ++ ticked field ++ " has no op"
  | ruleWithoutValue field => "rule on " ++ ticked field ++ " has no value"
  | nullRuleValue field => "rule value of " ++ ticked field ++ " can not be null"
  | groupWithoutOp => "expression has no op"
  | rulesNotSequence => "expression rules must be an array"
  | filterRequired => "filter is required"
  | tooManyRules count limit =>
    "expression has " ++ toString count ++ " rules, at most " ++ toString limit ++ " are allowed"
  | emptyField => "rule field is empty"
  | unknownField field => "rule field " ++ ticked field ++ " is not a known column"
  | onlyForId op => "operator " ++ op.name ++ " only supports the id field"
  | needsDocument op field type =>
    "operator " ++ op.name ++ " needs a JSON column, " ++ ticked field ++ " is " ++ type.name
  | notPath field => ticked field ++ " is not a JSON path like `column.key`"
  | pathNeedsJsonOperator field =>
    ticked field ++ " is a JSON path and needs a json_* operator"
  | needsList op field => "operator " ++ op.name ++ " on " ++ ticked field ++ " needs a list value"
  | needsSingle op field =>
    "operator " ++ op.name ++ " on " ++ ticked field ++ " needs a single value"
  | emptyList op field =>
    "operator " ++ op.name ++ " on " ++ ticked field ++ " needs at least one value"
  | listTooLong op field count limit =>
    "operator " ++ op.name ++ " on " ++ ticked field ++ " has " ++ toString count ++
      " values, at most " ++ toString limit ++ " are allowed"
  | unsuitableValue op field requirement =>
    op.name ++ " value of " ++ ticked field ++ " must be " ++ requirement.text
  | unsuitableListValue op field =>
    op.name ++ " values of " ++ ticked field ++ " must be bool, numeric or string"
  | wrongType field type => "value of " ++ ticked field ++ " should be " ++ type.name
  | operandRefused op field =>
    "operator " ++ op.name ++ " does not accept the value of " ++ ticked field
  | needsKeyPath op field => "operator " ++ op.name ++ " on " ++ ticked field ++ " needs a key path"
  | pathWithoutKey field => ticked field ++ " is not a JSON path"
  | invalidTime text => "invalid time " ++ ticked text
  | limitRequired => "page.limit is required"
  | limitTooLarge limit maximum =>
    "page.limit " ++ toString limit ++ " exceeds the maximum of " ++ toString maximum
  | unknownSort sort => "page.sort " ++ ticked sort ++ " is not a known column"
  | sortNotColumn sort => "page.sort " ++ ticked sort ++ " is not a column name"
  | unknownListField field => "field " ++ ticked field ++ " is not a known column"
  | nothingSelected table => "no selected field is a column of " ++ table
  | deleteNeedsFilter table => "delete from " ++ table ++ " needs a filter"
  | updateNeedsFilter table => "update of " ++ table ++ " needs a filter"
  | unknownSetColumn table column =>
    "update of " ++ table ++ " sets unknown column " ++ ticked column
  | nothingChanged record => "update of " ++ ticked record ++ " changes no field"
  | valueMissing table column => table ++ " has no value for column " ++ ticked column
  | unmappedField record field =>
    "field " ++ ticked field ++ " of " ++ ticked record ++ " has no column"
  | notDecodable column expected value =>
    "column " ++ ticked column ++ " is not " ++ expected ++ ": " ++ value.describe
  | malformedDocument column => "column " ++ ticked column ++ " is not JSON: <json syntax>"
  | documentMismatch column e => "column " ++ ticked column ++ " does not decode: " ++ e.message
  | unsupportedTimestamp text =>
    "unsupported timestamp: " ++ text ++ "; expected RFC 3339 or \"%Y-%m-%d %H:%M:%S%.f\""
  | batchSize n limit =>
    "batch size must be between 1 and " ++ toString limit ++ ", got " ++ toString n
  | nothingToCreate table => "at least one " ++ table ++ " is required"
  | described _ text => text

/-- The whole message. -/
def message (e : RequestError) : String := e.kind.heading ++ e.description

/-- The stable code. -/
def code (e : RequestError) : String := e.kind.code

/-- What callers are told. -/
def toJson (e : RequestError) : Json :=
  .object [("error", .string e.code), ("message", .string e.message)]

end RequestError

/-- The result of a computation that a request may get wrong. -/
abbrev Checked (α : Type) := Except RequestError α

end ResourceTable
