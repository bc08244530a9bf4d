import ResourceTable.Calendar.Reader
import ResourceTable.Error
import ResourceTable.Text.CharClass

/-!
# Validation of filters

A filter is checked against the fields that a table lets callers name, and against
limits on its size.  Only a filter that passed is compiled, which its type says.

## Main definitions

* `FilterRules`: the known fields and the limits.
* `Filter.check`: the check.
* `ValidFilter rules`: the filters that pass it.
-/

namespace ResourceTable

/-- What filters are checked against. -/
structure FilterRules where
  /-- The fields that rules may name, with their types.  A path into a document is
  a field of its own: `extension.vpc_id`. -/
  fields : Schema
  /-- The longest list of values. -/
  maxList : Nat := 500
  /-- The longest list of excluded values. -/
  maxExcluded : Nat := 500
  /-- The most rules of one group. -/
  maxRules : Nat := 10
  deriving DecidableEq

namespace FilterRules

/-- The rules that let every column of a registry be named. -/
def ofRegistry (r : Registry) : FilterRules := { fields := r.types }

/-- The rules with one more field. -/
def withField (rules : FilterRules) (field : String) (type : ColumnType) : FilterRules :=
  { rules with fields := rules.fields.insert field type }

/-- The longest list that the operator takes. -/
def listLimit (rules : FilterRules) (op : Operator) : Nat :=
  if op = .noneOf then rules.maxExcluded else rules.maxList

end FilterRules

/-! ### Names and paths -/

/-- The parts of a text between the marks, of which there is at least one. -/
def splitAtMark (mark : Char) : List Char → List (List Char)
  | [] => [[]]
  | c :: rest =>
    if c = mark then [] :: splitAtMark mark rest
    else
      match splitAtMark mark rest with
      | part :: parts => (c :: part) :: parts
      | [] => [[c]]

/-- The text before the first mark and the text after it. -/
def cutAtMark (mark : Char) : List Char → Option (List Char × List Char)
  | [] => none
  | c :: rest =>
    if c = mark then some ([], rest)
    else (cutAtMark mark rest).map fun (before, after) => (c :: before, after)

/-- Whether the text is a path of keys: identifiers joined by dots. -/
def isKeyPath (cs : List Char) : Bool := (splitAtMark '.' cs).all isIdentifier

/-- Whether the text is a column and a path of keys, joined by a dot. -/
def isDocumentPath (cs : List Char) : Bool :=
  match cutAtMark '.' cs with
  | some (column, path) => isIdentifier column && isKeyPath path
  | none => false

/-! ### Values -/

namespace Value

/-- Whether the value is a timestamp or the text of one. -/
def isTime : Value → Bool
  | .timestamp (some _) => true
  | .string (some s) => (readInternet s.toList).isSome
  | _ => false

/-- Whether the value meets a requirement. -/
def meets (v : Value) : Requirement → Bool
  | .basic => v.isBasic
  | .numberOrTime => v.isNumeric || v.isTime
  | .nonemptyText =>
    match v with
    | .string (some s) => !s.isEmpty
    | _ => false
  | .keyPath =>
    match v with
    | .string (some s) => isKeyPath s.toList
    | _ => false
  | .number => v.isNumeric

/-- Whether the value suits a column of the type. -/
def suits (v : Value) : ColumnType → Bool
  | .string =>
    match v with
    | .string (some _) | .char (some _) => true
    | _ => false
  | .numeric => v.isNumeric
  | .boolean =>
    match v with
    | .bool (some _) => true
    | _ => false
  | .time => v.isTime
  | .json => true

end Value

namespace Operator

/-- What a single value of the operator has to be. -/
def requirement? : Operator → Option Requirement
  | equal | notEqual | jsonEqual | jsonNotEqual | jsonContains | idGreater => some .basic
  | greater | greaterOrEqual | less | lessOrEqual => some .numberOrTime
  | contains | containsAnyCase => some .nonemptyText
  | jsonHasPath | jsonLacksPath => some .keyPath
  | jsonLength => some .number
  | oneOf | noneOf | jsonOneOf | jsonOverlaps => none

/-- Whether the value is compared with what the field holds, rather than counting
its elements. -/
def comparesField (op : Operator) : Bool := op != .jsonLength

end Operator

/-! ### The check -/

namespace Rule

/-- The field suits the operator. -/
def checkField (r : Rule) (type : ColumnType) : Checked Unit :=
  if r.op = .idGreater ∧ r.field ≠ "id" then .error (.onlyForId r.op)
  else if r.op.checksKey then
    if type = .json then .ok () else .error (.needsDocument r.op r.field type)
  else if r.op.isJson then
    if isDocumentPath r.field.toList then .ok () else .error (.notPath r.field)
  else if r.field.toList.contains '.' then .error (.pathNeedsJsonOperator r.field)
  else .ok ()

/-- The value suits the type of the field. -/
def checkType (r : Rule) (type : ColumnType) (v : Value) : Checked Unit :=
  if v.suits type then .ok () else .error (.wrongType r.field type)

/-- A single value suits the operator and the field. -/
def checkSingle (r : Rule) (type : ColumnType) (v : Value) : Checked Unit := do
  if v.isNull then .error (.nullRuleValue r.field)
  match r.op.requirement? with
  | some requirement =>
    if !v.meets requirement then .error (.unsuitableValue r.op r.field requirement)
  | none => .ok ()
  if r.op.comparesField then r.checkType type v else .ok ()

/-- A value of a list suits the field. -/
def checkItem (r : Rule) (type : ColumnType) (v : Value) : Checked Unit :=
  if v.isNull then .error (.nullRuleValue r.field)
  else if !v.isBasic then .error (.unsuitableListValue r.op r.field)
  else r.checkType type v

/-- The operand suits the operator and the field. -/
def checkOperand (r : Rule) (type : ColumnType) (limit : Nat) : Checked Unit :=
  match r.operand with
  | .single v =>
    if r.op.takesList then .error (.needsList r.op r.field) else r.checkSingle type v
  | .list vs =>
    if !r.op.takesList then .error (.needsSingle r.op r.field)
    else if vs.isEmpty then .error (.emptyList r.op r.field)
    else if limit < vs.length then .error (.listTooLong r.op r.field vs.length limit)
    else vs.forM (r.checkItem type)

/-- The rule is one that callers may use. -/
def check (rules : FilterRules) (r : Rule) : Checked Unit :=
  if r.field.isEmpty then .error .emptyField
  else
    match rules.fields.get? r.field with
    | none => .error (.unknownField r.field)
    | some type => do
      r.checkField type
      r.checkOperand type (rules.listLimit r.op)

end Rule

namespace Filter

mutual

/-- The filter is one that callers may use. -/
def check (rules : FilterRules) : Filter → Checked Unit
  | .group _ fs =>
    if rules.maxRules < fs.length then .error (.tooManyRules fs.length rules.maxRules)
    else checkAll rules fs
  | .rule r => r.check rules
termination_by structural f => f

/-- The filters are ones that callers may use. -/
def checkAll (rules : FilterRules) : List Filter → Checked Unit
  | [] => .ok ()
  | f :: rest => do
    check rules f
    checkAll rules rest
termination_by structural l => l

end

theorem checkAll_eq_ok_iff {rules : FilterRules} {fs : List Filter} :
    checkAll rules fs = .ok () ↔ ∀ f ∈ fs, check rules f = .ok () := by
  induction fs with
  | nil => simp [checkAll]
  | cons f rest ih =>
    rw [List.forall_mem_cons, ← ih, checkAll]
    cases check rules f with
    | error e => simp [bind, Except.bind]
    | ok u => simp [bind, Except.bind]

end Filter

/-- A filter that passed the check. -/
structure ValidFilter (rules : FilterRules) where
  /-- The filter. -/
  filter : Filter
  /-- It passed. -/
  passed : filter.check rules = .ok ()

namespace Filter

/-- The filter with the evidence that it passes the check. -/
def validate (rules : FilterRules) (f : Filter) : Checked (ValidFilter rules) :=
  match h : f.check rules with
  | .ok () => .ok ⟨f, h⟩
  | .error e => .error e

end Filter

end ResourceTable
