import ResourceTable.Filter.Validation
import ResourceTable.Query
import ResourceTable.Text.Pattern

/-!
# From rules to conditions

A rule becomes a test in SQL with one placeholder, and a filter a tree of tests.
Every test takes a placeholder name of its own, made from its field; a test for a
key path has the path in its text and binds nothing.

## Main definitions

* `Condition`, `Condition.text`: trees of tests and their SQL.
* `Naming`: the names in use and what is bound so far.
* `Rule.test`: the SQL of a rule and what it binds.
* `Filter.lower`: the condition of a filter.
-/

namespace ResourceTable

/-- A tree of tests. -/
inductive Condition
  /-- The condition that always holds. -/
  | always
  /-- Conditions joined by a connective. -/
  | group (op : Connective) (parts : List Condition)
  /-- A test, as SQL text. -/
  | test (sql : String)

namespace Condition

mutual

/-- The SQL text. -/
def text : Condition → String
  | .always => "1 = 1"
  | .group op parts => "(" ++ String.intercalate op.keyword (partTexts parts) ++ ")"
  | .test sql => sql
termination_by structural c => c

/-- The SQL texts of the parts. -/
def partTexts : List Condition → List String
  | [] => []
  | c :: rest => text c :: partTexts rest
termination_by structural l => l

end

end Condition

/-! ### Names -/

/-- The names in use, and what is bound to the names given out. -/
structure Naming where
  /-- Every name in use. -/
  used : List String
  /-- What is bound so far. -/
  params : Params

namespace Naming

/-- The state before the first name. -/
def start (reserved : List String) : Naming := ⟨reserved, .empty⟩

/-- The next name made from `base`. -/
def next (n : Naming) (base : String) : String := freshName base n.used

/-- Gives out a name and binds it. -/
def bind (n : Naming) (name : String) (p : Param) : Naming :=
  ⟨name :: n.used, n.params.insert name p⟩

end Naming

/-- The base of a field's placeholder: every character that no name can have becomes
an underscore. -/
def placeholderBase (field : String) : String :=
  String.ofList (field.toList.map fun c => if isNamePart c then c else '_')

/-! ### Tests -/

/-- A column and the path text of the keys after it. -/
def documentPath (field : String) : Checked (String × String) :=
  match cutAtMark '.' field.toList with
  | some (column, keys) =>
    let steps := (splitAtMark '.' keys).flatMap fun key => '.' :: '"' :: key ++ ['"']
    .ok (String.ofList column, String.ofList ('$' :: steps))
  | none => .error (.pathWithoutKey field)

/-- The part of a document that the field names. -/
def extraction (field : String) : Checked String := do
  let (column, path) ← documentPath field
  return column ++ "->>'" ++ path ++ "'"

/-- The elements of the sequence that the field names, tested by `test`. -/
def someElement (field test : String) : Checked String := do
  let (column, path) ← documentPath field
  return "EXISTS (SELECT 1 FROM json_each(" ++ column ++ ", '" ++ path ++ "') WHERE value " ++
    test ++ ")"

namespace Value

/-- The value as it is bound for a field of the type: the text of a time becomes the
moment in UTC. -/
def bound (type : Option ColumnType) (v : Value) : Checked Value :=
  match type, v with
  | some .time, .string (some s) =>
    match readInternet s.toList with
    | some z => .ok (.timestamp (some z.toTimestamp))
    | none => .error (.invalidTime s)
  | _, v => .ok v

end Value

namespace Rule

/-- A single value bound for a field of the type. -/
def bindSingle (type : Option ColumnType) (v : Value) : Checked Param :=
  (v.bound type).map .single

/-- A list bound for a field of the type. -/
def bindList (type : Option ColumnType) (vs : List Value) : Checked Param :=
  (vs.mapM (Value.bound type)).map .list

/-- The SQL of a rule that binds `name`, and what it binds. -/
def test (r : Rule) (type : Option ColumnType) (name : String) : Checked (String × Param) :=
  let compare (operator : String) (v : Value) : Checked (String × Param) := do
    return (r.field ++ operator ++ ":" ++ name, ← bindSingle type v)
  let listed (operator : String) (vs : List Value) : Checked (String × Param) := do
    return (r.field ++ operator ++ "(:" ++ name ++ ")", ← bindList type vs)
  match r.op, r.operand with
  | .equal, .single v => compare " = " v
  | .notEqual, .single v => compare " != " v
  | .greater, .single v => compare " > " v
  | .idGreater, .single v => compare " > " v
  | .greaterOrEqual, .single v => compare " >= " v
  | .less, .single v => compare " < " v
  | .lessOrEqual, .single v => compare " <= " v
  | .oneOf, .list vs => listed " IN " vs
  | .noneOf, .list vs => listed " NOT IN " vs
  | .contains, .single (.string (some s)) =>
    let pattern := String.ofList ('*' :: (globEscape s.toList ++ ['*']))
    .ok (r.field ++ " GLOB :" ++ name, .single (.text pattern))
  | .containsAnyCase, .single (.string (some s)) =>
    let pattern := String.ofList ('%' :: (lowercase s.toList ++ ['%']))
    .ok ("LOWER(" ++ r.field ++ ") LIKE :" ++ name, .single (.text pattern))
  | .jsonEqual, .single v => do return ((← extraction r.field) ++ " = :" ++ name, .single v)
  | .jsonNotEqual, .single v => do return ((← extraction r.field) ++ " != :" ++ name, .single v)
  | .jsonOneOf, .list vs => do
    return ((← extraction r.field) ++ " IN (:" ++ name ++ ")", .list vs)
  | .jsonContains, .single v => do return (← someElement r.field ("= :" ++ name), .single v)
  | .jsonOverlaps, .list vs => do
    return (← someElement r.field ("IN (:" ++ name ++ ")"), .list vs)
  | .jsonLength, .single v => do
    let (column, path) ← documentPath r.field
    return ("json_array_length(" ++ column ++ ", '" ++ path ++ "') = :" ++ name, .single v)
  | op, _ => .error (.operandRefused op r.field)

/-- The SQL of a rule on a key path. -/
def keyTest (r : Rule) : Checked String :=
  match r.operand with
  | .single (.string (some key)) => do
    let (column, path) ← documentPath (r.field ++ "." ++ key)
    let test := if r.op = .jsonHasPath then "IS NOT NULL" else "IS NULL"
    return "json_type(" ++ column ++ ", '" ++ path ++ "') " ++ test
  | _ => .error (.needsKeyPath r.op r.field)

/-- The condition of a rule. -/
def lower (fields : Schema) (r : Rule) (n : Naming) : Checked (Condition × Naming) :=
  if r.op.checksKey then do return (.test (← r.keyTest), n)
  else do
    let name := n.next (placeholderBase r.field)
    let (sql, p) ← r.test (fields.get? r.field) name
    return (.test sql, n.bind name p)

end Rule

namespace Filter

mutual

/-- The condition of a filter. -/
def lower (fields : Schema) : Filter → Naming → Checked (Condition × Naming)
  | .group _ [], n => .ok (.always, n)
  | .group op (f :: rest), n => do
    let (first, n) ← lower fields f n
    let (parts, n) ← lowerAll fields rest n
    return (.group op (first :: parts), n)
  | .rule r, n => r.lower fields n
termination_by structural f => f

/-- The conditions of filters, one after the other. -/
def lowerAll (fields : Schema) : List Filter → Naming → Checked (List Condition × Naming)
  | [], n => .ok ([], n)
  | f :: rest, n => do
    let (first, n) ← lower fields f n
    let (parts, n) ← lowerAll fields rest n
    return (first :: parts, n)
termination_by structural l => l

end

/-! ### Priority -/

mutual

/-- The first position in the priority list of a field of the filter, or the length
of the list. -/
def rank (priority : List String) : Filter → Nat
  | .group _ rules => bestRank priority rules
  | .rule r => priority.findIdx (· == r.field)
termination_by structural f => f

/-- The least rank of the filters. -/
def bestRank (priority : List String) : List Filter → Nat
  | [] => priority.length
  | f :: rest => min (rank priority f) (bestRank priority rest)
termination_by structural l => l

end

/-- Filters of lower rank first, and otherwise in the order they had. -/
def byRank (priority : List String) (fs : List Filter) : List Filter :=
  fs.mergeSort fun f g => rank priority f ≤ rank priority g

mutual

/-- The filter with the rules of every group ordered by rank. -/
def prioritize (priority : List String) : Filter → Filter
  | .group op rules => .group op (byRank priority (prioritizeAll priority rules))
  | .rule r => .rule r
termination_by structural f => f

/-- Filters with the rules of every group ordered by rank. -/
def prioritizeAll (priority : List String) : List Filter → List Filter
  | [] => []
  | f :: rest => prioritize priority f :: prioritizeAll priority rest
termination_by structural l => l

end

end Filter

end ResourceTable
