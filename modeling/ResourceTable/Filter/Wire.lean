import ResourceTable.Error

/-!
# Filters on the wire

On the wire a group is an object with `op` and `rules`, and a rule an object with
`field`, `op` and `value`.  The empty object is the filter that holds of every
row.  A value is a truth value, a number, a text, or a document for an object; a
sequence is a list of values.  Null is no value.

## Main definitions

* `Filter.ofJson`: reads a filter.
* `Filter.toJson`: writes one.
-/

namespace ResourceTable

namespace Connective

/-- Reads a connective. -/
def ofJson (j : Json) : Checked Connective :=
  (j.decodeChoice [(Connective.and.name, .and), (Connective.or.name, .or)]).mapError .undecodable

end Connective

namespace Operator

/-- The names by which operators are read. -/
def wireNames : List (String × Operator) :=
  [("eq", equal), ("neq", notEqual), ("gt", greater), ("gte", greaterOrEqual), ("lt", less),
    ("lte", lessOrEqual), ("in", oneOf), ("nin", noneOf), ("cs", contains),
    ("cis", containsAnyCase), ("id_gt", idGreater), ("json_eq", jsonEqual),
    ("json_neq", jsonNotEqual), ("json_in", jsonOneOf), ("json_contains", jsonContains),
    ("json_overlaps", jsonOverlaps), ("json_contains_path", jsonHasPath),
    ("json_not_contains_path", jsonLacksPath), ("json_length", jsonLength)]

/-- Reads an operator. -/
def ofJson (j : Json) : Checked Operator := (j.decodeChoice wireNames).mapError .undecodable

/-- Writes an operator. -/
def toJson (op : Operator) : Json := .string op.name

end Operator

namespace Value

/-- The value that a JSON number stands for: a 64-bit integer, signed if it fits,
or a fractional number. -/
def ofNumber : Json.Number → Value
  | .integer n =>
    match FixedInt.ofInt? .i64 n with
    | some x => .integer .i64 (some x)
    | none =>
      match FixedInt.ofInt? .u64 n with
      | some x => .integer .u64 (some x)
      | none => .double (some (.ofInt n))
  | .double x => .double (some x)

/-- Reads a value of a rule on `field`. -/
def ofJson (field : String) : Json → Checked Value
  | .null => .error (.nullRuleValue field)
  | .bool b => .ok (.bool (some b))
  | .number n => .ok (.ofNumber n)
  | .string s => .ok (.string (some s))
  | .array items => .ok (.json (some (.array items)))
  | .object members => .ok (.json (some (.object members)))

/-- Writes a value.  What the wire has no form for is written as null, which is
never read back. -/
def toJson : Value → Json
  | .bool (some b) => .bool b
  | .integer _ (some n) => .ofInt n.val
  | .double (some x) => .number (.double x)
  | .string (some s) => .string s
  | .json (some j) => j
  | _ => .null

end Value

namespace Operand

/-- Reads the value of a rule on `field`. -/
def ofJson (field : String) : Json → Checked Operand
  | .array items => (items.mapM (Value.ofJson field)).map .list
  | j => (Value.ofJson field j).map .single

/-- Writes the value of a rule. -/
def toJson : Operand → Json
  | .single v => v.toJson
  | .list vs => .array (vs.map Value.toJson)

end Operand

namespace Rule

/-- Reads a rule from the members of an object with a `field`. -/
def ofMembers (members : List (String × Json)) : Checked Rule := do
  let field ←
    match NameMap.lookup "field" members with
    | some (.string field) => .ok field
    | _ => .error .ruleFieldNotText
  let op ←
    match NameMap.lookup "op" members with
    | some j => Operator.ofJson j
    | none => .error (.ruleWithoutOp field)
  let operand ←
    match NameMap.lookup "value" members with
    | some j => Operand.ofJson field j
    | none => .error (.ruleWithoutValue field)
  return ⟨field, op, operand⟩

/-- Writes a rule. -/
def toJson (r : Rule) : Json :=
  .object [("field", .string r.field), ("op", r.op.toJson), ("value", r.operand.toJson)]

end Rule

namespace Filter

/-- Reads the connective of a group; only the empty object may lack it. -/
def connectiveOf (members : List (String × Json)) : Checked Connective :=
  match NameMap.lookup "op" members with
  | some j => Connective.ofJson j
  | none => if members.isEmpty then .ok .and else .error .groupWithoutOp

mutual

/-- Reads a filter. -/
def ofJson : Json → Checked Filter
  | .object members =>
    if (NameMap.lookup "field" members).isSome then (Rule.ofMembers members).map .rule
    else do
      let op ← connectiveOf members
      let rules ← rulesOf members
      return .group op rules
  | _ => .error .filterNotObject
termination_by structural j => j

/-- Reads the rules of a group from its members. -/
def rulesOf : List (String × Json) → Checked (List Filter)
  | [] => .ok []
  | m :: rest => (rulesOfMember m).getD (rulesOf rest)
termination_by structural l => l

/-- Reads the rules if the member holds them. -/
def rulesOfMember : String × Json → Option (Checked (List Filter))
  | (name, j) => if name = "rules" then some (rulesOfValue j) else none
termination_by structural m => m

/-- Reads the rules from the value of their member. -/
def rulesOfValue : Json → Checked (List Filter)
  | .array items => ofItems items
  | .null => .ok []
  | _ => .error .rulesNotSequence
termination_by structural j => j

/-- Reads filters one after the other. -/
def ofItems : List Json → Checked (List Filter)
  | [] => .ok []
  | j :: rest => do
    let f ← ofJson j
    let more ← ofItems rest
    return f :: more
termination_by structural l => l

end

mutual

/-- Writes a filter. -/
def toJson : Filter → Json
  | .group op rules => .object [("op", .string op.name), ("rules", .array (itemsToJson rules))]
  | .rule r => r.toJson
termination_by structural f => f

/-- Writes filters. -/
def itemsToJson : List Filter → List Json
  | [] => []
  | f :: rest => toJson f :: itemsToJson rest
termination_by structural l => l

end

end Filter

end ResourceTable
