import ResourceTable.Filter
import ResourceTable.Value.Tagged

/-!
# Tagged filters

Filters as JSON objects with tagged values.  A group is an object with its
connective as the only name and its rules under it, and a rule an object with
`field`, `op` and `value`.  The form on the wire cannot carry most types of
values; this one carries every filter.

## Main definitions

* `Filter.toTagged`, `Filter.ofTagged?`.
-/

namespace ResourceTable

namespace Operand

/-- The tagged value, or the sequence of tagged values. -/
def toTagged : Operand → Json
  | single v => v.toTagged
  | list vs => .array (vs.map Value.toTagged)

/-- A tagged value, or a sequence of tagged values. -/
def ofTagged? : Json → Option Operand
  | .array items => (items.mapM Value.ofTagged?).map .list
  | j => (Value.ofTagged? j).map .single

end Operand

namespace Connective

/-- The connective of a name. -/
def ofName? (name : String) : Option Connective := [and, or].find? (·.name == name)

@[simp] theorem ofName?_name (op : Connective) : ofName? op.name = some op := by
  cases op <;> decide

end Connective

namespace Rule

/-- The rule with a tagged operand. -/
def toTagged (r : Rule) : Json :=
  .object [("field", .string r.field), ("op", .string r.op.name), ("value", r.operand.toTagged)]

/-- A rule from the members of its object. -/
def ofTaggedMembers? (members : List (String × Json)) : Option Rule := do
  let field ←
    match NameMap.lookup "field" members with
    | some (.string field) => some field
    | _ => none
  let op ←
    match NameMap.lookup "op" members with
    | some (.string name) => Operator.ofName? name
    | _ => none
  let operand ← Operand.ofTagged? (← NameMap.lookup "value" members)
  return ⟨field, op, operand⟩

end Rule

namespace Filter

mutual

/-- The filter with tagged operands. -/
def toTagged : Filter → Json
  | .group op rules => .object [(op.name, .array (itemsToTagged rules))]
  | .rule r => r.toTagged
termination_by structural f => f

/-- The filters with tagged operands. -/
def itemsToTagged : List Filter → List Json
  | [] => []
  | f :: rest => toTagged f :: itemsToTagged rest
termination_by structural l => l

end

mutual

/-- A filter with tagged operands. -/
def ofTagged? : Json → Option Filter
  | .object members => (groupOfTagged? members).or ((Rule.ofTaggedMembers? members).map .rule)
  | _ => none
termination_by structural j => j

/-- The group of the first member named by a connective. -/
def groupOfTagged? : List (String × Json) → Option Filter
  | [] => none
  | m :: rest => (groupOfMember? m).or (groupOfTagged? rest)
termination_by structural l => l

/-- The group of a member named by a connective. -/
def groupOfMember? : String × Json → Option Filter
  | (name, j) =>
    match Connective.ofName? name with
    | some op => (itemsOfTagged? j).map (.group op)
    | none => none
termination_by structural m => m

/-- The filters of a sequence. -/
def itemsOfTagged? : Json → Option (List Filter)
  | .array items => filtersOfTagged? items
  | _ => none
termination_by structural j => j

/-- The filters, one after the other. -/
def filtersOfTagged? : List Json → Option (List Filter)
  | [] => some []
  | j :: rest =>
    match ofTagged? j, filtersOfTagged? rest with
    | some f, some more => some (f :: more)
    | _, _ => none
termination_by structural l => l

end

end Filter

end ResourceTable
