import ResourceTable.Filter.Clause
import ResourceTable.Record.Row
import ResourceTable.Statement.Update
import ResourceTable.Value.Tagged

/-!
# Tagged queries and rows

Queries, their clauses, and rows as JSON objects, with tagged values: what is bound
to a name is a value or a sequence of values, and a row is an object of values.

## Main definitions

* `Params.toTagged`, `Params.ofTagged?`, `Query.toTagged`.
* `Clause.toTagged`, `SetClause.toTagged`.
* `Row.toTagged`, `Row.ofTagged?`, `Leaf.toTagged`, `Flattened.toTagged`.
-/

namespace ResourceTable

namespace Param

/-- The tagged value, or the sequence of tagged values. -/
def toTagged : Param → Json
  | single v => v.toTagged
  | list vs => .array (vs.map Value.toTagged)

/-- A tagged value, or a sequence of tagged values. -/
def ofTagged? : Json → Option Param
  | .array items => (items.mapM Value.ofTagged?).map .list
  | j => (Value.ofTagged? j).map .single

end Param

/-- The members of a map as an object. -/
def NameMap.toObject {α : Type} (encode : α → Json) (m : NameMap α) : Json :=
  .object (m.map encode).entries

/-- A map of the members of an object. -/
def NameMap.ofObject? {α : Type} (decode : Json → Option α) : Json → Option (NameMap α)
  | .object members =>
    (members.mapM fun m => (decode m.2).map fun a => (m.1, a)).map NameMap.ofList
  | _ => none

namespace Params

/-- What is bound, by name. -/
def toTagged (p : Params) : Json := p.toObject Param.toTagged

/-- What is bound, by name. -/
def ofTagged? (j : Json) : Option Params := NameMap.ofObject? Param.ofTagged? j

end Params

namespace Query

/-- The text and what is bound. -/
def toTagged (q : Query) : Json :=
  .object [("sql", .string q.sql), ("params", Params.toTagged q.params)]

end Query

namespace Clause

/-- The members of a clause. -/
def taggedMembers (c : Clause) : List (String × Json) :=
  [("sql", .string c.sql), ("params", Params.toTagged c.params), ("match_all", .bool c.matchesAll)]

/-- The text, what is bound, and whether every row matches. -/
def toTagged (c : Clause) : Json := .object c.taggedMembers

end Clause

namespace SetClause

/-- The text, what is bound, and the columns that are assigned. -/
def toTagged (c : SetClause) : Json :=
  .object [("sql", .string c.sql), ("params", Params.toTagged c.params),
    ("columns", .array (c.columns.map Json.string))]

end SetClause

namespace Row

/-- The values by column. -/
def toTagged (r : Row) : Json := r.toObject Value.toTagged

/-- The values by column. -/
def ofTagged? (j : Json) : Option Row := NameMap.ofObject? Value.ofTagged? j

end Row

namespace Leaf

/-- The value, how its field is declared, and whether it is null. -/
def toTagged (l : Leaf) : Json :=
  .object (l.value.taggedMembers ++ [("kind", .string l.kind.name), ("null", .bool l.isNull)])

end Leaf

namespace Flattened

/-- The leaves by column. -/
def toTagged (f : Flattened) : Json := f.toObject Leaf.toTagged

end Flattened

end ResourceTable
