import ResourceTable.Failure
import ResourceTable.Query
import ResourceTable.Record.Row
import ResourceTable.Sql.Database

/-!
# Binding

A query is executed in positional form: a question mark stands for every bound
value, and the values follow in order.  Values become cells on the way in, and
cells become values on the way out.

## Main definitions

* `Value.toCell`, `Value.ofCell`.
* `Query.positional`: the text with question marks.
* `Query.bound`: the text and its cells.
-/

namespace ResourceTable

namespace Value

/-- The cell of a value.  A 64-bit unsigned integer beyond the range of cells wraps
around. -/
def toCell : Value → Except Failure Sql.Cell
  | .bool v => .ok (v.elim .null fun b => .ofInt (if b then 1 else 0))
  | .integer _ v => .ok (v.elim .null fun n => .ofInt (n.val.bmod IntType.i64.count))
  | .single v => .ok (v.elim .null fun x => .ofDouble x.convert)
  | .double v => .ok (v.elim .null .ofDouble)
  | .string v => .ok (v.elim .null .text)
  | .char v => .ok (v.elim .null fun c => .text (String.singleton c))
  | .bytes v => .ok (v.elim .null .blob)
  | .json v => .ok (v.elim .null fun j => .text j.text)
  | .timestamp v => .ok (v.elim .null fun t => .text t.stored)
  | .date v => .ok (v.elim .null fun d => .text d.text)
  | .dateTime v => .ok (v.elim .null fun t => .text (t.text ' '))
  | v => .error (.storage ("unsupported parameter type: " ++ v.describe))

/-- The value of a cell. -/
def ofCell : Sql.Cell → Value
  | .null => .string none
  | .integer n => .integer .i64 (some n)
  | .real x => .double (some x)
  | .text s => .string (some s)
  | .blob b => .bytes (some b)

end Value

namespace Query

/-- What is bound to a placeholder. -/
def param (q : Query) (name : String) : Option Param := q.params.get? name

/-- The question marks of a parameter. -/
def marks (p : Param) : String := String.intercalate ", " (p.values.map fun _ => "?")

/-- The text with question marks in the place of the placeholders. -/
def positional (q : Query) : String :=
  Placeholder.substitute (fun name => (q.param name).map marks) q.sql

/-- The first placeholder to which nothing is bound. -/
def unbound? (q : Query) : Option String := q.placeholders.find? fun name => (q.param name).isNone

/-- The bound values in order. -/
def values (q : Query) : List Value :=
  q.placeholders.flatMap fun name => (q.param name).elim [] Param.values

/-- The text with question marks, and a cell for each of them. -/
def bound (q : Query) : Except Failure (String × List Sql.Cell) :=
  match q.unbound? with
  | some name => .error (.storage ("no value bound for placeholder `:" ++ name ++ "`"))
  | none => do return (q.positional, ← q.values.mapM Value.toCell)

end Query

namespace Row

/-- The row of values under titles; of values under the same title the last one
counts. -/
def ofResult (r : Sql.ResultRow) : Row := .ofList (r.map fun p => (p.1, Value.ofCell p.2))

end Row

end ResourceTable
