import ResourceTable.Filter.Clause
import ResourceTable.Record
import ResourceTable.Table

/-!
# `UPDATE` statements

A partial update writes the columns of a record that carry a change: a plain value
that is not the zero of its type, or an optional value or document that is there.
A policy can let zeros be written, or leave columns alone.  The column of the last
update is always written from the database clock, and from nothing else.

## Main definitions

* `UpdatePolicy`, `UpdatePolicy.writes`: which columns are written.
* `SetClause`, `Record.setClause`: the assignments.
* `SetClause.query`: the statement.
-/

namespace ResourceTable

/-- The column of the last update. -/
def updatedAt : String := "updated_at"

/-- Which columns an update writes. -/
structure UpdatePolicy where
  /-- Columns that may be set to the zero of their type. -/
  blanked : List String := []
  /-- Columns that are left alone. -/
  ignored : List String := []
  /-- Whether something has to be written. -/
  requireChange : Bool := false
  deriving DecidableEq

namespace UpdatePolicy

/-- Whether the value of a column carries a change. -/
def changes (leaf : Leaf) : Bool :=
  match leaf.kind with
  | .scalar => !leaf.value.isZero
  | .optional | .codec => !leaf.isNull

/-- Whether the value of a column that may be blanked is written: an absent optional
value is not, but an absent document clears the column. -/
def blanks (leaf : Leaf) : Bool := leaf.kind == .codec || !leaf.isNull

/-- Whether the column is written. -/
def writes (policy : UpdatePolicy) (column : String) (leaf : Leaf) : Bool :=
  if column = updatedAt || policy.ignored.contains column then false
  else if policy.blanked.contains column then blanks leaf
  else changes leaf

/-- The columns of a record that are written, with their values. -/
def written (policy : UpdatePolicy) (flat : Flattened) : List (String × Leaf) :=
  flat.entries.filter fun entry => policy.writes entry.1 entry.2

end UpdatePolicy

/-- The assignments of an `UPDATE`. -/
structure SetClause where
  /-- `SET` and the assignments. -/
  sql : String
  /-- What is bound to the placeholders. -/
  params : Params
  /-- The columns that are assigned, in order, but for that of the last update. -/
  columns : List String
  deriving DecidableEq

/-- An assignment from the placeholder of the column's name. -/
def assignment (column : String) : String := column ++ " = :" ++ column

/-- The assignments of a record. -/
def Record.setClause (record : Record) (policy : UpdatePolicy) : Checked SetClause := do
  let flat ← record.flatten
  let written := policy.written flat
  let columns := written.map Prod.fst
  if policy.requireChange ∧ columns = [] then .error (.nothingChanged record.name)
  let assignments := columns.map assignment ++ [updatedAt ++ " = now()"]
  return {
    sql := "SET " ++ String.intercalate ", " assignments
    params := .ofList (written.map fun entry => (entry.1, .single entry.2.value))
    columns }

namespace SetClause

/-- Every assigned column is one of the table. -/
def checkColumns (table : Table) (s : SetClause) : Checked Unit :=
  match s.columns.find? fun column => !table.columns.contains column with
  | some column => .error (.unknownSetColumn table.name column)
  | none => .ok ()

/-- The statement that makes the assignments where the filter holds.  The filter's
placeholders are renamed away from those of the assignments. -/
def query (table : Table) (s : SetClause) (filter : Option Clause) : Checked Query := do
  s.checkColumns table
  match filter.filter fun clause => !clause.matchesAll with
  | none => .error (.updateNeedsFilter table.name)
  | some clause =>
    let clause := clause.avoiding s.params.keys
    return ⟨"UPDATE " ++ table.name ++ " " ++ s.sql ++ " " ++ clause.sql,
      s.params.union clause.params⟩

end SetClause

end ResourceTable
