import ResourceTable.Query
import ResourceTable.Record
import ResourceTable.Table

/-!
# `INSERT` statements

Every record has a statement of its own, with the same text: the columns that the
table inserts, time columns from the database clock.

## Main definitions

* `Table.insertSql`: the text.
* `Table.insertParams`: what a record binds.
* `Table.insertQueries`: the statements of records.
-/

namespace ResourceTable.Table

/-- The text of an `INSERT`. -/
def insertSql (t : Table) : String :=
  "INSERT INTO " ++ t.name ++ " (" ++ t.columns.insertList ++ ") VALUES (" ++
    t.columns.insertSources ++ ")"

/-- The columns whose values a record gives. -/
def boundColumns (t : Table) : List String :=
  (t.columns.inserted.filter fun c => c.type != .time).map Column.name

/-- What a flattened record binds; it has a value for every column. -/
def insertParams (t : Table) (flat : Flattened) : Checked Params :=
  t.boundColumns.foldlM (fun params column =>
    match flat.get? column with
    | some leaf => .ok (params.insert column (.single leaf.value))
    | none => .error (.valueMissing t.name column)) .empty

/-- The statement of a record. -/
def insertQuery (t : Table) (record : Record) : Checked Query := do
  let flat ← record.flatten
  return ⟨t.insertSql, ← t.insertParams flat⟩

/-- The statements of records, one each. -/
def insertQueries (t : Table) (records : List Record) : Checked (List Query) :=
  records.mapM t.insertQuery

end ResourceTable.Table
