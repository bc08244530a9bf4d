import ResourceTable.Column

/-!
# Tables

## Main definitions

* `Table`: a name, the columns, and the fields that filters may name.
-/

namespace ResourceTable

/-- A table of the database. -/
structure Table where
  /-- The name. -/
  name : String
  /-- The columns. -/
  columns : Registry
  /-- The fields that filters may name: columns, and paths into documents. -/
  fields : Schema
  deriving DecidableEq

namespace Table

/-- A table whose columns are the fields that filters may name. -/
def ofColumns (name : String) (columns : Registry) : Table := ⟨name, columns, columns.types⟩

/-- The table with one more field that filters may name. -/
def withField (t : Table) (field : String) (type : ColumnType) : Table :=
  { t with fields := t.fields.insert field type }

end Table

end ResourceTable
