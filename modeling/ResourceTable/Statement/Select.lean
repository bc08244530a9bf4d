import ResourceTable.Filter.Clause
import ResourceTable.Page
import ResourceTable.Table

/-!
# `SELECT` statements

## Main definitions

* `Selection`: what is asked of a table.
* `Selection.query`: the statement.
-/

namespace ResourceTable

/-- What is asked of a table. -/
structure Selection where
  /-- The columns that are wanted; all of them, if none is named. -/
  fields : List String := []
  /-- The rows that are wanted; all of them without a filter. -/
  filter : Option Clause := none
  /-- The page that is wanted, and what it may ask for. -/
  page : Option (Page × PageRules) := none
  /-- Whether only the number of rows is wanted. -/
  counting : Bool := false
  deriving DecidableEq

namespace Selection

/-- The selection of a page, which decides whether rows are counted. -/
def paged (s : Selection) (page : Page) (rules : PageRules) : Selection :=
  { s with page := some (page, rules), counting := page.count }

/-- The selection of the number of rows. -/
def counted (s : Selection) : Selection := { s with counting := true }

/-- What is selected of every row. -/
def projection (table : Table) (s : Selection) : Checked String :=
  if s.counting then .ok "COUNT(*)"
  else
    let columns := table.columns.projectionOf s.fields
    if columns.isEmpty then .error (.nothingSelected table.name) else .ok columns

/-- The end of the statement. -/
def suffix (s : Selection) : Checked String :=
  match s.page with
  | some (page, rules) => if s.counting then .ok "" else page.suffix rules
  | none => .ok ""

/-- A part of the statement after a blank, if there is one. -/
def spaced (part : String) : String := if part.isEmpty then "" else " " ++ part

/-- The statement. -/
def query (table : Table) (s : Selection) : Checked Query := do
  let projection ← s.projection table
  let suffix ← s.suffix
  let (condition, params) :=
    match s.filter with
    | some clause => (" " ++ clause.sql, clause.params)
    | none => ("", .empty)
  return ⟨"SELECT " ++ projection ++ " FROM " ++ table.name ++ condition ++ spaced suffix, params⟩

end Selection

end ResourceTable
