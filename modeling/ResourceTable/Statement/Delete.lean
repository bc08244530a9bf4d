import ResourceTable.Filter.Clause
import ResourceTable.Table

/-!
# `DELETE` statements

## Main definitions

* `Table.deleteQuery`: the deletion of the rows for which a filter holds.
-/

namespace ResourceTable.Table

/-- The statement that deletes the rows for which the filter holds.  A filter that
holds of every row is refused. -/
def deleteQuery (t : Table) (filter : Option Clause) : Checked Query :=
  match filter.filter fun clause => !clause.matchesAll with
  | none => .error (.deleteNeedsFilter t.name)
  | some clause => .ok ⟨"DELETE FROM " ++ t.name ++ " " ++ clause.sql, clause.params⟩

end ResourceTable.Table
