import ResourceTable.NameMap
import ResourceTable.Sql.Evaluation

/-!
# Tables and their rows

## Main definitions

* `ColumnRef`, `TableDef.resolve`: what a name stands for in a table.
* `StoredRow`, `StoredTable`: rows and tables with rows.
* `StoredTable.changeRow`, `StoredTable.insert`: changes of single rows.
-/

namespace ResourceTable.Sql

/-! ### Names -/

/-- What a name stands for in a table. -/
inductive ColumnRef
  /-- The number of the row. -/
  | number
  /-- A column, by the name that the table gives it. -/
  | named (column : String)
  deriving DecidableEq, Repr

namespace TableDef

/-- The column of a name. -/
def column? (t : TableDef) (name : String) : Option ColumnDef :=
  t.columns.find? fun d => sameName d.name name

/-- The names of the columns. -/
def names (t : TableDef) : List String := t.columns.map ColumnDef.name

/-- The names of the number of a row, in a table without columns of these names. -/
def numberNames : List String := ["rowid", "oid", "_rowid_"]

/-- What a name stands for. -/
def resolve (t : TableDef) (name : String) : Option ColumnRef :=
  match t.column? name with
  | some d => if t.key = .rowNumber d.name then some .number else some (.named d.name)
  | none => if numberNames.any (sameName name) then some .number else none

/-- The affinity of a column; the number of a row is an integer. -/
def affinity (t : TableDef) : ColumnRef → Affinity
  | .number => .numeric
  | .named column => ((t.column? column).map ColumnDef.affinity).getD .any

/-- The key, if it is another column than the number of the row. -/
def keyRef? (t : TableDef) : Option ColumnRef :=
  match t.key with
  | .column column => some (.named column)
  | _ => none

/-- The name that the table gives a column. -/
def spelled (t : TableDef) (column : String) : String :=
  ((t.column? column).map ColumnDef.name).getD column

/-- A value as the column stores it. -/
def stored (t : TableDef) (column : String) (c : Cell) : Cell :=
  match t.column? column with
  | some d => d.affinity.store c
  | none => c

end TableDef

/-! ### Rows -/

/-- A row of a table. -/
structure StoredRow where
  /-- The number of the row, which orders the rows. -/
  number : Int
  /-- The value of every column. -/
  cells : NameMap Cell
  deriving DecidableEq

namespace StoredRow

/-- The value of a column. -/
def cell (r : StoredRow) (column : String) : Cell := (r.cells.get? column).getD .null

/-- The value that a name stands for. -/
def value (r : StoredRow) : ColumnRef → Cell
  | .number => .ofInt r.number
  | .named column => r.cell column

end StoredRow

namespace TableDef

/-- What a column of a row stands for. -/
def slot? (t : TableDef) (r : StoredRow) (name : String) : Option Slot :=
  (t.resolve name).map fun c => ⟨t.affinity c, r.value c⟩

/-- The scope of a row. -/
def scope (t : TableDef) (now : Timestamp) (r : StoredRow) : Scope where
  column? := t.slot? r
  member? row name := if sameName row t.name then t.slot? r name else none
  now := now

/-- The scope of a row that another one, which goes by `excluded`, was to join. -/
def conflictScope (t : TableDef) (now : Timestamp) (r excluded : StoredRow) : Scope :=
  { t.scope now r with
    member? := fun row name =>
      if sameName row "excluded" then t.slot? excluded name
      else if sameName row t.name then t.slot? r name
      else none }

/-- A row without values. -/
def blankRow (t : TableDef) (number : Int) : StoredRow :=
  ⟨number, .ofList (t.names.map fun name => (name, .null))⟩

/-- The columns that are required have values; the number of rows always has one. -/
def checkRequired (t : TableDef) (r : StoredRow) : Except Fault Unit :=
  let lacks (d : ColumnDef) : Bool :=
    d.required && (r.cell d.name).isNull && t.key != .rowNumber d.name
  match t.columns.find? lacks with
  | some d => .error (.valueRequired t.name d.name)
  | none => .ok ()

/-- The number of the row, which is that of its key if the key numbers rows; a row
that is added without one gets the given number. -/
def numbered (t : TableDef) (fresh : Option Int) (r : StoredRow) : Except Fault StoredRow :=
  match t.key with
  | .rowNumber column =>
    match r.cell column, fresh with
    | .integer n, _ => .ok { r with number := n.val }
    | .null, some n =>
      match FixedInt.ofInt? .i64 n with
      | some n => .ok ⟨n.val, r.cells.insert column (.integer n)⟩
      | none => .error .full
    | _, _ => .error .notRowNumber
  | _ => .ok { r with number := fresh.getD r.number }

end TableDef

/-- A table and its rows, ordered by their numbers. -/
structure StoredTable where
  /-- The definition. -/
  definition : TableDef
  /-- The rows. -/
  rows : List StoredRow
  deriving DecidableEq

namespace StoredTable

/-- A number for a new row: one above that of the last. -/
def freshNumber (t : StoredTable) : Int :=
  match t.rows.getLast? with
  | some r => r.number + 1
  | none => 1

/-- Puts a row at its place. -/
def place (r : StoredRow) : List StoredRow → List StoredRow
  | [] => [r]
  | s :: rest => if r.number < s.number then r :: s :: rest else s :: place r rest

/-- The row with the same key, apart from the row of a number. -/
def rival? (t : StoredTable) (r : StoredRow) (apart : Option Int) : Option StoredRow :=
  match t.definition.key.name? with
  | none => none
  | some column =>
    let key := r.cell column
    if key.isNull then none
    else t.rows.find? fun s => some s.number != apart && (s.cell column).same key

/-- No other row has the key of the row. -/
def checkKey (t : StoredTable) (r : StoredRow) (apart : Option Int) : Except Fault Unit :=
  match t.rival? r apart with
  | some _ => .error (.keyTaken t.definition.name (t.definition.key.name?.getD ""))
  | none => .ok ()

/-- The table without the row of a number. -/
def without (t : StoredTable) (number : Int) : StoredTable :=
  { t with rows := t.rows.filter fun r => r.number != number }

/-- The table with one more row. -/
def adding (t : StoredTable) (r : StoredRow) : StoredTable :=
  { t with rows := place r t.rows }

/-- A row with other values in some columns. -/
def assigned (t : StoredTable) (s : Scope) (assignments : List (String × Term))
    (r : StoredRow) : Except Fault StoredRow := do
  let values ← assignments.mapM fun a => do return (a.1, ← a.2.value s)
  let assign (cells : NameMap Cell) (a : String × Cell) : NameMap Cell :=
    cells.insert (t.definition.spelled a.1) (t.definition.stored a.1 a.2)
  return { r with cells := values.foldl assign r.cells }

/-- The table after one row was given other values. -/
def changeRow (t : StoredTable) (s : Scope) (assignments : List (String × Term))
    (r : StoredRow) : Except Fault (StoredTable × StoredRow) := do
  let changed ← t.assigned s assignments r
  let changed ← t.definition.numbered none changed
  t.definition.checkRequired changed
  t.checkKey changed (some r.number)
  return ((t.without r.number).adding changed, changed)

/-- The row that an `INSERT` adds. -/
def newRow (t : StoredTable) (now : Timestamp) (columns : List String) (values : List Term) :
    Except Fault StoredRow := do
  let columns := if columns.isEmpty then t.definition.names else columns
  if columns.length != values.length then
    .error (.wrongValueCount values.length columns.length)
  let blank := t.definition.blankRow t.freshNumber
  let r ← t.assigned (.bare now) (columns.zip values) blank
  t.definition.numbered (some t.freshNumber) r

/-- The table with one more row, or with the row changed that has its key, and the
row that is now in the table. -/
def insert (t : StoredTable) (now : Timestamp) (s : InsertStatement) :
    Except Fault (StoredTable × StoredRow) := do
  let r ← t.newRow now s.columns s.values
  t.definition.checkRequired r
  match t.rival? r none, s.onConflict with
  | none, _ => return (t.adding r, r)
  | some rival, .replace => return ((t.without rival.number).adding r, r)
  | some rival, .update _ assignments =>
    t.changeRow (t.definition.conflictScope now rival r) assignments rival
  | some _, .fail => .error (.keyTaken t.definition.name (t.definition.key.name?.getD ""))

end StoredTable

end ResourceTable.Sql
