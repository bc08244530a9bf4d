import ResourceTable.ListRequest
import ResourceTable.Session
import ResourceTable.Statement.Delete
import ResourceTable.Statement.Insert
import ResourceTable.Statement.Select
import ResourceTable.Statement.Update

/-!
# Access to the records of a table

Records are listed, created, updated and deleted for callers.  Callers name rows by
filters, which are checked against the rules of the access and joined with its
crown rules.

## Main definitions

* `Resource`: a table and the type of its records.
* `Access`: how callers may use it.
* `Access.list`, `Access.create`, `Access.update`, `Access.deleteIn`.
-/

namespace ResourceTable

/-- A table and the type of its records. -/
structure Resource where
  /-- The table. -/
  table : Table
  /-- The type of the records. -/
  type : RecordType
  /-- Gives a record its identifier; unless it is said otherwise, in its text field
  of the column `id`. -/
  setId : String → type.Content → type.Content := type.fields.withText "id"

namespace Resource

/-- A record of the table. -/
abbrev Item (r : Resource) : Type := r.type.Content

/-- The record with its type. -/
def record (r : Resource) (item : r.Item) : Record := ⟨r.type, item⟩

/-- A row with the names of columns in the place of the titles under which they were
selected. -/
def physical (r : Resource) (row : Row) : Row :=
  .ofList (row.entries.map fun entry =>
    ((r.table.columns.nameOfTitle? entry.1).getD entry.1, entry.2))

/-- The record of a selected row. -/
def ofRow (r : Resource) (row : Row) : Checked r.Item := r.type.ofRow (r.physical row)

/-- Whether records are given identifiers before they are inserted. -/
def insertsId (r : Resource) : Bool := r.table.columns.insertedNames.contains "id"

/-- Gives records their identifiers, as far as there are identifiers. -/
def identify (r : Resource) : List String → List r.Item → List r.Item
  | id :: ids, item :: items => r.setId id item :: r.identify ids items
  | _, items => items

end Resource

/-- How callers may use the records of a table. -/
structure Access (r : Resource) where
  /-- Where counters of identifiers are kept. -/
  ids : IdSource := .database
  /-- What pages may ask for. -/
  pages : PageRules := {}
  /-- What filters are checked against. -/
  rules : FilterRules := { fields := r.table.fields }
  /-- How filters are compiled. -/
  options : CompileOptions := {}

/-- What a list request gives. -/
structure Listing (α : Type) where
  /-- The number of records, if that was asked for. -/
  count : Option (FixedInt .u64) := none
  /-- The records. -/
  details : List α := []

namespace Access

/-- Fails if the request is wrong. -/
def demand {σ α : Type} (c : Checked α) : Action σ α :=
  ExceptT.mk (pure (c.mapError Failure.request))

variable {r : Resource}

/-- The number in the first column of the first row. -/
def countOf : List Row → Checked (FixedInt .u64)
  | [] => .ok (.zero .u64)
  | row :: _ =>
    match row.keys with
    | [] => .ok (.zero .u64)
    | column :: _ => (ScalarType.integer .u64).fetch row column

/-- The `WHERE` clause of a filter. -/
def clause (a : Access r) (filter : Filter) : Checked Clause := do
  (← filter.validate a.rules).compile a.options

/-- The statement of a list request. -/
def listQuery (a : Access r) (request : ListRequest) : Checked Query := do
  let valid ← request.validate a.rules a.pages
  let clause ← valid.compile a.options
  let selection : Selection := { fields := request.fields, filter := some clause }
  (selection.paged request.page a.pages).query r.table

/-- The records that a request asks for. -/
def list (a : Access r) (caller : Caller) (request : ListRequest) :
    Action Session (Listing r.Item) := do
  let q ← demand (a.listQuery request)
  let rows ← Session.connection.query caller q
  if request.page.count then return { count := some (← demand (countOf rows)) }
  else return { details := ← demand (rows.mapM r.ofRow) }

/-- Executes statements one after the other, and gives the number of rows that they
changed. -/
def executeAll (caller : Caller) : List Query → Action Session Nat
  | [] => return 0
  | q :: rest => do
    let affected ← Session.connection.execute caller q
    return affected + (← executeAll caller rest)

/-- Creates records as part of a transaction, and gives their identifiers and the
records with them. -/
def createIn (a : Access r) (caller : Caller) (items : List r.Item) :
    Action Session (List String × List r.Item) := do
  if items.isEmpty then throw (.request (.nothingToCreate r.table.name))
  let ids ←
    if r.insertsId then a.ids.reserve caller r.table.name items.length else pure []
  let items := r.identify ids items
  let _ ← executeAll caller (← demand (r.table.insertQueries (items.map r.record)))
  return (ids, items)

/-- Creates records, all or none. -/
def create (a : Access r) (caller : Caller) (items : List r.Item) :
    Action Session (List String × List r.Item) :=
  Session.transaction id caller (a.createIn caller items)

/-- The statement of an update. -/
def updateQuery (a : Access r) (filter : Filter) (patch : Record) (policy : UpdatePolicy) :
    Checked Query := do
  let clause ← a.clause filter
  (← patch.setClause policy).query r.table (some clause)

/-- Updates the rows for which a filter holds, as part of a transaction, and gives
their number. -/
def updateIn (a : Access r) (caller : Caller) (filter : Filter) (patch : Record)
    (policy : UpdatePolicy) : Action Session Nat := do
  Session.connection.execute caller (← demand (a.updateQuery filter patch policy))

/-- Updates the rows for which a filter holds, and gives their number. -/
def update (a : Access r) (caller : Caller) (filter : Filter) (patch : Record)
    (policy : UpdatePolicy) : Action Session Nat :=
  Session.transaction id caller (a.updateIn caller filter patch policy)

/-- The statement of a deletion. -/
def deleteQuery (a : Access r) (filter : Filter) : Checked Query := do
  r.table.deleteQuery (some (← a.clause filter))

/-- Deletes the rows for which a filter holds, as part of a transaction, and gives
their number. -/
def deleteIn (a : Access r) (caller : Caller) (filter : Filter) : Action Session Nat := do
  Session.connection.execute caller (← demand (a.deleteQuery filter))

end Access

end ResourceTable
