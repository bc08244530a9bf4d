import ResourceTable.Sql.Names
import ResourceTable.Sql.Plan

/-!
# The database

The tables and their rows in memory, and what statements do to them.  A statement
that fails leaves everything as it was.

## Main definitions

* `Database`: the tables.
* `Outcome`: the rows that a statement gives and the number of rows it changed.
* `Database.prepare`: the tables and columns that a statement names are there.
* `Database.run`: the effect of a statement.
-/

namespace ResourceTable.Sql

/-! ### Changing rows -/

namespace StoredTable

/-- The plan for the rows that are changed or dropped. -/
def changePlan (t : StoredTable) (condition : Option Test) : Plan :=
  let columns := (condition.map (Test.columns t.definition)).getD []
  .ofCondition t.definition { columns, changes := true } condition

/-- Whether every row can be changed as soon as it is found: the changes move no row on
the way that rows are visited, and the condition seeks no elements. -/
def changesAtOnce (t : StoredTable) (plan : Plan) (assignments : List (String × Term))
    (condition : Option Test) : Bool :=
  let assigned := assignments.filterMap fun a => t.definition.resolve a.1
  let onTheWay (p : Pass) : Bool := p.byKey && assigned.any fun c => t.definition.keyRef? == some c
  plan.passes.length == 1 && !plan.passes.any onTheWay && !assigned.contains .number &&
    !condition.any Test.seeksElements

/-- The table after a row was changed, and the number of rows changed so far. -/
def changeNext (now : Timestamp) (assignments : List (String × Term)) (state : StoredTable × Nat)
    (r : StoredRow) : Except Fault (StoredTable × Nat) := do
  let (t, n) := state
  return ((← t.changeRow (t.definition.scope now r) assignments r).1, n + 1)

/-- Changes every visited row that passes its tests before the next one is visited. -/
def changeEach (now : Timestamp) (assignments : List (String × Term))
    (visits : List Visit) (state : StoredTable × Nat) : Except Fault (StoredTable × Nat) :=
  visits.foldlM (fun state v => do
    if ← Test.allHold (state.1.definition.scope now v.row) (v.tests ++ v.further) then
      changeNext now assignments state v.row
    else return state) state

/-- The table after the rows that pass a condition were changed, one after the other,
and their number. -/
def update (t : StoredTable) (now : Timestamp) (assignments : List (String × Term))
    (condition : Option Test) : Except Fault (StoredTable × Nat) := do
  let plan := t.changePlan condition
  if t.changesAtOnce plan assignments condition then
    if ← Test.allHold (.bare now) plan.constants then
      changeEach now assignments (plan.visits t) (t, 0)
    else return (t, 0)
  else
    (← plan.found t now none).foldlM (changeNext now assignments) (t, 0)

/-- The table without the rows that pass a condition, and their number. -/
def delete (t : StoredTable) (now : Timestamp) (condition : Option Test) :
    Except Fault (StoredTable × Nat) := do
  let rows ← (t.changePlan condition).found t now none
  let numbers := rows.map StoredRow.number
  return ({ t with rows := t.rows.filter fun r => !numbers.contains r.number }, rows.length)

end StoredTable

/-! ### Selecting -/

/-- A row that a statement gives: values under titles. -/
abbrev ResultRow := List (String × Cell)

namespace SelectStatement

/-- What rows are ordered by: the output of a title or at a position, or else a value. -/
def sortTerm (s : SelectStatement) : SortKey → Term
  | .term (.column name offset) =>
    match s.outputs.find? fun o => sameName o.title name with
    | some (.value t _) => t
    | _ => .column name offset
  | .term t => t
  | .position n _ =>
    match s.outputs[n - 1]? with
    | some (.value t _) => t
    | _ => .literal .null

/-- Whether the statement counts rows. -/
def counts (s : SelectStatement) : Bool :=
  s.outputs.any fun o => o.term?.isNone

/-- The columns that the statement looks at. -/
def columns (s : SelectStatement) (t : TableDef) : List ColumnRef :=
  s.outputs.flatMap (fun o => (o.term?.map (Term.columns t)).getD []) ++
    (s.condition.map (Test.columns t)).getD [] ++
    (s.sorting.map fun o => (s.sortTerm o.key).columns t).getD []

/-- The order that rows have to be brought into. -/
def order (s : SelectStatement) (t : TableDef) : Option Wish.Order :=
  if s.counts then none
  else s.sorting.map fun o =>
    let key :=
      match s.sortTerm o.key with
      | .column name _ => ((t.resolve name).map Wish.Key.column).getD .other
      | _ => .other
    ⟨key, o.descending, s.outputs.length, s.window.map Prod.fst⟩

/-- The plan for the rows that the statement is about. -/
def plan (s : SelectStatement) (t : TableDef) : Plan :=
  .ofCondition t { columns := s.columns t, order := s.order t } s.condition

/-- The most rows that have to be found, if they come in the order asked for. -/
def most (s : SelectStatement) (plan : Plan) : Option Nat :=
  match s.window with
  | some (0, _) => some 0
  | some (limit, offset) => if plan.ordered && !s.counts then some (limit + offset) else none
  | none => none

/-- Scopes with the values that order them. -/
def keyed (term : Term) (scopes : List Scope) : Except Fault (List (Cell × Scope)) :=
  scopes.mapM fun s => do return (← term.value s, s)

/-- Whether a value may stand before another one. -/
def precedes (descending : Bool) (a b : Cell) : Bool :=
  if descending then a.order b != .lt else a.order b != .gt

/-- The rows in order; rows with the same value keep their order. -/
def sorted (s : SelectStatement) (ordered : Bool) (scopes : List Scope) :
    Except Fault (List Scope) :=
  match s.sorting with
  | none => .ok scopes
  | some sorting =>
    if ordered then .ok scopes
    else do
      let pairs ← keyed (s.sortTerm sorting.key) scopes
      return (pairs.mergeSort fun a b => precedes sorting.descending a.1 b.1).map Prod.snd

/-- The rows of the window. -/
def windowed {α : Type} (s : SelectStatement) (rows : List α) : List α :=
  match s.window with
  | some (limit, offset) => (rows.drop offset).take limit
  | none => rows

/-- The values of a row, or of the number of rows. -/
def resultRow (s : SelectStatement) (rows : Nat) (scope : Scope) : Except Fault ResultRow :=
  s.outputs.mapM fun
    | .count title => .ok (title, .ofInt rows)
    | .value t title => do return (title, ← t.value scope)

/-- The rows that the statement gives of those that passed its condition. -/
def results (s : SelectStatement) (now : Timestamp) (ordered : Bool) (scopes : List Scope) :
    Except Fault (List ResultRow) := do
  if s.counts then
    let row ← s.resultRow scopes.length (.bare now)
    return s.windowed [row]
  else
    let scopes ← s.sorted ordered scopes
    (s.windowed scopes).mapM (s.resultRow 0)

/-- The names in the statement are there. -/
def checkNames (s : SelectStatement) (scope : Scope) : Except Fault Unit := do
  s.outputs.forM fun o => (o.term?.map (Term.checkNames scope)).getD (.ok ())
  (s.condition.map (Test.checkNames scope)).getD (.ok ())
  (s.sorting.map fun o => (s.sortTerm o.key).checkNames scope).getD (.ok ())

/-- The first number of the statement that has no value. -/
def oversized? (s : SelectStatement) : Option Fault :=
  ((s.outputs.findSome? fun o => o.term?.bind Term.oversized?).or
    (s.condition.bind Test.oversized?)).or
    (s.sorting.bind fun o => (s.sortTerm o.key).oversized?)

/-- A position that rows are ordered by is that of an output. -/
def checkPosition (s : SelectStatement) : Except Fault Unit :=
  match s.sorting.map Sorting.key with
  | some (.position n offset) =>
    if n = 0 ∨ 65535 < n then .error (.noSuchOutput s.outputs.length (some offset))
    else if s.outputs.length < n then .error (.noSuchOutput s.outputs.length none)
    else .ok ()
  | _ => .ok ()

end SelectStatement

/-! ### The database -/

/-- What a statement gives. -/
structure Outcome where
  /-- The rows that it gives. -/
  rows : List ResultRow := []
  /-- The number of rows that it changed. -/
  affected : Nat := 0
  deriving DecidableEq

/-- The tables by name. -/
structure Database where
  /-- The tables. -/
  tables : NameMap StoredTable
  deriving DecidableEq

namespace Database

/-- The database without tables. -/
def empty : Database := ⟨.empty⟩

instance : Inhabited Database := ⟨empty⟩

/-- The table of a name. -/
def table (db : Database) (name : String) : Except Fault StoredTable :=
  match db.tables.get? name with
  | some t => .ok t
  | none => .error (.noSuchTable name)

/-- The database with another table in the place of one of its name. -/
def withTable (db : Database) (t : StoredTable) : Database :=
  ⟨db.tables.insert t.definition.name t⟩

/-- There is no fault. -/
def absent : Option Fault → Except Fault Unit
  | some f => .error f
  | none => .ok ()

/-- The names and numbers of a condition are right. -/
def checkCondition (scope : Scope) (condition : Option Test) : Except Fault Unit := do
  (condition.map (Test.checkNames scope)).getD (.ok ())
  absent (condition.bind Test.oversized?)

/-- The table has some columns. -/
def has (t : TableDef) (columns : List String) : Except Fault Unit :=
  match columns.find? fun name => (t.column? name).isNone with
  | some name => .error (.noSuchColumn name none)
  | none => .ok ()

/-- The tables and columns that the statement names are there, and its numbers have
values. -/
def prepare (db : Database) (now : Timestamp) : Statement → Except Fault Unit
  | .select s => do
    match s.table with
    | none => s.checkNames (.bare now)
    | some name =>
      let t := (← db.table name).definition
      s.checkNames (t.scope now (t.blankRow 0))
    s.checkPosition
    absent s.oversized?
  | .insert s => do
    let t := (← db.table s.table).definition
    has t s.columns
    has t s.returning
  | .update name assignments condition => do
    let t := (← db.table name).definition
    let scope := t.scope now (t.blankRow 0)
    has t (assignments.map Prod.fst)
    assignments.forM fun a => a.2.checkNames scope
    checkCondition scope condition
  | .delete name condition => do
    let t := (← db.table name).definition
    checkCondition (t.scope now (t.blankRow 0)) condition
  | .createTable ifAbsent t =>
    if !ifAbsent && db.tables.contains t.name then .error (.tableExists t.name) else .ok ()

/-- The rows that a `SELECT` gives. -/
def select (db : Database) (now : Timestamp) (s : SelectStatement) :
    Except Fault (List ResultRow) :=
  match s.table with
  | none => do
    let tests := (s.condition.map Test.conjuncts).getD []
    s.results now true (if ← Test.allHold (.bare now) tests then [.bare now] else [])
  | some name => do
    let t ← db.table name
    let plan := s.plan t.definition
    let rows ← plan.found t now (s.most plan)
    s.results now plan.ordered (rows.map (t.definition.scope now))

/-- The effect of a statement. -/
def run (db : Database) (now : Timestamp) : Statement → Except Fault (Outcome × Database)
  | .select s => do return ({ rows := ← db.select now s }, db)
  | .insert s => do
    let (t, r) ← (← db.table s.table).insert now s
    let returned (c : String) : String × Cell := (c, r.cell (t.definition.spelled c))
    let rows := if s.returning.isEmpty then [] else [s.returning.map returned]
    return ({ rows, affected := 1 }, db.withTable t)
  | .update name assignments condition => do
    let (t, affected) ← (← db.table name).update now assignments condition
    return ({ affected }, db.withTable t)
  | .delete name condition => do
    let (t, affected) ← (← db.table name).delete now condition
    return ({ affected }, db.withTable t)
  | .createTable _ t =>
    if db.tables.contains t.name then .ok ({}, db)
    else .ok ({}, db.withTable ⟨t, []⟩)

end Database

end ResourceTable.Sql
