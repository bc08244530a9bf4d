import ResourceTable.Identifiers
import ResourceTable.Sql.Parser

/-!
# Sessions

A session holds the database together with what else operations change: the
canceled callers, the counters in memory, the clock, and the statements issued.

A statement is issued if its caller has not canceled and every placeholder is
bound; it can then still fail.  A transaction whose body fails leaves the database
as it was, but nothing else: statements were issued, and counters in memory have
advanced.

## Main definitions

* `Session`, `Session.connection`.
* `Session.transaction`.
* `IdSource`, `IdSource.reserve`.

## Main results

* `transaction_error`: a transaction that fails leaves the database as it was.
-/

namespace ResourceTable

/-- The database and what else operations change. -/
structure Session where
  /-- The database. -/
  database : Sql.Database := .empty
  /-- The canceled callers. -/
  signals : Signals := {}
  /-- The counters in memory. -/
  counters : Counters := .empty
  /-- The clock. -/
  clock : Timestamp := .epoch
  /-- The statements issued, in order. -/
  issued : List String := []

namespace Session

/-- The caller has not canceled. -/
def check (caller : Caller) : Action Session Unit := do
  (← get).signals.check caller

/-- Issues a statement, for which the clock moves on. -/
def issue (sql : String) : Action Session Unit :=
  modify fun s => { s with issued := s.issued ++ [sql], clock := s.clock.addMicros 1 }

/-- A failure of the database while doing something. -/
def failing {α : Type} (context sql : String) (r : Except Sql.Fault α) : Except Failure α :=
  r.mapError fun f => (Report.during ⟨.text (f.message sql), []⟩ context).failure

/-- The statement of a text and its cells, whose names are those of tables and
columns. -/
def prepared (s : Session) (sql : String) (cells : List Sql.Cell) :
    Except Sql.Fault Sql.Statement := do
  let statement ← Sql.Statement.read sql cells
  s.database.prepare s.clock statement
  return statement

/-- Executes a query. -/
def perform (context : String) (caller : Caller) (q : Query) : Action Session Sql.Outcome := do
  check caller
  let (sql, cells) ← q.bound
  issue sql
  let s ← get
  let statement ← failing "failed to prepare statement" sql (s.prepared sql cells)
  let (outcome, database) ← failing context sql (s.database.run s.clock statement)
  set { s with database }
  return outcome

/-- The connection of a session. -/
def connection : Connection Session where
  query caller q := do
    let outcome ← perform "failed to fetch row" caller q
    return outcome.rows.map Row.ofResult
  execute caller q := do
    let outcome ← perform "failed to execute statement" caller q
    return outcome.affected

/-! ### Transactions -/

/-- Runs a body that leaves the database as it was if it fails. -/
def atomically {ε α : Type} (body : ExceptT ε (StateM Session) α) :
    ExceptT ε (StateM Session) α := fun s =>
  match body s with
  | (.ok a, after) => (.ok a, after)
  | (.error e, after) => (.error e, { after with database := s.database })

/-- Runs a body as a transaction, unless its caller has canceled. -/
def transaction {ε α : Type} (ofFailure : Failure → ε) (caller : Caller)
    (body : ExceptT ε (StateM Session) α) : ExceptT ε (StateM Session) α := fun s =>
  match s.signals.check caller with
  | .ok () => atomically body s
  | .error f => (.error (ofFailure f), s)

theorem atomically_error {ε α : Type} {body : ExceptT ε (StateM Session) α} {s : Session}
    {e : ε} (h : (atomically body s).1 = .error e) :
    (atomically body s).2.database = s.database := by
  revert h
  unfold atomically
  rcases body s with ⟨_ | _, after⟩ <;> simp

theorem transaction_error {ε α : Type} {ofFailure : Failure → ε} {caller : Caller}
    {body : ExceptT ε (StateM Session) α} {s : Session} {e : ε}
    (h : (transaction ofFailure caller body s).1 = .error e) :
    (transaction ofFailure caller body s).2.database = s.database := by
  revert h
  unfold transaction
  cases s.signals.check caller with
  | ok u => exact atomically_error
  | error f => exact fun _ => rfl

end Session

/-! ### Identifiers -/

/-- Where counters are kept. -/
inductive IdSource
  /-- In a table of the database. -/
  | database
  /-- In memory. -/
  | memory
  deriving DecidableEq, Repr

namespace IdSource

/-- Reserves a batch of identifiers of a kind. -/
def reserve (caller : Caller) (kind : String) (n : Nat) : IdSource → Action Session (List String)
  | database => Identifiers.reserve Session.connection caller kind n
  | memory => fun s =>
    let (result, counters) := Counters.reserve (s.signals.check caller) kind n s.counters
    (result, { s with counters })

end IdSource

end ResourceTable
