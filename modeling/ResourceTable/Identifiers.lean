import ResourceTable.Connection
import ResourceTable.Text.Hex

/-!
# Identifiers

Records get identifiers of eight lower-case hexadecimal digits.  They are reserved
in batches by advancing a counter of their kind, which is kept in a table of the
database or in memory.

## Main definitions

* `Identifiers.range`: the identifiers below a counter.
* `Identifiers.reserve`, `Identifiers.migrate`: counters in the database.
* `Counters`, `Counters.reserve`: counters in memory.
-/

namespace ResourceTable

namespace Identifiers

/-- The most identifiers of a batch. -/
def maxBatch : Nat := 1000

/-- The greatest counter, which has eight digits. -/
def greatest : Int := IntType.u32.greatest

/-- The batch is neither empty nor too large. -/
def checkBatch (n : Nat) : Except Failure Unit :=
  if n = 0 ∨ maxBatch < n then .error (.request (.batchSize n maxBatch)) else .ok ()

/-- The identifier of a number. -/
def text (n : Nat) : String := String.ofList (paddedHex 8 n)

/-- The first number of the last `n` numbers up to a counter, in the arithmetic of
signed 64-bit integers. -/
def firstOf (counter : Int) (n : Nat) : Int := (counter - n + 1).bmod IntType.i64.count

/-- The last `n` identifiers up to a counter.  A counter so far below zero that its
first number wraps around has none. -/
def range (kind : String) (counter : Int) (n : Nat) : Except Failure (List String) :=
  if greatest < counter then
    .error (.exhausted kind ("counter " ++ toString counter ++ " exceeds the 8-digit id space"))
  else
    let first := firstOf counter n
    if first < 1 then
      .error (.exhausted kind ("counter " ++ toString counter ++ " is behind the requested batch"))
    else .ok ((List.range' first.toNat (counter + 1 - first).toNat).map text)

/-! ### Counters in the database -/

/-- The statement that adds the table of counters. -/
def migration : Query :=
  ⟨"CREATE TABLE IF NOT EXISTS id_generator (resource TEXT PRIMARY KEY, max_id INTEGER NOT NULL)",
    .empty⟩

/-- The statement that advances a counter and gives it. -/
def advance (kind : String) (n : Nat) : Query :=
  let q : Query :=
    ⟨"INSERT INTO id_generator (resource, max_id) VALUES (:resource, :step) " ++
      "ON CONFLICT (resource) DO UPDATE SET max_id = id_generator.max_id + excluded.max_id " ++
      "RETURNING max_id", .empty⟩
  (q.bind "resource" (.text kind)).bind "step" (.integer .i64 (FixedInt.ofInt? .i64 n))

/-- What becomes of a failure to advance a counter: a cancellation stays one. -/
def advanceFailure (kind : String) : Failure → Failure
  | .canceled => .canceled
  | f => .exhausted kind f.message

/-- The counter in the rows that advancing it gave. -/
def counterOf (kind : String) : List Row → Except Failure Int
  | [] => .error (.exhausted kind "counter was not advanced")
  | row :: _ =>
    match (ScalarType.integer .i64).fetch row "max_id" with
    | .ok (n : FixedInt .i64) => .ok n.val
    | .error e => .error (.exhausted kind e.message)

variable {σ : Type}

/-- Adds the table of counters. -/
def migrate (c : Connection σ) (caller : Caller) : Action σ Unit := do
  let _ ← c.execute caller migration

/-- Reserves a batch of identifiers of a kind. -/
def reserve (c : Connection σ) (caller : Caller) (kind : String) (n : Nat) :
    Action σ (List String) := do
  checkBatch n
  let rows ← (c.query caller (advance kind n)).adapt (advanceFailure kind)
  let counter ← counterOf kind rows
  range kind counter n

end Identifiers

/-! ### Counters in memory -/

/-- The counters by kind. -/
abbrev Counters := NameMap Int

namespace Counters

/-- The counter of a kind. -/
def counter (c : Counters) (kind : String) : Int := (c.get? kind).getD 0

/-- Reserves a batch of identifiers of a kind, unless the caller canceled. -/
def reserve (check : Except Failure Unit) (kind : String) (n : Nat) :
    Action Counters (List String) := do
  check
  Identifiers.checkBatch n
  let counter := (← get).counter kind + n
  modify fun c => c.insert kind counter
  Identifiers.range kind counter n

end Counters

end ResourceTable
