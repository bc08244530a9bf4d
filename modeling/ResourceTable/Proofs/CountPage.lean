import Mathlib.Algebra.Group.Nat.Defs
import ResourceTable.Proofs.AcceptedRequest
import ResourceTable.Proofs.RowChanges
import ResourceTable.Proofs.SameCondition
import ResourceTable.Proofs.SessionRun
import ResourceTable.Proofs.StoredInteger

/-!
# Counting the rows of a filter

A list request whose page asks for a count is answered with the number of rows that its
statement finds.  Its statement can be prepared wherever another one with the same
condition was.

## Main definitions

* `countRequest`: the request for the number of rows of a filter.

## Main results

* `Access.listQuery_count` — the statement of the request.
* `Database.prepare_count`, `Database.select_count` — what the database makes of it.
* `Access.list_count` — **the request is answered with the number of rows that are found.**
-/

namespace ResourceTable

open Sql

/-! ### The statement of a count -/

namespace Sql.Database

variable {db : Database} {now : Timestamp} {name : String} {t : StoredTable} {c u : Test}

/-- The names and numbers in the condition of a prepared `UPDATE` are right. -/
theorem checkCondition_of_update {assignments : List (String × Term)} {condition : Option Test}
    (ht : db.table name = .ok t)
    (h : db.prepare now (.update name assignments condition) = .ok ()) :
    checkCondition (t.definition.scope now (t.definition.blankRow 0)) condition = .ok () := by
  unfold prepare at h
  dsimp only at h
  rw [ht, Test.ok_bind] at h
  obtain ⟨_, -, h⟩ := Test.bind_eq_ok h
  obtain ⟨_, -, h⟩ := Test.bind_eq_ok h
  exact h

/-- So they are in that of a prepared `DELETE`. -/
theorem checkCondition_of_delete {condition : Option Test} (ht : db.table name = .ok t)
    (h : db.prepare now (.delete name condition) = .ok ()) :
    checkCondition (t.definition.scope now (t.definition.blankRow 0)) condition = .ok () := by
  unfold prepare at h
  dsimp only at h
  rw [ht, Test.ok_bind] at h
  exact h

/-- A count is prepared where the names and numbers of its condition are right, whatever
their places. -/
theorem prepare_count (ht : db.table name = .ok t) (hcu : c.unplaced = u.unplaced)
    (h : checkCondition (t.definition.scope now (t.definition.blankRow 0)) (some c) = .ok ()) :
    db.prepare now (.select (countStatement name u)) = .ok () := by
  unfold checkCondition at h
  obtain ⟨_, hnames, hsizes⟩ := Test.bind_eq_ok h
  have hsize : c.oversized? = none := by
    unfold absent at hsizes
    split at hsizes
    · cases hsizes
    · next hnone => exact hnone
  have hnames' := (Test.checkNames_iff_of_unplaced_eq hcu).1 hnames
  have hsize' := (Test.oversized?_iff_of_unplaced_eq hcu).1 hsize
  have hcheck : (countStatement name u).checkNames
      (t.definition.scope now (t.definition.blankRow 0)) = .ok () := by
    show (u.checkNames _ >>= fun _ => _) = _
    rw [hnames', Test.ok_bind]
    rfl
  have hsizes' : (countStatement name u).oversized? = none := by
    show ((none : Option Fault).or u.oversized?).or none = none
    rw [hsize']
    rfl
  unfold prepare
  dsimp only [countStatement] at hcheck hsizes' ⊢
  rw [ht, Test.ok_bind, hcheck, Test.ok_bind, hsizes']
  rfl

/-- A count gives one row, with the number of rows that are found. -/
theorem select_count (ht : db.table name = .ok t) {rows : List StoredRow}
    (h : ((countStatement name u).plan t.definition).found t now none = .ok rows) :
    db.select now (countStatement name u) = .ok [[("COUNT(*)", .ofInt rows.length)]] := by
  have hmost : (countStatement name u).most ((countStatement name u).plan t.definition) = none :=
    rfl
  have htable : (countStatement name u).table = some name := rfl
  unfold select
  rw [htable]
  dsimp only
  rw [ht, Test.ok_bind, hmost, h, Test.ok_bind]
  unfold SelectStatement.results
  rw [if_pos (by rfl), List.length_map]
  rfl

theorem run_count (ht : db.table name = .ok t) {rows : List StoredRow}
    (h : ((countStatement name u).plan t.definition).found t now none = .ok rows) :
    db.run now (.select (countStatement name u)) =
      .ok ({ rows := [[("COUNT(*)", .ofInt rows.length)]] }, db) := by
  unfold run
  dsimp only
  rw [select_count ht h]
  rfl

end Sql.Database

/-! ### The request -/

/-- The request for the number of rows of a filter. -/
def countRequest (filter : Filter) : ListRequest where
  filter := some filter
  page := { count := true }

namespace Access

variable {r : Resource} {a : Access r} {filter : Filter} {s : Session}

/-- The statement of a count has the clause of its filter and nothing else. -/
theorem listQuery_count {clause : Clause} (h : a.clause filter = .ok clause) :
    a.listQuery (countRequest filter) =
      .ok ⟨"SELECT COUNT(*) FROM " ++ r.table.name ++ " " ++ clause.sql, clause.params⟩ := by
  unfold Access.clause at h
  cases hv : filter.validate a.rules with
  | error e => rw [hv] at h; cases h
  | ok v =>
    rw [hv] at h
    have hvalid : (countRequest filter).validate a.rules a.pages = .ok v := by
      unfold ListRequest.validate
      dsimp only [countRequest]
      rw [hv]
      rfl
    rw [listQuery_eq hvalid h rfl]
    rfl

/-- The number that a count gives is read. -/
theorem exists_countOf {n : Nat} (h : n < 2 ^ 63) :
    ∃ k : FixedInt .u64, countOf [Row.ofResult [("COUNT(*)", .ofInt n)]] = .ok k ∧ k.val = n := by
  have hsigned : IntType.i64.Holds n := ⟨by show -2 ^ 63 ≤ (n : Int); omega,
    by show (n : Int) ≤ 2 ^ 63 - 1; omega⟩
  have hunsigned : IntType.u64.Holds n := ⟨by show (0 : Int) ≤ n; omega,
    by show (n : Int) ≤ 2 ^ 64 - 1; omega⟩
  have hstored : FixedInt.ofInt? .i64 n = some ⟨n, hsigned⟩ := FixedInt.ofInt?_eq_some_iff.2 rfl
  have hcell : Cell.ofInt n = .integer ⟨n, hsigned⟩ := by rw [Cell.ofInt, hstored]
  have hgives := Cell.gives_integer ⟨n, hsigned⟩ "COUNT(*)" .u64
  rw [dif_pos hunsigned] at hgives
  refine ⟨⟨n, hunsigned⟩, ?_, rfl⟩
  rw [hcell]
  exact hgives

/-- What a request is answered with, once its statement has given rows. -/
def answer (r : Resource) (request : ListRequest) (rows : List Row) : Checked (Listing r.Item) :=
  if request.page.count then do return { count := some (← countOf rows) }
  else do return { details := ← rows.mapM r.ofRow }

/-- **A request is answered with what the rows of its statement say.** -/
theorem list_run {caller : Caller} (hcheck : s.signals.check caller = .ok ())
    {request : ListRequest} {q : Query} (hq : a.listQuery request = .ok q) {sql : String}
    {cells : List Cell} (hbound : q.bound = .ok (sql, cells)) {statement : Statement}
    (hread : Statement.read sql cells = .ok statement)
    (hprepare : s.database.prepare (s.clock.addMicros 1) statement = .ok ()) {outcome : Outcome}
    {db : Database} (hrun : s.database.run (s.clock.addMicros 1) statement = .ok (outcome, db)) :
    (a.list caller request s).1 =
      (answer r request (outcome.rows.map Row.ofResult)).mapError Failure.request := by
  have hperform := Session.perform_ok "failed to fetch row" caller hcheck hbound hread hprepare hrun
  unfold list
  rw [Action.bind_run, hq]
  -- What is left to do once the statement is built.
  show ((do
    let rows ← Session.connection.query caller q
    if request.page.count then return { count := some (← demand (countOf rows)) }
    else return { details := ← demand (rows.mapM r.ofRow) } :
      Action Session (Listing r.Item)) s).1 = _
  have hquery : Session.connection.query caller q s =
      (.ok (outcome.rows.map Row.ofResult), { s.afterIssue sql with database := db }) := by
    dsimp only [Session.connection]
    rw [Action.bind_run, hperform]
    rfl
  rw [Action.bind_run, hquery]
  dsimp only
  unfold answer
  split
  · rw [Action.bind_run]
    unfold demand
    cases countOf (outcome.rows.map Row.ofResult) <;> rfl
  · rw [Action.bind_run]
    unfold demand
    cases (outcome.rows.map Row.ofResult).mapM r.ofRow <;> rfl

/-- **The request is answered with the number of rows that its statement finds.** -/
theorem list_count {caller : Caller} (hcheck : s.signals.check caller = .ok ())
    {request : ListRequest} (hcount : request.page.count = true) {q : Query}
    (hq : a.listQuery request = .ok q) {sql : String} {cells : List Cell}
    (hbound : q.bound = .ok (sql, cells)) {c u : Test}
    (hread : Statement.read sql cells = .ok (.select (countStatement r.table.name u)))
    {t : StoredTable} (ht : s.database.table r.table.name = .ok t) (hcu : c.unplaced = u.unplaced)
    (hcondition : Database.checkCondition
      (t.definition.scope (s.clock.addMicros 1) (t.definition.blankRow 0)) (some c) = .ok ())
    {rows : List StoredRow}
    (hfound : ((countStatement r.table.name u).plan t.definition).found t (s.clock.addMicros 1)
      none = .ok rows) (hsmall : rows.length < 2 ^ 63) :
    ∃ k, (a.list caller request s).1 = .ok { count := some k } ∧ k.val = rows.length := by
  obtain ⟨k, hk, hval⟩ := exists_countOf hsmall
  refine ⟨k, ?_, hval⟩
  rw [list_run hcheck hq hbound hread (Database.prepare_count ht hcu hcondition)
    (Database.run_count ht hfound), answer, if_pos hcount]
  show ((countOf [Row.ofResult [("COUNT(*)", .ofInt rows.length)]] >>= fun k =>
    pure { count := some k } : Checked (Listing r.Item)).mapError Failure.request) = _
  rw [hk]
  rfl

/-- The statement of a request that is answered is built, bound, read and prepared. -/
theorem exists_prepared_of_list {caller : Caller} {request : ListRequest}
    {listing : Listing r.Item} (h : (a.list caller request s).1 = .ok listing) :
    ∃ q sql cells statement, a.listQuery request = .ok q ∧ q.bound = .ok (sql, cells) ∧
      Statement.read sql cells = .ok statement ∧
      s.database.prepare (s.clock.addMicros 1) statement = .ok () := by
  unfold list at h
  rw [Action.bind_run] at h
  cases hq : a.listQuery request with
  | error e =>
    rw [hq] at h
    cases h
  | ok q =>
    rw [hq] at h
    rcases Session.perform_cases "failed to fetch row" caller q s with
      ⟨e, he, -⟩ | ⟨sql, cells, statement, _, -, hbound, hread, hprepare, -⟩
    · -- A statement that fails gives no listing.
      have hfailed : (Session.connection.query caller q s).1 = .error e := by
        dsimp only [Session.connection]
        rw [Action.bind_run]
        rcases hp : Session.perform "failed to fetch row" caller q s with ⟨_ | _, _⟩
        · rw [hp] at he
          rw [← Except.error.inj he]
        · rw [hp] at he
          cases he
      change ((Session.connection.query caller q >>= _) s).1 = _ at h
      rw [Action.bind_run] at h
      rcases hrows : Session.connection.query caller q s with ⟨_ | _, _⟩
      · rw [hrows] at h
        cases h
      · rw [hrows] at hfailed
        cases hfailed
    · exact ⟨q, sql, cells, statement, rfl, hbound, hread, hprepare⟩

/-- A request of which the database cannot prepare the statement is not answered. -/
theorem list_ne_ok {request : ListRequest} {q : Query} (hq : a.listQuery request = .ok q)
    {sql : String} {cells : List Cell} (hbound : q.bound = .ok (sql, cells))
    (hfails : (Statement.read sql cells >>= s.database.prepare (s.clock.addMicros 1)).toOption =
      none) (caller : Caller) (listing : Listing r.Item) :
    (a.list caller request s).1 ≠ .ok listing := by
  intro h
  obtain ⟨q', sql', cells', statement, hq', hbound', hread, hprepare⟩ := exists_prepared_of_list h
  obtain rfl := Except.ok.inj (hq.symm.trans hq')
  obtain ⟨rfl, rfl⟩ := Prod.mk.inj (Except.ok.inj (hbound.symm.trans hbound'))
  rw [hread, Test.ok_bind, hprepare] at hfails
  cases hfails

end Access

end ResourceTable
