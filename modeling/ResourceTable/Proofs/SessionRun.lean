import ResourceTable.Access

/-!
# Running statements in a session

What an action does is what its steps do one after the other, up to the first that fails.

## Main results

* `Action.bind_run`, `Action.lift_run` — the steps of an action.
* `perform_run`, `perform_ok`, `perform_cases` — the steps of a statement.
* `database_perform`, `perform_congr` — what becomes of the database, and what the result
  depends on.
-/

namespace ResourceTable

open Sql

/-! ### Actions -/

theorem Action.bind_run {σ α β : Type} (x : Action σ α) (f : α → Action σ β) (s : σ) :
    (x >>= f) s =
      match x s with
      | (.ok a, after) => f a after
      | (.error e, after) => (.error e, after) := by
  show ExceptT.bindCont f (x s).1 (x s).2 = _
  rcases x s with ⟨_ | _, _⟩ <;> rfl

theorem Action.lift_run {σ α : Type} (x : Except Failure α) (s : σ) :
    (liftM x : Action σ α) s = (x, s) := by
  cases x <;> rfl

/-- The result of an action is decided by the results of its steps. -/
theorem Action.fst_bind_congr {σ α β : Type} {x : Action σ α} {f : α → Action σ β} {s t : σ}
    (hx : (x s).1 = (x t).1) (hf : ∀ a s t, (f a s).1 = (f a t).1) :
    ((x >>= f) s).1 = ((x >>= f) t).1 := by
  rw [bind_run, bind_run]
  rcases hs : x s with ⟨_ | a, after⟩ <;> rcases ht : x t with ⟨_ | b, later⟩ <;>
    rw [hs, ht] at hx
  · exact congrArg Except.error (Except.error.inj hx)
  · cases hx
  · cases hx
  · obtain rfl := Except.ok.inj hx
    exact hf a after later

namespace Session

/-! ### Statements -/

/-- The session after a statement was issued. -/
def afterIssue (s : Session) (sql : String) : Session :=
  { s with issued := s.issued ++ [sql], clock := s.clock.addMicros 1 }

/-- A statement is checked, bound, issued, read and run, in this order. -/
theorem perform_run (context : String) (caller : Caller) (q : Query) (s : Session) :
    perform context caller q s =
      match s.signals.check caller with
      | .error e => (.error e, s)
      | .ok () =>
        match q.bound with
        | .error e => (.error e, s)
        | .ok (sql, cells) =>
          let issued := s.afterIssue sql
          match failing "failed to prepare statement" sql (issued.prepared sql cells) with
          | .error e => (.error e, issued)
          | .ok statement =>
            match failing context sql (issued.database.run issued.clock statement) with
            | .error e => (.error e, issued)
            | .ok (outcome, database) => (.ok outcome, { issued with database }) := by
  have hcheck : check caller s = (s.signals.check caller, s) := Action.lift_run _ s
  have hget (s : Session) : (get : Action Session Session) s = (.ok s, s) := rfl
  have hissue (sql : String) : issue sql s = (.ok (), s.afterIssue sql) := rfl
  have hset (t : Session) (s : Session) : (set t : Action Session PUnit) s = (.ok ⟨⟩, t) := rfl
  unfold perform
  rw [Action.bind_run, hcheck]
  cases s.signals.check caller with
  | error e => rfl
  | ok u =>
    dsimp only
    rw [Action.bind_run, Action.lift_run]
    cases q.bound with
    | error e => rfl
    | ok b =>
      dsimp only
      rw [Action.bind_run, hissue]
      dsimp only
      rw [Action.bind_run, hget]
      dsimp only
      rw [Action.bind_run, Action.lift_run]
      cases failing "failed to prepare statement" b.1 ((s.afterIssue b.1).prepared b.1 b.2) with
      | error e => rfl
      | ok statement =>
        dsimp only
        rw [Action.bind_run, Action.lift_run]
        cases failing context b.1
            ((s.afterIssue b.1).database.run (s.afterIssue b.1).clock statement) with
        | error e => rfl
        | ok p => rfl

section Perform

variable (context : String) (caller : Caller) {q : Query} {s : Session}

/-- A statement of which every step succeeds. -/
theorem perform_ok {sql : String} {cells : List Cell} {statement : Statement} {outcome : Outcome}
    {db : Database} (hcheck : s.signals.check caller = .ok ()) (hbound : q.bound = .ok (sql, cells))
    (hread : Statement.read sql cells = .ok statement)
    (hprepare : s.database.prepare (s.clock.addMicros 1) statement = .ok ())
    (hrun : s.database.run (s.clock.addMicros 1) statement = .ok (outcome, db)) :
    perform context caller q s = (.ok outcome, { s.afterIssue sql with database := db }) := by
  have hprepared : (s.afterIssue sql).prepared sql cells = .ok statement := by
    rw [prepared, hread, Test.ok_bind]
    show (s.database.prepare (s.clock.addMicros 1) statement >>= _) = _
    rw [hprepare, Test.ok_bind]
    rfl
  have hran : (s.afterIssue sql).database.run (s.afterIssue sql).clock statement =
      .ok (outcome, db) := hrun
  rw [perform_run, hcheck]
  dsimp only
  rw [hbound]
  dsimp only
  rw [hprepared]
  dsimp only [failing, Except.mapError]
  rw [hran]

theorem eq_ok_of_failing {α : Type} {what sql : String} {x : Except Sql.Fault α} {a : α}
    (h : failing what sql x = .ok a) : x = .ok a := by
  cases x with
  | error e => cases h
  | ok b => exact congrArg Except.ok (Except.ok.inj h)

/-- A statement fails and leaves the database as it was, or every step of it succeeds and
leaves what it was run to. -/
theorem perform_cases (q : Query) (s : Session) :
    (∃ e, (perform context caller q s).1 = .error e ∧
      (perform context caller q s).2.database = s.database) ∨
    ∃ sql cells statement outcome, s.signals.check caller = .ok () ∧ q.bound = .ok (sql, cells) ∧
      Statement.read sql cells = .ok statement ∧
      s.database.prepare (s.clock.addMicros 1) statement = .ok () ∧
      s.database.run (s.clock.addMicros 1) statement =
        .ok (outcome, (perform context caller q s).2.database) ∧
      (perform context caller q s).1 = .ok outcome := by
  rw [perform_run]
  split
  · exact .inl ⟨_, rfl, rfl⟩
  · next hcheck =>
    split
    · exact .inl ⟨_, rfl, rfl⟩
    · next sql cells hbound =>
      dsimp only
      split
      · exact .inl ⟨_, rfl, rfl⟩
      · next statement hprepared =>
        split
        · exact .inl ⟨_, rfl, rfl⟩
        · next outcome database hrun =>
          have hread := eq_ok_of_failing hprepared
          unfold prepared at hread
          obtain ⟨t, ht, hread⟩ := Test.bind_eq_ok hread
          obtain ⟨_, hprepare, hread⟩ := Test.bind_eq_ok hread
          obtain rfl := Except.ok.inj hread
          exact .inr ⟨sql, cells, t, outcome, hcheck, hbound, ht, hprepare, eq_ok_of_failing hrun,
            rfl⟩

/-- A statement that fails leaves the database as it was, and one that does not leaves what
it was run to. -/
theorem database_perform (q : Query) (s : Session) :
    (perform context caller q s).2.database = s.database ∨
    ∃ sql cells statement outcome, q.bound = .ok (sql, cells) ∧
      Statement.read sql cells = .ok statement ∧
      s.database.run (s.clock.addMicros 1) statement =
        .ok (outcome, (perform context caller q s).2.database) := by
  rcases perform_cases context caller q s with
    ⟨_, -, h⟩ | ⟨sql, cells, t, outcome, -, hbound, ht, -, hrun, -⟩
  · exact .inl h
  · exact .inr ⟨sql, cells, t, outcome, hbound, ht, hrun⟩

/-- What a statement gives depends on the database only through what it is checked against
and run to. -/
theorem perform_congr {db other : Database}
    (h : ∀ sql cells statement, q.bound = .ok (sql, cells) →
      Statement.read sql cells = .ok statement →
        db.prepare (s.clock.addMicros 1) statement =
            other.prepare (s.clock.addMicros 1) statement ∧
          (db.run (s.clock.addMicros 1) statement).map Prod.fst =
            (other.run (s.clock.addMicros 1) statement).map Prod.fst) :
    (perform context caller q { s with database := db }).1 =
      (perform context caller q { s with database := other }).1 := by
  rw [perform_run, perform_run]
  dsimp only
  cases s.signals.check caller with
  | error e => rfl
  | ok u =>
    cases hbound : q.bound with
    | error e => rfl
    | ok b =>
      obtain ⟨sql, cells⟩ := b
      dsimp only [afterIssue, prepared]
      cases hread : Statement.read sql cells with
      | error e => rfl
      | ok statement =>
        obtain ⟨hprepare, hrun⟩ := h sql cells statement hbound hread
        rw [Test.ok_bind, Test.ok_bind, hprepare]
        cases other.prepare (s.clock.addMicros 1) statement with
        | error e => rfl
        | ok u =>
          rw [Test.ok_bind]
          dsimp only [failing, Except.mapError, pure, Except.pure]
          -- Two runs with the same outcome fail alike or succeed alike.
          cases hx : db.run (s.clock.addMicros 1) statement <;>
            cases hy : other.run (s.clock.addMicros 1) statement <;> rw [hx, hy] at hrun
          · obtain rfl := Except.error.inj hrun
            rfl
          · cases hrun
          · cases hrun
          · exact congrArg Except.ok (Except.ok.inj hrun)

end Perform

/-! ### Transactions -/

/-- A body that succeeds succeeds as a transaction, unless its caller has canceled. -/
theorem transaction_ok {ε α : Type} {ofFailure : Failure → ε} {caller : Caller}
    {body : ExceptT ε (StateM Session) α} {s after : Session} {a : α}
    (hcheck : s.signals.check caller = .ok ()) (h : body s = (.ok a, after)) :
    transaction ofFailure caller body s = (.ok a, after) := by
  unfold transaction
  rw [hcheck]
  dsimp only [atomically]
  rw [h]

/-- A transaction that succeeds is its body. -/
theorem transaction_of_ok {ε α : Type} {ofFailure : Failure → ε} {caller : Caller}
    {body : ExceptT ε (StateM Session) α} {s : Session} {a : α}
    (h : (transaction ofFailure caller body s).1 = .ok a) :
    transaction ofFailure caller body s = body s := by
  unfold transaction at h ⊢
  cases hcheck : s.signals.check caller with
  | error e =>
    rw [hcheck] at h
    cases h
  | ok u =>
    rw [hcheck] at h
    dsimp only [atomically] at h ⊢
    rcases hbody : body s with ⟨_ | x, after⟩
    · rw [hbody] at h
      cases h
    · rfl

end Session

end ResourceTable
