import ResourceTable.Proofs.CounterTable
import ResourceTable.Proofs.IdentifierText
import ResourceTable.Proofs.SessionRun
import ResourceTable.Proofs.StoredInteger

/-!
# Reserving identifiers

To reserve a batch is to advance the counter of its kind and to take the identifiers below
it.  What a call gives is decided by three things: whether its caller canceled, its size,
and the number that the counter of its kind stood at.  Where the counters are kept makes no
difference to this, except for the order of the checks and where a counter stops.

## Main definitions

* `IdSource.Counts`: what the counters of a session stand at.
* `IdSource.tally`: what a call gives, and what the counter stands at then.

## Main results

* `read_advance` — the statement that advances a counter is read as such.
* `IdSource.reserve_run` — **a call gives its tally, and changes no other counter.**
* `IdSource.tally_eq_ok` — a call that succeeds gives the numbers that its counter passed.
-/

namespace ResourceTable

open Sql

namespace Identifiers

/-! ### The statement -/

/-- The text of the statement that advances a counter. -/
def advanceText : String :=
  "INSERT INTO id_generator (resource, max_id) VALUES (?, ?) ON CONFLICT (resource) DO UPDATE SET max_id = id_generator.max_id + excluded.max_id RETURNING max_id"

set_option maxRecDepth 100000 in
/-- **The statement that advances a counter is read as such.** -/
theorem read_advance (kind size : Cell) :
    Statement.read advanceText [kind, size] = .ok (.insert (advanceStatement kind size)) := by
  unfold Statement.read advanceText
  rw [String.toList_ofList]
  rfl

/-- The text of the statement with its placeholders. -/
def namedAdvanceText : String :=
  "INSERT INTO id_generator (resource, max_id) VALUES (:resource, :step) " ++
    "ON CONFLICT (resource) DO UPDATE SET max_id = id_generator.max_id + excluded.max_id " ++
    "RETURNING max_id"

theorem placeholders_advance : Placeholder.names namedAdvanceText = ["resource", "step"] ∧
    Placeholder.substitute (fun _ => some "?") namedAdvanceText = advanceText := by
  unfold Placeholder.names Placeholder.substitute namedAdvanceText advanceText
  rw [String.toList_append, String.toList_append, String.toList_ofList, String.toList_ofList,
    String.toList_ofList]
  decide +kernel

/-- The statement with a question mark for the kind and one for the size. -/
theorem bound_advance (kind : String) {n : Nat} (hn : n < highest) :
    (advance kind n).bound = .ok (advanceText, [.text kind, .ofInt n]) := by
  let q := advance kind n
  have hsql : q.sql = namedAdvanceText := rfl
  obtain ⟨hnames, htext⟩ := placeholders_advance
  rw [← hsql] at hnames htext
  have hkind : q.param "resource" = some (.single (.text kind)) := by
    show NameMap.get? (NameMap.insert _ _ _) _ = _
    rw [NameMap.get?_insert, if_neg (by decide)]
    exact NameMap.get?_insert_self _ _ _
  have hstep : q.param "step" = some (.single (.integer .i64 (FixedInt.ofInt? .i64 n))) :=
    NameMap.get?_insert_self _ _ _
  have hunbound : q.unbound? = none := by
    rw [Query.unbound?, Query.placeholders, hnames]
    simp [hkind, hstep]
  have hvalues : q.values = [.text kind, .integer .i64 (FixedInt.ofInt? .i64 n)] := by
    rw [Query.values, Query.placeholders, hnames]
    simp [hkind, hstep, Param.values]
  have hpositional : q.positional = advanceText := by
    rw [← htext, Query.positional, Placeholder.substitute, Placeholder.substitute]
    refine congrArg String.ofList (List.flatMap_congr fun p hp => ?_)
    cases p with
    | char c => rfl
    | placeholder name =>
      have hname : name ∈ Placeholder.names q.sql := List.mem_filterMap.2 ⟨_, hp, rfl⟩
      rw [hnames] at hname
      rcases List.mem_cons.1 hname with rfl | hname
      · show Piece.chars _ _ = _
        unfold Piece.chars
        dsimp only
        rw [hkind]
        rfl
      · obtain rfl := List.mem_singleton.1 hname
        unfold Piece.chars
        dsimp only
        rw [hstep]
        rfl
  have hcell : (Value.integer .i64 (FixedInt.ofInt? .i64 n)).toCell = .ok (.ofInt n) := by
    rw [FixedInt.ofInt?_eq_some_iff.2 (rfl : (⟨n, holds_of_lt hn⟩ : FixedInt .i64).val = n),
      Value.toCell, Option.elim_some, Value.bmod_eq_stored, Value.stored, if_pos (holds_of_lt hn)]
  show q.bound = _
  rw [Query.bound, hunbound, hvalues, hpositional]
  simp only [List.mapM_cons, List.mapM_nil, hcell]
  rfl

/-! ### The number that is given back -/

theorem counterOf_eq_ok {kind : String} {n : Nat} (hn : n < highest) :
    counterOf kind [Row.ofResult [("max_id", .ofInt n)]] = .ok n := by
  have hgives := Cell.gives_integer ⟨n, holds_of_lt hn⟩ "max_id" .i64
  rw [dif_pos (holds_of_lt hn), ← Cell.ofInt_of_holds (holds_of_lt hn), Cell.read] at hgives
  unfold counterOf
  dsimp only
  rw [hgives]

theorem counterOf_highest (kind : String) :
    ∃ e, counterOf kind [Row.ofResult [("max_id", .ofInt highest)]] = .error e := by
  have hget : (Row.ofResult [("max_id", .ofInt highest)]).get? "max_id" =
      some (.double (some .beyond)) := by
    rw [highest, Cell.ofInt_beyond]
    exact NameMap.get?_insert_self _ _ _
  have hinteger : (Value.double (some .beyond)).toInt?.bind (FixedInt.ofInt? .i64) = none := rfl
  have hfetch : (ScalarType.integer .i64).fetch (Row.ofResult [("max_id", .ofInt highest)])
      "max_id" = .error (.notDecodable "max_id" IntType.i64.name (.double (some .beyond))) := by
    unfold ScalarType.fetch
    exact Row.fetchWith_of_none hget rfl hinteger
  unfold counterOf
  dsimp only
  rw [hfetch]
  exact ⟨_, rfl⟩

/-! ### The statement in a session -/

/-- The statement that advances a counter is run in a database that has one. -/
theorem run_advance {db : Database} {t : StoredTable} {level : String → Nat}
    (ht : db.table "id_generator" = .ok t) (h : Counts t level) (now : Timestamp) (kind : String)
    {n : Nat}
    (hpos : 0 < n) (hn : n ≤ 1000) :
    db.prepare now (.insert (advanceStatement (.text kind) (.ofInt n))) = .ok () ∧
    ∃ u, Counts u (advanced level kind n) ∧
      db.run now (.insert (advanceStatement (.text kind) (.ofInt n))) =
        .ok (⟨[[("max_id", .ofInt (advanced level kind n kind))]], 1⟩, db.withTable u) := by
  obtain ⟨u, r, hinsert, hu, hr⟩ := counts_insert h now kind hpos hn
  constructor
  · unfold Database.prepare
    dsimp only [advanceStatement]
    rw [ht, Test.ok_bind, h.definition]
    decide
  · refine ⟨u, hu, ?_⟩
    unfold Database.run
    dsimp only
    have htable : db.table (advanceStatement (.text kind) (.ofInt n)).table = .ok t := ht
    rw [htable, Test.ok_bind, hinsert, Test.ok_bind, hu.definition]
    show Except.ok (Outcome.mk [[("max_id", r.cell (counterTable.spelled "max_id"))]] 1,
      db.withTable u) = _
    rw [spelled_max, hr]

theorem checkBatch_cases (n : Nat) :
    (∃ e, checkBatch n = .error e) ∨ checkBatch n = .ok () ∧ 0 < n ∧ n ≤ 1000 := by
  have hmax : maxBatch = 1000 := rfl
  unfold checkBatch
  split
  · exact .inl ⟨_, rfl⟩
  · exact .inr ⟨rfl, by omega, by omega⟩

end Identifiers

/-! ### Calls -/

/-- An action whose failures are told in another way. -/
theorem Action.adapt_run {σ α : Type} (f : Failure → Failure) (x : Action σ α) (s : σ) :
    (ExceptT.adapt f x : Action σ α) s = ((x s).1.mapError f, (x s).2) := rfl

/-- What a query gives are the rows of its statement. -/
theorem Session.query_run (caller : Caller) (q : Query) (s : Session) :
    connection.query caller q s =
      ((perform "failed to fetch row" caller q s).1.map fun o => o.rows.map Row.ofResult,
        (perform "failed to fetch row" caller q s).2) := by
  unfold connection
  dsimp only
  rw [Action.bind_run]
  rcases perform "failed to fetch row" caller q s with ⟨_ | _, _⟩ <;> rfl

/-- What is executed gives the number of rows that its statement changed. -/
theorem Session.execute_run (caller : Caller) (q : Query) (s : Session) :
    connection.execute caller q s =
      ((perform "failed to execute statement" caller q s).1.map Outcome.affected,
        (perform "failed to execute statement" caller q s).2) := by
  unfold connection
  dsimp only
  rw [Action.bind_run]
  rcases perform "failed to execute statement" caller q s with ⟨_ | _, _⟩ <;> rfl

namespace IdSource

/-- What the counters of a session stand at. -/
def Counts (s : Session) (level : String → Nat) : IdSource → Prop
  | database => ∃ t, s.database.table "id_generator" = .ok t ∧ Identifiers.Counts t level
  | memory => ∀ kind, s.counters.counter kind = level kind

/-- What a call gives, and what the counter of its kind stands at then. -/
def tally (check : Except Failure Unit) (kind : String) (n level : Nat) :
    IdSource → Except Failure (List String) × Nat
  | database =>
    match Identifiers.checkBatch n, check with
    | .error e, _ => (.error e, level)
    | .ok (), .error e => (.error (Identifiers.advanceFailure kind e), level)
    | .ok (), .ok () =>
      let after := min (level + n) Identifiers.highest
      let counter := Identifiers.counterOf kind [Row.ofResult [("max_id", .ofInt after)]]
      (counter.bind fun counter => Identifiers.range kind counter n, after)
  | memory =>
    match check, Identifiers.checkBatch n with
    | .error e, _ => (.error e, level)
    | .ok (), .error e => (.error e, level)
    | .ok (), .ok () => (Identifiers.range kind (level + n : Nat) n, level + n)

variable {src : IdSource} {s : Session} {level : String → Nat}

/-- **A call gives its tally, and changes no other counter** and no other table. -/
theorem reserve_run (h : src.Counts s level) (caller : Caller) (kind : String) (n : Nat) :
    ∃ after, src.reserve caller kind n s =
        ((src.tally (s.signals.check caller) kind n (level kind)).1, after) ∧
      src.Counts after (Function.update level kind
        (src.tally (s.signals.check caller) kind n (level kind)).2) ∧
      after.signals = s.signals ∧
      ∀ name ≠ "id_generator", after.database.table name = s.database.table name := by
  have hsame : src.Counts s (Function.update level kind (level kind)) := by
    rwa [Function.update_eq_self]
  cases src with
  | database =>
    unfold reserve tally Identifiers.reserve
    dsimp only
    rw [Action.bind_run, Action.lift_run]
    rcases Identifiers.checkBatch_cases n with ⟨e, he⟩ | ⟨hok, hpos, hn⟩
    · rw [he]
      exact ⟨s, rfl, hsame, rfl, fun _ _ => rfl⟩
    · rw [hok]
      dsimp only
      rw [Action.bind_run, Action.adapt_run]
      cases hcheck : s.signals.check caller with
      | error e =>
        have hperform : Session.perform "failed to fetch row" caller
            (Identifiers.advance kind n) s = (.error e, s) := by
          rw [Session.perform_run, hcheck]
        rw [Session.query_run, hperform]
        exact ⟨s, rfl, hsame, rfl, fun _ _ => rfl⟩
      | ok _ =>
        obtain ⟨t, ht, hcounts⟩ := h
        have hlt : n < Identifiers.highest := by
          have hhighest : Identifiers.highest = 9223372036854775808 := by decide
          omega
        obtain ⟨hprepare, u, hu, hrun⟩ :=
          Identifiers.run_advance ht hcounts (s.clock.addMicros 1) kind hpos hn
        have hperform := Session.perform_ok "failed to fetch row" caller hcheck
          (Identifiers.bound_advance kind hlt) (Identifiers.read_advance _ _) hprepare hrun
        have hname : u.definition.name = "id_generator" := by rw [hu.definition]; rfl
        rw [Session.query_run, hperform, Identifiers.advanced_self]
        refine ⟨{ s.afterIssue Identifiers.advanceText with database := s.database.withTable u },
          ?_, ⟨u, ?_, hu⟩, rfl, fun name hne => ?_⟩
        · dsimp only [Except.map, Except.mapError, List.map]
          rw [Action.bind_run, Action.lift_run]
          cases Identifiers.counterOf kind
            [Row.ofResult [("max_id", .ofInt (min (level kind + n) Identifiers.highest : Nat))]] <;>
            rfl
        · show Database.table (s.database.withTable u) "id_generator" = .ok u
          rw [← hname]
          exact Database.table_withTable u
        · exact Database.table_withTable_of_ne (hname ▸ hne)
  | memory =>
    have hget (c : Counters) : (get : Action Counters Counters) c = (.ok c, c) := rfl
    have hmodify (f : Counters → Counters) (c : Counters) :
        (modify f : Action Counters PUnit) c = (.ok ⟨⟩, f c) := rfl
    unfold reserve tally Counters.reserve
    dsimp only
    rw [Action.bind_run, Action.lift_run]
    cases s.signals.check caller with
    | error e => exact ⟨s, rfl, hsame, rfl, fun _ _ => rfl⟩
    | ok _ =>
      dsimp only
      rw [Action.bind_run, Action.lift_run]
      cases Identifiers.checkBatch n with
      | error e => exact ⟨s, rfl, hsame, rfl, fun _ _ => rfl⟩
      | ok _ =>
        dsimp only
        rw [Action.bind_run, hget]
        dsimp only
        rw [Action.bind_run, hmodify]
        dsimp only
        rw [Action.lift_run, h kind]
        refine ⟨_, rfl, fun other => ?_, rfl, fun _ _ => rfl⟩
        show Counters.counter (NameMap.insert _ _ _) other = _
        rw [Counters.counter, NameMap.get?_insert]
        by_cases hother : kind = other
        · subst hother
          rw [if_pos rfl, Function.update_self]
          rfl
        · rw [if_neg hother, Function.update_of_ne (Ne.symm hother)]
          exact h other

/-! ### Tallies -/

theorem Counts.bounded (h : src.Counts s level) (hsrc : src = database) (kind : String) :
    level kind ≤ Identifiers.highest := by
  subst hsrc
  obtain ⟨t, -, hcounts⟩ := h
  exact hcounts.bounded kind

/-- A counter does not go back. -/
theorem le_tally {level : Nat} (hbound : src = database → level ≤ Identifiers.highest)
    (check : Except Failure Unit) (kind : String) (n : Nat) :
    level ≤ (src.tally check kind n level).2 := by
  cases src with
  | database =>
    unfold tally
    cases Identifiers.checkBatch n with
    | error e => exact le_rfl
    | ok _ =>
      cases check with
      | error e => exact le_rfl
      | ok _ => exact le_min (Nat.le_add_right level n) (hbound rfl)
  | memory =>
    unfold tally
    cases check with
    | error e => exact le_rfl
    | ok _ =>
      cases Identifiers.checkBatch n with
      | error e => exact le_rfl
      | ok _ => exact Nat.le_add_right level n

/-- **A call that succeeds gives the numbers that its counter passed**, which are within the
range of identifiers. -/
theorem tally_eq_ok {level : Nat} {check : Except Failure Unit} {kind : String} {n : Nat}
    {ids : List String} (h : (src.tally check kind n level).1 = .ok ids) :
    (src.tally check kind n level).2 = level + n ∧ 0 < n ∧
      (level + n : Int) ≤ Identifiers.greatest ∧
      ids = (List.range' (level + 1) n).map Identifiers.text := by
  -- What is cut out below the advanced counter begins where the counter stood.
  have hrange (hn : n ≤ 1000)
      (hrange : Identifiers.range kind (level + n : Nat) n = .ok ids) :
      (level + n : Int) ≤ Identifiers.greatest ∧
        ids = (List.range' (level + 1) n).map Identifiers.text := by
    obtain ⟨hle, before, hbefore, hids⟩ :=
      Identifiers.range_eq_ok hn (Int.natCast_nonneg _) hrange
    obtain rfl : before = level := by omega
    exact ⟨by omega, hids⟩
  cases src with
  | database =>
    unfold tally at h ⊢
    rcases Identifiers.checkBatch_cases n with ⟨e, he⟩ | ⟨hok, hpos, hn⟩
    · rw [he] at h
      cases h
    · rw [hok] at h ⊢
      cases check with
      | error e => cases h
      | ok _ =>
        dsimp only at h ⊢
        rcases Nat.lt_or_ge (level + n) Identifiers.highest with hlt | hge
        · rw [Nat.min_eq_left hlt.le, Identifiers.counterOf_eq_ok hlt] at h
          rw [Nat.min_eq_left hlt.le]
          exact ⟨rfl, hpos, hrange hn h⟩
        · obtain ⟨e, he⟩ := Identifiers.counterOf_highest kind
          rw [Nat.min_eq_right hge, he] at h
          cases h
  | memory =>
    unfold tally at h ⊢
    cases check with
    | error e => cases h
    | ok _ =>
      dsimp only at h ⊢
      rcases Identifiers.checkBatch_cases n with ⟨e, he⟩ | ⟨hok, hpos, hn⟩
      · rw [he] at h
        cases h
      · rw [hok] at h ⊢
        exact ⟨rfl, hpos, hrange hn h⟩

end IdSource

end ResourceTable
