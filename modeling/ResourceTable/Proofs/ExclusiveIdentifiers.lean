import ResourceTable.Proofs.Reservation
import ResourceTable.Proofs.UpdateBinding

/-!
# Exclusive identifiers

Identifiers are reserved by calls of their own and by transactions, which make any number of
calls and keep or drop what these did to the database.  Whatever the order, the kinds, the
sizes and the callers, no identifier of a kind is given to two calls that took effect, and
the later of two such calls gets the greater identifiers.

Counters only go forward as long as nothing is dropped, and a transaction that is dropped
takes its own calls out of account together with the advances of the counters.  So a run as
a whole takes every counter forward, and the calls that took effect share out what it
passed.

## Main definitions

* `Reservation`, `Turn`: calls, and what happens in a run.
* `Allocation`: a call with what it gave, and whether it took effect.
* `Turn.run`, `Turn.runAll`: runs.
* `Progress`: what a stretch of a run makes of the counters.

## Main results

* `progress_reserve` — one step: a call takes the identifiers that its counter passes.
* `progress_runAll` — a run: so do all calls that took effect, one after the other.
* `agree_runAll` — the calls of one kind do not affect those of another.
* `identifiers_exclusive` — **no identifier of a kind is given twice.**
-/

namespace ResourceTable

/-! ### Runs -/

/-- A call that reserves identifiers. -/
structure Reservation where
  /-- Who makes the call. -/
  caller : Caller
  /-- The kind of identifiers. -/
  kind : String
  /-- How many are asked for. -/
  size : Nat
  deriving DecidableEq

/-- A call with what it gave. -/
structure Allocation where
  /-- The call. -/
  call : Reservation
  /-- What it gave. -/
  result : Except Failure (List String)
  /-- Whether it took effect: what it did to its counter was kept. -/
  effective : Bool
  deriving DecidableEq

/-- What happens in a run. -/
inductive Turn
  /-- A call of its own. -/
  | alone (r : Reservation)
  /-- A transaction that makes calls, and then commits or rolls back. -/
  | together (caller : Caller) (rs : List Reservation) (commits : Bool)
  /-- A caller cancels. -/
  | cancel (t : CancelToken)

namespace Turn

/-- Calls one after the other, of which it is known whether they take effect. -/
def calls (src : IdSource) (effective : Bool) : List Reservation → StateM Session (List Allocation)
  | [] => pure []
  | r :: rest => fun s =>
    let (result, after) := src.reserve r.caller r.kind r.size s
    let (more, after) := calls src effective rest after
    (⟨r, result, effective⟩ :: more, after)

/-- The calls of a transaction, which ends with success if it is to commit. -/
def work (src : IdSource) (rs : List Reservation) (commits : Bool) :
    ExceptT (List Allocation) (StateM Session) (List Allocation) := fun s =>
  -- Counters in memory are not rolled back.
  let (allocations, after) := calls src (commits || src == .memory) rs s
  (if commits then .ok allocations else .error allocations, after)

/-- One turn of a run.  A transaction whose caller has canceled makes no calls. -/
def run (src : IdSource) : Turn → StateM Session (List Allocation)
  | alone r => calls src true [r]
  | together caller rs commits => fun s =>
    match Session.transaction (fun _ => []) caller (work src rs commits) s with
    | (.ok allocations, after) => (allocations, after)
    | (.error allocations, after) => (allocations, after)
  | cancel t => fun s => ([], { s with signals := s.signals.cancel t })

/-- The turns of a run. -/
def runAll (src : IdSource) : List Turn → StateM Session (List Allocation)
  | [] => pure []
  | t :: rest => fun s =>
    let (first, after) := t.run src s
    let (more, after) := runAll src rest after
    (first ++ more, after)

section Steps

variable (src : IdSource) (s : Session)

theorem calls_cons (effective : Bool) (r : Reservation) (rest : List Reservation) :
    calls src effective (r :: rest) s =
      (⟨r, (src.reserve r.caller r.kind r.size s).1, effective⟩ ::
          (calls src effective rest (src.reserve r.caller r.kind r.size s).2).1,
        (calls src effective rest (src.reserve r.caller r.kind r.size s).2).2) := rfl

theorem runAll_cons (t : Turn) (rest : List Turn) :
    runAll src (t :: rest) s =
      ((t.run src s).1 ++ (runAll src rest (t.run src s).2).1,
        (runAll src rest (t.run src s).2).2) := rfl

theorem runAll_singleton (t : Turn) : runAll src [t] s = t.run src s := by
  rw [runAll_cons]
  exact congrArg (·, (t.run src s).2) (List.append_nil _)

theorem runAll_append : ∀ (turns more : List Turn) (s : Session),
    runAll src (turns ++ more) s =
      ((runAll src turns s).1 ++ (runAll src more (runAll src turns s).2).1,
        (runAll src more (runAll src turns s).2).2) := by
  intro turns
  induction turns with
  | nil => exact fun _ _ => rfl
  | cons t rest ih =>
    intro more s
    rw [List.cons_append, runAll_cons, ih, runAll_cons, List.append_assoc]

end Steps

/-- The turn with the calls of one kind only. -/
def only (kind : String) : Turn → List Turn
  | alone r => if r.kind = kind then [alone r] else []
  | together caller rs commits => [together caller (rs.filter fun r => r.kind = kind) commits]
  | cancel t => [cancel t]

end Turn

/-! ### Progress -/

/-- A stretch of a run: no counter goes back, every success is a batch, and the calls that
took effect have the identifiers that the counters passed, the later the greater. -/
structure Progress (level after : String → Nat) (as : List Allocation) : Prop where
  le : ∀ kind, level kind ≤ after kind
  batches : ∀ a ∈ as, ∀ ids, a.result = .ok ids → Identifiers.IsBatch a.call.size ids
  within : ∀ a ∈ as, a.effective = true → ∀ ids, a.result = .ok ids → ∀ id ∈ ids,
    ∃ n, level a.call.kind < n ∧ n ≤ after a.call.kind ∧ n < 16 ^ 8 ∧ id = Identifiers.text n
  ascending : as.Pairwise fun a b => a.effective = true → b.effective = true →
    a.call.kind = b.call.kind → ∀ ids later, a.result = .ok ids → b.result = .ok later →
      ∀ x ∈ ids, ∀ y ∈ later, x < y

namespace Progress

variable {level middle after : String → Nat} {as bs : List Allocation}

theorem refl (level : String → Nat) : Progress level level [] where
  le := fun _ => le_rfl
  batches := fun _ h => nomatch h
  within := fun _ h => nomatch h
  ascending := .nil

/-- Stretches that follow one another make a stretch. -/
theorem append (h : Progress level middle as) (h' : Progress middle after bs) :
    Progress level after (as ++ bs) := by
  refine ⟨fun kind => (h.le kind).trans (h'.le kind), fun a ha => ?_, fun a ha => ?_, ?_⟩
  · rcases List.mem_append.1 ha with ha | ha
    · exact h.batches a ha
    · exact h'.batches a ha
  · intro heffective ids hids id hid
    rcases List.mem_append.1 ha with ha | ha
    · obtain ⟨n, hlow, hhigh, hn⟩ := h.within a ha heffective ids hids id hid
      exact ⟨n, hlow, hhigh.trans (h'.le _), hn⟩
    · obtain ⟨n, hlow, hhigh, hn⟩ := h'.within a ha heffective ids hids id hid
      exact ⟨n, (h.le _).trans_lt hlow, hhigh, hn⟩
  · refine List.pairwise_append.2 ⟨h.ascending, h'.ascending, fun a ha b hb => ?_⟩
    -- What was passed earlier is below the middle, and what was passed later above it.
    intro heffective heffective' hkind ids later hids hlater x hx y hy
    obtain ⟨m, -, hm, -, rfl⟩ := h.within a ha heffective ids hids x hx
    obtain ⟨n, hn, -, hlt, rfl⟩ := h'.within b hb heffective' later hlater y hy
    rw [hkind] at hm
    exact Identifiers.text_lt_text (hm.trans_lt hn) hlt

/-- What is dropped takes no counter anywhere. -/
theorem dropped (h : Progress level after as) (hnone : ∀ a ∈ as, a.effective = false) :
    Progress level level as where
  le := fun _ => le_rfl
  batches := h.batches
  within := fun a ha heffective => by
    rw [hnone a ha] at heffective
    cases heffective
  ascending := List.pairwise_of_forall_mem_list fun a ha b _ heffective => by
    rw [hnone a ha] at heffective
    cases heffective

end Progress

section Runs

variable {src : IdSource} {s : Session} {level : String → Nat}

/-- **One step: a call takes the identifiers that its counter passes.** -/
theorem progress_reserve (h : src.Counts s level) (r : Reservation) (effective : Bool) :
    ∃ after, src.Counts (src.reserve r.caller r.kind r.size s).2 after ∧
      Progress level after
        [⟨r, (src.reserve r.caller r.kind r.size s).1, effective⟩] := by
  obtain ⟨later, hrun, hcounts, -, -⟩ := IdSource.reserve_run h r.caller r.kind r.size
  rw [hrun]
  refine ⟨_, hcounts, ?_⟩
  generalize htally : src.tally (s.signals.check r.caller) r.kind r.size (level r.kind) = tally
  have hle := IdSource.le_tally (fun hsrc => h.bounded hsrc r.kind) (s.signals.check r.caller)
    r.kind r.size
  have hok {ids : List String} (hids : tally.1 = .ok ids) := IdSource.tally_eq_ok (htally ▸ hids)
  rw [htally] at hle hok
  have hgreatest : Identifiers.greatest + 1 = 16 ^ 8 := by decide
  refine ⟨fun kind => ?_, fun a ha ids hids => ?_, fun a ha heffective ids hids id hid => ?_,
    List.pairwise_singleton _ _⟩
  · by_cases hkind : kind = r.kind
    · rw [hkind, Function.update_self]
      exact hle
    · rw [Function.update_of_ne hkind]
  · obtain rfl := List.mem_singleton.1 ha
    obtain ⟨-, -, hbound, rfl⟩ := hok hids
    exact Identifiers.isBatch_texts (by omega) (by push_cast; omega)
  · obtain rfl := List.mem_singleton.1 ha
    obtain ⟨hafter, -, hbound, rfl⟩ := hok hids
    obtain ⟨n, hn, rfl⟩ := List.mem_map.1 hid
    obtain ⟨hlow, hhigh⟩ := List.mem_range'_1.1 hn
    refine ⟨n, hlow, ?_, by omega, rfl⟩
    rw [Function.update_self, hafter]
    omega

theorem progress_calls (effective : Bool) : ∀ (rs : List Reservation) {s : Session}
    {level : String → Nat}, src.Counts s level →
      ∃ after, src.Counts (Turn.calls src effective rs s).2 after ∧
        Progress level after (Turn.calls src effective rs s).1 := by
  intro rs
  induction rs with
  | nil => exact fun h => ⟨_, h, .refl _⟩
  | cons r rest ih =>
    intro s level h
    obtain ⟨middle, hmiddle, hfirst⟩ := progress_reserve h r effective
    obtain ⟨after, hafter, hrest⟩ := ih hmiddle
    exact ⟨after, hafter, hfirst.append hrest⟩

theorem effective_calls {effective : Bool} : ∀ {rs : List Reservation} {s : Session},
    ∀ a ∈ (Turn.calls src effective rs s).1, a.effective = effective := by
  intro rs
  induction rs with
  | nil => exact fun _ h => nomatch h
  | cons r rest ih =>
    intro s a ha
    rcases List.mem_cons.1 ha with rfl | ha
    · rfl
    · exact ih a ha

/-- A transaction makes its calls, unless its caller has canceled, and keeps what they did
to the database if it commits. -/
theorem together_run (src : IdSource) (caller : Caller) (rs : List Reservation) (commits : Bool)
    (s : Session) :
    (Turn.together caller rs commits).run src s =
      match s.signals.check caller with
      | .error _ => ([], s)
      | .ok () =>
        let (allocations, after) := Turn.calls src (commits || src == .memory) rs s
        (allocations, if commits then after else { after with database := s.database }) := by
  unfold Turn.run Session.transaction Turn.work Session.atomically
  dsimp only
  cases s.signals.check caller with
  | error e => rfl
  | ok _ =>
    rcases Turn.calls src (commits || src == .memory) rs s with ⟨allocations, after⟩
    cases commits <;> rfl

/-- A transaction that rolls back takes the counters back that are kept in the database. -/
theorem counts_restored {later : Session} {after : String → Nat} (h : src.Counts s level)
    (hlater : src.Counts later after) :
    src.Counts { later with database := s.database }
      (match src with | .database => level | .memory => after) := by
  cases src with
  | database => exact h
  | memory => exact hlater

theorem progress_run (h : src.Counts s level) (t : Turn) :
    ∃ after, src.Counts (t.run src s).2 after ∧ Progress level after (t.run src s).1 := by
  cases t with
  | alone r => exact progress_calls true [r] h
  | cancel t =>
    refine ⟨level, ?_, .refl level⟩
    cases src <;> exact h
  | together caller rs commits =>
    rw [together_run]
    cases s.signals.check caller with
    | error e => exact ⟨level, h, .refl level⟩
    | ok _ =>
      obtain ⟨after, hafter, hprogress⟩ := progress_calls (commits || src == .memory) rs h
      cases commits with
      | true => exact ⟨after, hafter, hprogress⟩
      | false =>
        refine ⟨_, counts_restored h hafter, ?_⟩
        cases src with
        | database => exact hprogress.dropped effective_calls
        | memory => exact hprogress

/-- **A run: the calls that took effect share out what the counters passed.** -/
theorem progress_runAll : ∀ (turns : List Turn) {s : Session} {level : String → Nat},
    src.Counts s level →
      ∃ after, src.Counts (Turn.runAll src turns s).2 after ∧
        Progress level after (Turn.runAll src turns s).1 := by
  intro turns
  induction turns with
  | nil => exact fun h => ⟨_, h, .refl _⟩
  | cons t rest ih =>
    intro s level h
    obtain ⟨middle, hmiddle, hfirst⟩ := progress_run h t
    obtain ⟨after, hafter, hrest⟩ := ih hmiddle
    exact ⟨after, hafter, hfirst.append hrest⟩

end Runs

/-! ### The calls of one kind -/

/-- The sessions have the same callers canceled and the same counter of a kind. -/
structure Agree (src : IdSource) (kind : String) (s t : Session) : Prop where
  signals : s.signals = t.signals
  counters : ∃ level level', src.Counts s level ∧ src.Counts t level' ∧ level kind = level' kind

section Agreement

variable {src : IdSource} {kind : String} {s t : Session}

theorem agree_reserve (h : Agree src kind s t) {r : Reservation} (hr : r.kind = kind) :
    (src.reserve r.caller r.kind r.size s).1 = (src.reserve r.caller r.kind r.size t).1 ∧
      Agree src kind (src.reserve r.caller r.kind r.size s).2
        (src.reserve r.caller r.kind r.size t).2 := by
  subst hr
  obtain ⟨level, level', hs, ht, hlevel⟩ := h.counters
  obtain ⟨after, hrun, hafter, hsignals, -⟩ := IdSource.reserve_run hs r.caller r.kind r.size
  obtain ⟨after', hrun', hafter', hsignals', -⟩ := IdSource.reserve_run ht r.caller r.kind r.size
  rw [hrun, hrun', h.signals, hlevel]
  refine ⟨rfl, by rw [hsignals, hsignals', h.signals], _, _, hafter, hafter', ?_⟩
  rw [Function.update_self, Function.update_self, h.signals, hlevel]

/-- The calls of another kind change nothing that matters to the kind. -/
theorem agree_reserve_of_ne (h : Agree src kind s t) {r : Reservation} (hr : r.kind ≠ kind) :
    Agree src kind (src.reserve r.caller r.kind r.size s).2 t := by
  obtain ⟨level, level', hs, ht, hlevel⟩ := h.counters
  obtain ⟨after, hrun, hafter, hsignals, -⟩ := IdSource.reserve_run hs r.caller r.kind r.size
  rw [hrun]
  refine ⟨by rw [hsignals, h.signals], _, _, hafter, ht, ?_⟩
  rw [Function.update_of_ne hr.symm, hlevel]

theorem agree_calls (effective : Bool) : ∀ (rs : List Reservation) {s t : Session},
    Agree src kind s t →
      ((Turn.calls src effective rs s).1.filter fun a => a.call.kind = kind) =
          (Turn.calls src effective (rs.filter fun r => r.kind = kind) t).1 ∧
        Agree src kind (Turn.calls src effective rs s).2
          (Turn.calls src effective (rs.filter fun r => r.kind = kind) t).2 := by
  intro rs
  induction rs with
  | nil => exact fun h => ⟨rfl, h⟩
  | cons r rest ih =>
    intro s t h
    by_cases hr : r.kind = kind
    · obtain ⟨hresult, hagree⟩ := agree_reserve h hr
      obtain ⟨hmore, hafter⟩ := ih hagree
      rw [List.filter_cons_of_pos (by simpa using hr)]
      refine ⟨?_, hafter⟩
      rw [Turn.calls_cons, Turn.calls_cons, List.filter_cons_of_pos (by simpa using hr), hresult,
        hmore]
    · obtain ⟨hmore, hafter⟩ := ih (agree_reserve_of_ne h hr)
      rw [List.filter_cons_of_neg (by simpa using hr)]
      refine ⟨?_, hafter⟩
      rw [Turn.calls_cons, List.filter_cons_of_neg (by simpa using hr), hmore]

theorem agree_restored {later later' : Session} (h : Agree src kind s t)
    (hlater : Agree src kind later later') :
    Agree src kind { later with database := s.database }
      { later' with database := t.database } := by
  obtain ⟨level, level', hs, ht, hlevel⟩ := h.counters
  obtain ⟨after, after', hs', ht', hafter⟩ := hlater.counters
  refine ⟨hlater.signals, _, _, counts_restored hs hs', counts_restored ht ht', ?_⟩
  cases src with
  | database => exact hlevel
  | memory => exact hafter

theorem agree_run (h : Agree src kind s t) (turn : Turn) :
    ((turn.run src s).1.filter fun a => a.call.kind = kind) =
        (Turn.runAll src (turn.only kind) t).1 ∧
      Agree src kind (turn.run src s).2 (Turn.runAll src (turn.only kind) t).2 := by
  cases turn with
  | alone r =>
    have hcalls := agree_calls true [r] h
    have honly : Turn.only kind (.alone r) = if r.kind = kind then [.alone r] else [] := rfl
    by_cases hr : r.kind = kind
    · rw [List.filter_cons_of_pos (by simpa using hr)] at hcalls
      rw [honly, if_pos hr, Turn.runAll_singleton]
      exact hcalls
    · rw [List.filter_cons_of_neg (by simpa using hr)] at hcalls
      rw [honly, if_neg hr]
      exact hcalls
  | cancel token =>
    obtain ⟨level, level', hs, ht, hlevel⟩ := h.counters
    refine ⟨rfl, congrArg (fun signals : Signals => signals.cancel token) h.signals,
      level, level', ?_, ?_, hlevel⟩
    · cases src <;> exact hs
    · cases src <;> exact ht
  | together caller rs commits =>
    have honly : Turn.only kind (.together caller rs commits) =
        [.together caller (rs.filter fun r => r.kind = kind) commits] := rfl
    rw [honly, Turn.runAll_singleton, together_run, together_run, ← h.signals]
    cases s.signals.check caller with
    | error e => exact ⟨rfl, h⟩
    | ok _ =>
      obtain ⟨hresults, hagree⟩ := agree_calls (commits || src == .memory) rs h
      refine ⟨hresults, ?_⟩
      cases commits with
      | true => exact hagree
      | false => exact agree_restored h hagree

/-- **The calls of one kind do not affect those of another.** -/
theorem agree_runAll : ∀ {turns : List Turn} {s t : Session}, Agree src kind s t →
    ((Turn.runAll src turns s).1.filter fun a => a.call.kind = kind) =
        (Turn.runAll src (turns.flatMap (Turn.only kind)) t).1 ∧
      Agree src kind (Turn.runAll src turns s).2
        (Turn.runAll src (turns.flatMap (Turn.only kind)) t).2 := by
  intro turns
  induction turns with
  | nil => exact fun h => ⟨rfl, h⟩
  | cons turn rest ih =>
    intro s t h
    obtain ⟨hfirst, hagree⟩ := agree_run h turn
    obtain ⟨hmore, hafter⟩ := ih hagree
    rw [List.flatMap_cons, Turn.runAll_append, Turn.runAll_cons]
    refine ⟨?_, hafter⟩
    rw [List.filter_append, hfirst, hmore]

end Agreement

/-! ### The identifiers of a run -/

/-- No counter has advanced yet: the table of counters, or the memory, is empty. -/
def IdSource.Unused (s : Session) : IdSource → Prop
  | database => s.database.table "id_generator" = .ok ⟨Identifiers.counterTable, []⟩
  | memory => s.counters = .empty

instance (s : Session) (src : IdSource) : Decidable (src.Unused s) := by
  cases src
  · exact inferInstanceAs (Decidable (_ = _))
  · exact inferInstanceAs (Decidable (_ = _))

theorem IdSource.counts_of_unused {src : IdSource} {s : Session} (h : src.Unused s) :
    src.Counts s fun _ => 0 := by
  cases src with
  | database => exact ⟨_, h, Identifiers.counts_nil⟩
  | memory =>
    intro kind
    have hempty : s.counters = .empty := h
    rw [hempty]
    rfl

set_option maxRecDepth 100000 in
/-- The statement that adds the table of counters is read as such. -/
theorem Identifiers.read_migration :
    Sql.Statement.read migration.sql [] = .ok (.createTable true counterTable) := by
  unfold Sql.Statement.read migration
  rw [String.toList_ofList]
  decide +kernel

/-- A database to which the table of counters was added has unused counters. -/
theorem unused_migrate {caller : Caller} {s : Session} (hcheck : s.signals.check caller = .ok ())
    (hnone : s.database.tables.contains "id_generator" = false) :
    IdSource.database.Unused (Identifiers.migrate Session.connection caller s).2 := by
  have hnames : Placeholder.names Identifiers.migration.sql = [] := by
    unfold Placeholder.names Identifiers.migration
    rw [String.toList_ofList]
    decide +kernel
  have hbound : Identifiers.migration.bound = .ok (Identifiers.migration.sql, []) := by
    rw [Query.bound, Query.unbound?, Query.values, Query.placeholders, hnames, Query.positional,
      Placeholder.substitute_of_names_eq_nil hnames]
    rfl
  have hrun : s.database.run (s.clock.addMicros 1) (.createTable true Identifiers.counterTable) =
      .ok ({}, s.database.withTable ⟨Identifiers.counterTable, []⟩) := by
    show (if s.database.tables.contains "id_generator" = true then _ else _) = _
    rw [hnone, if_neg Bool.false_ne_true]
  have hperform := Session.perform_ok "failed to execute statement" caller hcheck hbound
    Identifiers.read_migration rfl hrun
  unfold Identifiers.migrate
  rw [Action.bind_run, Session.execute_run, hperform]
  exact Sql.Database.table_withTable _

/-- **No identifier of a kind is given twice.**  In every run that starts with unused
counters, each success is a batch of consecutive identifiers; of two calls of a kind that
took effect the later one has other and greater identifiers; and what the calls of a kind
give is what they would give without the calls of other kinds. -/
theorem identifiers_exclusive (src : IdSource) (s : Session) (h : src.Unused s)
    (turns : List Turn) :
    let allocations := (Turn.runAll src turns s).1
    (∀ a ∈ allocations, ∀ ids, a.result = .ok ids → Identifiers.IsBatch a.call.size ids) ∧
    ((allocations.filter Allocation.effective).Pairwise fun a b =>
      a.call.kind = b.call.kind → ∀ ids later, a.result = .ok ids → b.result = .ok later →
        ids.Disjoint later ∧ ∀ x ∈ ids, ∀ y ∈ later, x < y) ∧
    ∀ kind, (allocations.filter fun a => a.call.kind = kind) =
      (Turn.runAll src (turns.flatMap (Turn.only kind)) s).1 := by
  have hcounts := IdSource.counts_of_unused h
  obtain ⟨after, -, hprogress⟩ := progress_runAll turns hcounts
  refine ⟨hprogress.batches, ?_, fun kind => ?_⟩
  · refine (hprogress.ascending.filter _).imp_of_mem fun {a b} ha hb hab hkind ids later hids
      hlater => ?_
    have hlt := hab (List.mem_filter.1 ha).2 (List.mem_filter.1 hb).2 hkind ids later hids hlater
    exact ⟨fun x hx hy => lt_irrefl x (hlt x hx x hy), hlt⟩
  · exact (agree_runAll ⟨rfl, _, _, hcounts, hcounts, rfl⟩).1

/-! ### A run -/

/-- A caller who does not cancel. -/
def steadyCaller : Caller := { token := ⟨0, []⟩ }

/-- A session with an empty table of counters. -/
def freshCounters : Session :=
  { database := Sql.Database.empty.withTable ⟨Identifiers.counterTable, []⟩ }

/-- A call of its own, a transaction that is rolled back, and one that commits. -/
def mixedRun : List Turn :=
  [.alone ⟨steadyCaller, "host", 2⟩,
    .together steadyCaller [⟨steadyCaller, "host", 3⟩, ⟨steadyCaller, "disk", 1⟩] false,
    .together steadyCaller [⟨steadyCaller, "disk", 1⟩, ⟨steadyCaller, "host", 1⟩] true]

theorem mixedRun_exclusive :
    IdSource.database.Unused freshCounters ∧
    (∀ a ∈ (Turn.runAll .database mixedRun freshCounters).1, ∀ ids, a.result = .ok ids →
      Identifiers.IsBatch a.call.size ids) ∧
    (((Turn.runAll .database mixedRun freshCounters).1.filter Allocation.effective).Pairwise
      fun a b => a.call.kind = b.call.kind → ∀ ids later, a.result = .ok ids →
        b.result = .ok later → ids.Disjoint later ∧ ∀ x ∈ ids, ∀ y ∈ later, x < y) ∧
    ((Turn.runAll .database mixedRun freshCounters).1.filter fun a => a.call.kind = "disk") =
      (Turn.runAll .database
        [.together steadyCaller [⟨steadyCaller, "disk", 1⟩] false,
          .together steadyCaller [⟨steadyCaller, "disk", 1⟩] true] freshCounters).1 := by
  have hunused : IdSource.database.Unused freshCounters := by decide +kernel
  obtain ⟨hbatches, hpairs, hkinds⟩ :=
    identifiers_exclusive .database freshCounters hunused mixedRun
  exact ⟨hunused, hbatches, hpairs, hkinds "disk"⟩

/-- In memory the transaction that is rolled back keeps its identifiers. -/
example : (Turn.runAll .memory mixedRun {}).1.map (fun a => (a.call.kind, a.result)) =
    [("host", .ok ["00000001", "00000002"]), ("host", .ok ["00000003", "00000004", "00000005"]),
      ("disk", .ok ["00000001"]), ("disk", .ok ["00000002"]), ("host", .ok ["00000006"])] := by
  decide +kernel

end ResourceTable
