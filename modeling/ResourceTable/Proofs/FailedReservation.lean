import ResourceTable.Proofs.SourceAgreement

/-!
# Reservations that fail

A call for identifiers can fail before its counter advances: its batch has a wrong size, its
caller canceled, or the database has no table of counters.  Then nothing has changed that
later calls could tell.

It can also fail after its counter advanced, because the counter passed the greatest
identifier.  The counter is not taken back.  Such a call takes all that was left of its kind,
however little a later call asks for.

## Main definitions

* `IdSource.Stands`: what the counters of a session stand at, if there are any.
* `IdSource.outcome`: what a call gives, and what the counters stand at then.
* `SameCounters`: sessions that calls cannot tell apart.
* `IdSource.Overdraws`: calls that take a counter past the greatest identifier.
* `IdSource.Exhausted`: a kind of which nothing is left.

## Main results

* `reserve_stands` — one step: a call gives its outcome.
* `same_runAll` — runs from sessions with the same counters give the same.
* `exhausted_runAll` — every call for an exhausted kind fails.
* `failed_reservation` — **a call that fails changes no counter, unless it overdraws.**
* `overdrawn_rest` — a call that overdraws takes what a smaller one could have had.
-/

namespace ResourceTable

open Sql Identifiers

/-! ### Where counters stand -/

/-- The database of a session has no table of counters. -/
def Session.LacksCounters (s : Session) : Prop :=
  s.database.table "id_generator" = .error (.noSuchTable "id_generator")

/-- How a call fails for which there is no table of counters. -/
def Identifiers.lackingFailure (check : Except Failure Unit) (kind : String) (n : Nat) : Failure :=
  match checkBatch n, check with
  | .error e, _ => e
  | .ok (), .error e => advanceFailure kind e
  | .ok (), .ok () =>
    advanceFailure kind (Report.during
      ⟨.text ((Fault.noSuchTable "id_generator").message advanceText), []⟩
      "failed to prepare statement").failure

/-- Without a table of counters a call fails and leaves the database as it was. -/
theorem reserve_lacking {s : Session} (h : s.LacksCounters) (caller : Caller) (kind : String)
    (n : Nat) : ∃ after,
      IdSource.database.reserve caller kind n s =
        (.error (lackingFailure (s.signals.check caller) kind n), after) ∧
      after.LacksCounters ∧ after.signals = s.signals := by
  unfold IdSource.reserve Identifiers.reserve lackingFailure
  dsimp only
  rw [Action.bind_run, Action.lift_run]
  rcases checkBatch_cases n with ⟨e, he⟩ | ⟨hok, -, hn⟩
  · rw [he]
    exact ⟨s, rfl, h, rfl⟩
  · rw [hok]
    dsimp only
    rw [Action.bind_run, Action.adapt_run, Session.query_run, Session.perform_run]
    cases s.signals.check caller with
    | error e => exact ⟨s, rfl, h, rfl⟩
    | ok _ =>
      have hlt : n < highest := by
        have hhighest : highest = 9223372036854775808 := by decide
        omega
      have hprepared : (s.afterIssue advanceText).prepared advanceText [.text kind, .ofInt n] =
          .error (.noSuchTable "id_generator") := by
        have hprepare : s.database.prepare (s.clock.addMicros 1)
            (.insert (advanceStatement (.text kind) (.ofInt n))) =
              .error (.noSuchTable "id_generator") := by
          unfold Database.prepare
          dsimp only [advanceStatement]
          rw [h]
          rfl
        rw [Session.prepared, read_advance, Test.ok_bind]
        show (s.database.prepare (s.clock.addMicros 1) _ >>= _) = _
        rw [hprepare]
        rfl
      rw [bound_advance kind hlt]
      dsimp only
      rw [hprepared]
      exact ⟨s.afterIssue advanceText, rfl, h, rfl⟩

namespace IdSource

/-- What the counters of a session stand at, if there are any. -/
def Stands (s : Session) (src : IdSource) : Option (String → Nat) → Prop
  | some level => src.Counts s level
  | none => src = database ∧ s.LacksCounters

/-- What a call gives, and what the counters stand at then. -/
def outcome (src : IdSource) (check : Except Failure Unit) (r : Reservation) :
    Option (String → Nat) → Except Failure (List String) × Option (String → Nat)
  | some level =>
    let tally := src.tally check r.kind r.size (level r.kind)
    (tally.1, some (Function.update level r.kind tally.2))
  | none => (.error (lackingFailure check r.kind r.size), none)

variable {src : IdSource} {s : Session} {standing : Option (String → Nat)}

/-- **One step: a call gives its outcome.** -/
theorem reserve_stands (h : src.Stands s standing) (r : Reservation) :
    ∃ after,
      src.reserve r.caller r.kind r.size s =
        ((src.outcome (s.signals.check r.caller) r standing).1, after) ∧
      src.Stands after (src.outcome (s.signals.check r.caller) r standing).2 ∧
      after.signals = s.signals := by
  cases standing with
  | none =>
    obtain ⟨rfl, hlacks⟩ := h
    obtain ⟨after, hrun, hafter, hsignals⟩ := reserve_lacking hlacks r.caller r.kind r.size
    exact ⟨after, hrun, ⟨rfl, hafter⟩, hsignals⟩
  | some level =>
    obtain ⟨after, hrun, hafter, hsignals, -⟩ := reserve_run h r.caller r.kind r.size
    exact ⟨after, hrun, hafter, hsignals⟩

/-- What the counters stand at when the database is taken back. -/
def restored (src : IdSource) (before after : Option (String → Nat)) : Option (String → Nat) :=
  match src with
  | database => before
  | memory => after

theorem stands_restored {later : Session} {after : Option (String → Nat)}
    (h : src.Stands s standing) (hlater : src.Stands later after) :
    src.Stands { later with database := s.database } (src.restored standing after) := by
  cases src with
  | database => cases standing <;> exact h
  | memory =>
    cases after with
    | none => cases hlater.1
    | some level => exact hlater

end IdSource

/-! ### Sessions that calls cannot tell apart -/

/-- The sessions have the same callers canceled, and the same counters or both none. -/
structure SameCounters (src : IdSource) (s t : Session) : Prop where
  signals : s.signals = t.signals
  standing : ∃ standing, src.Stands s standing ∧ src.Stands t standing

section Same

variable {src : IdSource} {s t : Session}

theorem same_reserve (h : SameCounters src s t) (r : Reservation) :
    (src.reserve r.caller r.kind r.size s).1 = (src.reserve r.caller r.kind r.size t).1 ∧
      SameCounters src (src.reserve r.caller r.kind r.size s).2
        (src.reserve r.caller r.kind r.size t).2 := by
  obtain ⟨standing, hs, ht⟩ := h.standing
  obtain ⟨after, hrun, hafter, hsignals⟩ := IdSource.reserve_stands hs r
  obtain ⟨later, hrun', hlater, hsignals'⟩ := IdSource.reserve_stands ht r
  rw [h.signals] at hrun hafter
  rw [hrun, hrun']
  exact ⟨rfl, by rw [hsignals, hsignals', h.signals], _, hafter, hlater⟩

theorem same_calls (effective : Bool) : ∀ (rs : List Reservation) {s t : Session},
    SameCounters src s t →
      (Turn.calls src effective rs s).1 = (Turn.calls src effective rs t).1 ∧
        SameCounters src (Turn.calls src effective rs s).2 (Turn.calls src effective rs t).2 := by
  intro rs
  induction rs with
  | nil => exact fun h => ⟨rfl, h⟩
  | cons r rest ih =>
    intro s t h
    obtain ⟨hresult, hnext⟩ := same_reserve h r
    obtain ⟨hmore, hafter⟩ := ih hnext
    rw [Turn.calls_cons, Turn.calls_cons, hresult, hmore]
    exact ⟨rfl, hafter⟩

theorem same_run (h : SameCounters src s t) (turn : Turn) :
    (turn.run src s).1 = (turn.run src t).1 ∧
      SameCounters src (turn.run src s).2 (turn.run src t).2 := by
  cases turn with
  | alone r => exact same_calls true [r] h
  | cancel token =>
    obtain ⟨standing, hs, ht⟩ := h.standing
    refine ⟨rfl, congrArg (fun signals : Signals => signals.cancel token) h.signals,
      standing, ?_, ?_⟩
    · cases src <;> cases standing <;> exact hs
    · cases src <;> cases standing <;> exact ht
  | together caller rs commits =>
    rw [together_run, together_run, h.signals]
    cases t.signals.check caller with
    | error e => exact ⟨rfl, h⟩
    | ok _ =>
      obtain ⟨hresults, hafter⟩ := same_calls (commits || src == .memory) rs h
      refine ⟨hresults, ?_⟩
      cases commits with
      | true => exact hafter
      | false =>
        obtain ⟨standing, hs, ht⟩ := h.standing
        obtain ⟨later, hs', ht'⟩ := hafter.standing
        exact ⟨hafter.signals, _, IdSource.stands_restored hs hs',
          IdSource.stands_restored ht ht'⟩

/-- **Runs from sessions with the same counters give the same.** -/
theorem same_runAll : ∀ (turns : List Turn) {s t : Session}, SameCounters src s t →
    (Turn.runAll src turns s).1 = (Turn.runAll src turns t).1 ∧
      SameCounters src (Turn.runAll src turns s).2 (Turn.runAll src turns t).2 := by
  intro turns
  induction turns with
  | nil => exact fun h => ⟨rfl, h⟩
  | cons turn rest ih =>
    intro s t h
    obtain ⟨hfirst, hnext⟩ := same_run h turn
    obtain ⟨hmore, hafter⟩ := ih hnext
    rw [Turn.runAll_cons, Turn.runAll_cons, hfirst, hmore]
    exact ⟨rfl, hafter⟩

end Same

/-! ### Calls that fail -/

/-- Below the greatest identifier the last numbers up to a counter have identifiers. -/
theorem Identifiers.range_of_le {kind : String} {before n : Nat} (hn : n ≤ 1000)
    (hle : (before + n : Int) ≤ greatest) :
    range kind (before + n) n = .ok ((List.range' (before + 1) n).map text) := by
  have hgreatest : greatest = 4294967295 := by decide
  have hcount : (IntType.i64.count : Int) = 18446744073709551616 := by decide
  have hfirst : firstOf (before + n) n = before + 1 := by
    unfold firstOf
    rw [Int.bmod_eq_of_le] <;> omega
  unfold range
  rw [if_neg (by omega)]
  dsimp only
  rw [hfirst, if_neg (by omega)]
  have hstart : ((before : Int) + 1).toNat = before + 1 := by omega
  have hlength : ((before : Int) + n + 1 - (before + 1)).toNat = n := by omega
  rw [hstart, hlength]

namespace IdSource

/-- The call is in order, but takes its counter past the greatest identifier. -/
def Overdraws (src : IdSource) (s : Session) (r : Reservation) : Prop :=
  checkBatch r.size = .ok () ∧ s.signals.check r.caller = .ok () ∧
    ∃ level, src.Counts s level ∧ greatest < level r.kind + r.size

/-- Nothing is left of a kind: its counter is past the greatest identifier. -/
def Exhausted (src : IdSource) (s : Session) (kind : String) : Prop :=
  ∃ level, src.Counts s level ∧ greatest < level kind

/-- A call that stays within the identifiers gives those that its counter passes. -/
theorem tally_of_le {src : IdSource} {check : Except Failure Unit} {kind : String} {n level : Nat}
    (hsize : checkBatch n = .ok ()) (hcheck : check = .ok ())
    (hle : (level + n : Int) ≤ greatest) :
    src.tally check kind n level =
      (.ok ((List.range' (level + 1) n).map Identifiers.text), level + n) := by
  subst hcheck
  obtain ⟨-, -, hn⟩ := (checkBatch_cases n).resolve_left fun ⟨e, he⟩ => by
    rw [hsize] at he
    cases he
  have hrange : range kind ((level + n : Nat) : Int) n =
      .ok ((List.range' (level + 1) n).map Identifiers.text) := by
    push_cast
    exact range_of_le hn hle
  cases src with
  | database =>
    have hlt : level + n < highest := by
      have hgreatest : greatest < (highest : Int) := by decide
      omega
    unfold tally
    rw [hsize]
    dsimp only
    rw [Nat.min_eq_left hlt.le, counterOf_eq_ok hlt]
    exact congrArg (·, level + n) hrange
  | memory =>
    unfold tally
    rw [hsize]
    exact congrArg (·, level + n) hrange

/-- A call that takes its counter past the identifiers fails, and the counter stays there. -/
theorem tally_of_lt {src : IdSource} {check : Except Failure Unit} {kind : String} {n level : Nat}
    (hsize : checkBatch n = .ok ()) (hcheck : check = .ok ())
    (hlt : greatest < (level + n : Int)) :
    ∃ e, (src.tally check kind n level).1 = .error e ∧ e.code = "allocation_exhausted" ∧
      greatest < (src.tally check kind n level).2 := by
  subst hcheck
  obtain ⟨e, he, hcode⟩ := code_range kind hlt n
  cases src with
  | database =>
    have hgreatest : greatest < (highest : Int) := by decide
    unfold tally
    rw [hsize]
    dsimp only
    rcases Nat.lt_or_ge (level + n) highest with hcounter | hcounter
    · rw [Nat.min_eq_left hcounter.le, counterOf_eq_ok hcounter]
      exact ⟨e, he, hcode, hlt⟩
    · obtain ⟨e, he⟩ := counterOf_highest kind
      rw [Nat.min_eq_right hcounter, he]
      exact ⟨e, rfl, code_counterOf he, hgreatest⟩
  | memory =>
    unfold tally
    rw [hsize]
    exact ⟨e, he, hcode, hlt⟩

/-- A call that is not in order leaves its counter. -/
theorem tally_refused {src : IdSource} {check : Except Failure Unit} {kind : String} {n level : Nat}
    (h : ¬ (checkBatch n = .ok () ∧ check = .ok ())) :
    (src.tally check kind n level).2 = level := by
  unfold tally
  cases hsize : checkBatch n with
  | error e => cases src <;> cases check <;> rfl
  | ok _ =>
    cases check with
    | error e => cases src <;> rfl
    | ok _ => exact absurd ⟨hsize, rfl⟩ h

/-- A call that fails and does not overdraw leaves the counters where they stood. -/
theorem outcome_of_error {src : IdSource} {s : Session} {standing : Option (String → Nat)}
    {r : Reservation} {e : Failure} (h : src.Stands s standing)
    (hfail : (src.outcome (s.signals.check r.caller) r standing).1 = .error e)
    (hwithin : ¬ src.Overdraws s r) :
    (src.outcome (s.signals.check r.caller) r standing).2 = standing := by
  cases standing with
  | none => rfl
  | some level =>
    have hkept : (src.tally (s.signals.check r.caller) r.kind r.size (level r.kind)).2 =
        level r.kind := by
      by_cases horder : checkBatch r.size = .ok () ∧ s.signals.check r.caller = .ok ()
      · have hle : (level r.kind + r.size : Int) ≤ greatest :=
          not_lt.1 fun hlt => hwithin ⟨horder.1, horder.2, level, h, hlt⟩
        rw [outcome] at hfail
        dsimp only at hfail
        rw [tally_of_le horder.1 horder.2 hle] at hfail
        cases hfail
      · exact tally_refused horder
    rw [outcome]
    dsimp only
    rw [hkept, Function.update_eq_self]

end IdSource

section Failing

variable {src : IdSource} {s : Session} {r : Reservation}

/-- **A call that fails changes nothing that calls can tell**, unless it overdraws. -/
theorem same_of_failure (h : ∃ standing, src.Stands s standing) {e : Failure}
    (hfail : (src.reserve r.caller r.kind r.size s).1 = .error e)
    (hwithin : ¬ src.Overdraws s r) :
    SameCounters src s (src.reserve r.caller r.kind r.size s).2 := by
  obtain ⟨standing, hstands⟩ := h
  obtain ⟨after, hrun, hafter, hsignals⟩ := IdSource.reserve_stands hstands r
  rw [hrun] at hfail ⊢
  rw [IdSource.outcome_of_error hstands hfail hwithin] at hafter
  exact ⟨hsignals.symm, standing, hstands, hafter⟩

/-- A call that overdraws fails, and leaves nothing of its kind; the counters of other kinds
stay. -/
theorem exhausted_of_overdraws (h : src.Overdraws s r) :
    ∃ e level after, (src.reserve r.caller r.kind r.size s).1 = .error e ∧
      e.code = "allocation_exhausted" ∧ src.Counts s level ∧
      src.Counts (src.reserve r.caller r.kind r.size s).2 after ∧
      greatest < after r.kind ∧ ∀ kind ≠ r.kind, after kind = level kind := by
  obtain ⟨hsize, hcheck, level, hcounts, hlt⟩ := h
  obtain ⟨later, hrun, hlater, -, -⟩ := IdSource.reserve_run hcounts r.caller r.kind r.size
  have hpassed : ∃ e, (src.tally (s.signals.check r.caller) r.kind r.size (level r.kind)).1 =
      .error e ∧ e.code = "allocation_exhausted" ∧
      greatest < (src.tally (s.signals.check r.caller) r.kind r.size (level r.kind)).2 :=
    IdSource.tally_of_lt hsize hcheck hlt
  obtain ⟨e, he, hcode, hpast⟩ := hpassed
  rw [hrun]
  refine ⟨e, level, _, he, hcode, hcounts, hlater, ?_, fun kind hkind => ?_⟩
  · rw [Function.update_self]
    exact hpast
  · exact Function.update_of_ne hkind _ _

end Failing

/-! ### Exhausted kinds -/

section Exhausted

variable {src : IdSource} {s : Session} {kind : String}

/-- Every call for an exhausted kind fails, and no call makes it less exhausted. -/
theorem exhausted_reserve (h : src.Exhausted s kind) (r : Reservation) :
    (r.kind = kind → ∃ e, (src.reserve r.caller r.kind r.size s).1 = .error e) ∧
      src.Exhausted (src.reserve r.caller r.kind r.size s).2 kind := by
  obtain ⟨level, hcounts, hpast⟩ := h
  obtain ⟨later, hrun, hlater, -, -⟩ := IdSource.reserve_run hcounts r.caller r.kind r.size
  rw [hrun]
  refine ⟨fun hkind => ?_, _, hlater, ?_⟩
  · cases hresult : (src.tally (s.signals.check r.caller) r.kind r.size (level r.kind)).1 with
    | error e => exact ⟨e, rfl⟩
    | ok ids =>
      obtain ⟨-, -, hle, -⟩ := IdSource.tally_eq_ok hresult
      rw [hkind] at hle
      omega
  · by_cases hkind : kind = r.kind
    · have hle := IdSource.le_tally (fun hsrc => hcounts.bounded hsrc r.kind)
        (s.signals.check r.caller) r.kind r.size
      rw [hkind, Function.update_self]
      rw [hkind] at hpast
      omega
    · rwa [Function.update_of_ne hkind]

theorem exhausted_calls (effective : Bool) : ∀ (rs : List Reservation) {s : Session},
    src.Exhausted s kind →
      (∀ a ∈ (Turn.calls src effective rs s).1, a.call.kind = kind → ∃ e, a.result = .error e) ∧
        src.Exhausted (Turn.calls src effective rs s).2 kind := by
  intro rs
  induction rs with
  | nil => exact fun h => ⟨fun _ hnone => (List.not_mem_nil hnone).elim, h⟩
  | cons r rest ih =>
    intro s h
    obtain ⟨hfirst, hnext⟩ := exhausted_reserve h r
    obtain ⟨hmore, hafter⟩ := ih hnext
    exact ⟨List.forall_mem_cons.2 ⟨hfirst, hmore⟩, hafter⟩

theorem exhausted_run (h : src.Exhausted s kind) (turn : Turn) :
    (∀ a ∈ (turn.run src s).1, a.call.kind = kind → ∃ e, a.result = .error e) ∧
      src.Exhausted (turn.run src s).2 kind := by
  cases turn with
  | alone r => exact exhausted_calls true [r] h
  | cancel token =>
    obtain ⟨level, hcounts, hpast⟩ := h
    refine ⟨fun _ hnone => (List.not_mem_nil hnone).elim, level, ?_, hpast⟩
    cases src <;> exact hcounts
  | together caller rs commits =>
    rw [together_run]
    cases s.signals.check caller with
    | error e => exact ⟨fun _ hnone => (List.not_mem_nil hnone).elim, h⟩
    | ok _ =>
      obtain ⟨hresults, hafter⟩ := exhausted_calls (commits || src == .memory) rs h
      refine ⟨hresults, ?_⟩
      cases commits with
      | true => exact hafter
      | false =>
        obtain ⟨level, hcounts, hpast⟩ := h
        obtain ⟨later, hlater, hpast'⟩ := hafter
        refine ⟨_, counts_restored hcounts hlater, ?_⟩
        cases src with
        | database => exact hpast
        | memory => exact hpast'

/-- **Every call for an exhausted kind fails, ever after.** -/
theorem exhausted_runAll : ∀ (turns : List Turn) {s : Session}, src.Exhausted s kind →
    ∀ a ∈ (Turn.runAll src turns s).1, a.call.kind = kind → ∃ e, a.result = .error e := by
  intro turns
  induction turns with
  | nil => exact fun _ _ hnone => (List.not_mem_nil hnone).elim
  | cons turn rest ih =>
    intro s h
    obtain ⟨hfirst, hnext⟩ := exhausted_run h turn
    exact List.forall_mem_append.2 ⟨hfirst, ih hnext⟩

end Exhausted

/-- **A call that fails changes no counter, unless it overdraws.**  In every run that starts
with unused counters, or without a table of them, a call that fails leaves the counters as
they were, so that every later run gives what it would have given without the call.  The
exception is a call that is in order but takes its counter past the greatest identifier: then
no other counter changes, and every later call for its kind fails. -/
theorem failed_reservation (src : IdSource) (start : Session)
    (hstart : src.Unused start ∨ src = .database ∧ start.LacksCounters) (turns : List Turn)
    (r : Reservation) {e : Failure}
    (hfail : (src.reserve r.caller r.kind r.size (Turn.runAll src turns start).2).1 = .error e) :
    let s := (Turn.runAll src turns start).2
    let after := (src.reserve r.caller r.kind r.size s).2
    (¬ src.Overdraws s r → SameCounters src s after ∧
      ∀ later, (Turn.runAll src later after).1 = (Turn.runAll src later s).1) ∧
    (src.Overdraws s r → e.code = "allocation_exhausted" ∧
      (∃ level level', src.Counts s level ∧ src.Counts after level' ∧ greatest < level' r.kind ∧
        ∀ kind ≠ r.kind, level' kind = level kind) ∧
      ∀ later, ∀ a ∈ (Turn.runAll src later after).1, a.call.kind = r.kind →
        ∃ e, a.result = .error e) := by
  intro s after
  have hstands : ∃ standing, src.Stands start standing := by
    rcases hstart with hunused | hlacks
    · exact ⟨some _, IdSource.counts_of_unused hunused⟩
    · exact ⟨none, hlacks⟩
  obtain ⟨standing, hstanding⟩ := hstands
  have hreached := (same_runAll turns ⟨rfl, standing, hstanding, hstanding⟩).2.standing
  obtain ⟨reached, hs, -⟩ := hreached
  refine ⟨fun hwithin => ?_, fun hover => ?_⟩
  · have hsame := same_of_failure ⟨reached, hs⟩ hfail hwithin
    exact ⟨hsame, fun later => (same_runAll later hsame).1.symm⟩
  · obtain ⟨e', level, level', he, hcode, hlevel, hlevel', hpast, hother⟩ :=
      exhausted_of_overdraws hover
    obtain rfl := Except.error.inj (hfail.symm.trans he)
    exact ⟨hcode, ⟨level, level', hlevel, hlevel', hpast, hother⟩,
      fun later => exhausted_runAll later ⟨level', hlevel', hpast⟩⟩

/-- **A call that overdraws takes what a smaller one could have had**: a smaller call that
stays within the identifiers succeeds before it, and fails after it. -/
theorem overdrawn_rest {src : IdSource} {s : Session} {level : String → Nat} {caller : Caller}
    {kind : String} {small large : Nat} (hcounts : src.Counts s level)
    (hcheck : s.signals.check caller = .ok ()) (hsmall : checkBatch small = .ok ())
    (hlarge : checkBatch large = .ok ()) (hwithin : (level kind + small : Int) ≤ greatest)
    (hbeyond : greatest < (level kind + large : Int)) :
    src.Overdraws s ⟨caller, kind, large⟩ ∧
      (∃ e, (src.reserve caller kind large s).1 = .error e) ∧
      (src.reserve caller kind small s).1 =
        .ok ((List.range' (level kind + 1) small).map Identifiers.text) ∧
      ∃ e, (src.reserve caller kind small (src.reserve caller kind large s).2).1 = .error e := by
  have hover : src.Overdraws s ⟨caller, kind, large⟩ := ⟨hlarge, hcheck, level, hcounts, hbeyond⟩
  obtain ⟨e, -, level', he, -, -, hlevel', hpast, -⟩ := exhausted_of_overdraws hover
  obtain ⟨hnone, -⟩ := exhausted_reserve ⟨level', hlevel', hpast⟩ ⟨caller, kind, small⟩
  obtain ⟨after, hrun, -⟩ := IdSource.reserve_run hcounts caller kind small
  refine ⟨hover, ⟨e, he⟩, ?_, hnone rfl⟩
  rw [hrun, IdSource.tally_of_le hsmall hcheck hwithin]

/-! ### The last identifiers -/

/-- Calls for one identifier each. -/
def singleCalls (n : Nat) : List Turn := .replicate n (.alone ⟨steadyCaller, "vpc", 1⟩)

/-- As many calls take the counter as far, while there are identifiers. -/
theorem counts_singleCalls {src : IdSource} : ∀ (n : Nat) {s : Session} {level : String → Nat},
    src.Counts s level → s.signals.check steadyCaller = .ok () →
      (level "vpc" + n : Int) ≤ greatest →
        ∃ after, src.Counts (Turn.runAll src (singleCalls n) s).2 after ∧
          after "vpc" = level "vpc" + n ∧
          (Turn.runAll src (singleCalls n) s).2.signals.check steadyCaller = .ok () := by
  intro n
  induction n with
  | zero => exact fun h hcheck _ => ⟨_, h, rfl, hcheck⟩
  | succ n ih =>
    intro s level h hcheck hle
    push_cast at hle
    obtain ⟨later, hrun, hlater, hsignals, -⟩ := IdSource.reserve_run h steadyCaller "vpc" 1
    have htally : src.tally (s.signals.check steadyCaller) "vpc" 1 (level "vpc") = (_, _) :=
      IdSource.tally_of_le rfl hcheck (by push_cast; omega)
    rw [htally] at hlater
    have hstep : (Turn.run src (.alone ⟨steadyCaller, "vpc", 1⟩) s).2 = later :=
      congrArg Prod.snd hrun
    obtain ⟨after, hafter, hcount, hcheck'⟩ := ih hlater (hsignals ▸ hcheck)
      (by rw [Function.update_self]; push_cast; omega)
    rw [Function.update_self] at hcount
    rw [singleCalls, List.replicate_succ, Turn.runAll_cons, hstep]
    exact ⟨after, hafter, by omega, hcheck'⟩

/-- Where five identifiers are left, a call for ten takes them. -/
theorem overdrawn_five {src : IdSource} {start : Session} (h : src.Unused start)
    (hcheck : start.signals.check steadyCaller = .ok ()) :
    ∃ s, s = (Turn.runAll src (singleCalls 4294967290) start).2 ∧
      src.Overdraws s ⟨steadyCaller, "vpc", 10⟩ ∧
      (∃ e, (src.reserve steadyCaller "vpc" 10 s).1 = .error e) ∧
      (src.reserve steadyCaller "vpc" 5 s).1 =
        .ok ["fffffffb", "fffffffc", "fffffffd", "fffffffe", "ffffffff"] ∧
      ∃ e, (src.reserve steadyCaller "vpc" 5 (src.reserve steadyCaller "vpc" 10 s).2).1 =
        .error e := by
  have hgreatest : greatest = 4294967295 := by decide
  have htexts : (List.range' (4294967290 + 1) 5).map Identifiers.text =
      ["fffffffb", "fffffffc", "fffffffd", "fffffffe", "ffffffff"] := by decide +kernel
  have hreached := counts_singleCalls 4294967290 (IdSource.counts_of_unused h) hcheck
    (by rw [hgreatest]; decide)
  -- The session stays a name from here on: its calls are too many to be run.
  generalize (Turn.runAll src (singleCalls 4294967290) start).2 = s at hreached ⊢
  obtain ⟨level, hlevel, hcount, hchecked⟩ := hreached
  rw [Nat.zero_add] at hcount
  refine ⟨s, rfl, ?_⟩
  rw [← htexts, ← hcount]
  exact overdrawn_rest hlevel hchecked rfl rfl (by rw [hcount, hgreatest]; decide)
    (by rw [hcount, hgreatest]; decide)

/-- The last identifiers are lost in the database and in memory. -/
theorem last_identifiers_lost :
    (∃ s, s = (Turn.runAll .database (singleCalls 4294967290) freshCounters).2 ∧
      IdSource.database.Unused freshCounters ∧
      (∃ e, (IdSource.database.reserve steadyCaller "vpc" 10 s).1 = .error e) ∧
      (IdSource.database.reserve steadyCaller "vpc" 5 s).1 =
        .ok ["fffffffb", "fffffffc", "fffffffd", "fffffffe", "ffffffff"] ∧
      ∃ e, (IdSource.database.reserve steadyCaller "vpc" 5
        (IdSource.database.reserve steadyCaller "vpc" 10 s).2).1 = .error e) ∧
    ∃ s, s = (Turn.runAll .memory (singleCalls 4294967290) {}).2 ∧
      IdSource.memory.Unused {} ∧
      (∃ e, (IdSource.memory.reserve steadyCaller "vpc" 10 s).1 = .error e) ∧
      (IdSource.memory.reserve steadyCaller "vpc" 5 s).1 =
        .ok ["fffffffb", "fffffffc", "fffffffd", "fffffffe", "ffffffff"] ∧
      ∃ e, (IdSource.memory.reserve steadyCaller "vpc" 5
        (IdSource.memory.reserve steadyCaller "vpc" 10 s).2).1 = .error e := by
  have hdatabase : IdSource.database.Unused freshCounters := by decide +kernel
  have hmemory : IdSource.memory.Unused {} := by decide
  obtain ⟨s, hs, -, hlost⟩ := overdrawn_five hdatabase rfl
  obtain ⟨t, ht, -, hlost'⟩ := overdrawn_five hmemory rfl
  exact ⟨⟨s, hs, hdatabase, hlost⟩, t, ht, hmemory, hlost'⟩

/-- A batch that is too large leaves the counters, and one that overdraws does not. -/
theorem oversized_reservations :
    IdSource.database.Unused freshCounters ∧
    (∃ s, s = (Turn.runAll .database (singleCalls 2) freshCounters).2 ∧
      (IdSource.database.reserve steadyCaller "vpc" 1001 s).1 =
        .error (.request (.batchSize 1001 1000)) ∧
      ∀ later, (Turn.runAll .database later
          (IdSource.database.reserve steadyCaller "vpc" 1001 s).2).1 =
        (Turn.runAll .database later s).1) ∧
    ∃ s e, s = (Turn.runAll .database (singleCalls 4294967290) freshCounters).2 ∧
      IdSource.database.Overdraws s ⟨steadyCaller, "vpc", 10⟩ ∧
      (IdSource.database.reserve steadyCaller "vpc" 10 s).1 = .error e ∧
      e.code = "allocation_exhausted" ∧
      ∀ later, ∀ a ∈ (Turn.runAll .database later
          (IdSource.database.reserve steadyCaller "vpc" 10 s).2).1,
        a.call.kind = "vpc" → ∃ e, a.result = .error e := by
  have hunused : IdSource.database.Unused freshCounters := by decide +kernel
  have hlarge : ∀ s, (IdSource.database.reserve steadyCaller "vpc" 1001 s).1 =
      .error (.request (.batchSize 1001 1000)) := fun _ => rfl
  have hrefused : ∀ s, ¬ IdSource.database.Overdraws s ⟨steadyCaller, "vpc", 1001⟩ :=
    fun _ h => nomatch h.1
  have hkept := failed_reservation .database freshCounters (.inl hunused) (singleCalls 2)
    ⟨steadyCaller, "vpc", 1001⟩ (hlarge _)
  obtain ⟨s, hs, hover, ⟨e, he⟩, -⟩ := overdrawn_five hunused rfl
  have hfail := he
  rw [hs] at hfail
  have hlost := (failed_reservation .database freshCounters (.inl hunused)
    (singleCalls 4294967290) ⟨steadyCaller, "vpc", 10⟩ hfail).2
  rw [← hs] at hlost
  obtain ⟨hcode, -, hnone⟩ := hlost hover
  exact ⟨hunused, ⟨_, rfl, hlarge _, (hkept.1 (hrefused _)).2⟩, s, e, hs, hover, he, hcode, hnone⟩

end ResourceTable
