import ResourceTable.Proofs.ExclusiveIdentifiers

/-!
# Counters in the database and in memory

Identifiers can be reserved with counters in the database or in memory.  Two sessions that
keep them in the one and in the other, and in which the same calls are made and the same
callers cancel, stay in step: as long as a counter is below 2^63 both have the same, and the
one in the database stops there.  So they give the same identifiers or fail with the same
code, call by call, whatever failed before.

There is one exception.  The database looks at the size of the batch first and at the caller
when it runs its statement, whereas the memory begins with the caller.  A caller who canceled
and asks for a batch of a wrong size is told about the size by the one, and that the call was
canceled by the other.

## Main definitions

* `Turn.call?`, `Turn.IsPlain`: the call of a turn, and turns that are not transactions.
* `Allocation.StandsFor`: what the database gives for what the memory gives.
* `InStep`: sessions in step.

## Main results

* `tally_standsFor` — what a call gives, and where it takes the counters.
* `inStep_run` — one step: sessions stay in step.
* `sources_agree` — **the sources agree call by call**, with that exception.
-/

namespace ResourceTable

open Identifiers

/-! ### Calls that are told alike -/

/-- A failure that says that identifiers of the kind cannot be allocated. -/
theorem Identifiers.code_counterOf {kind : String} {rows : List Row} {e : Failure}
    (h : counterOf kind rows = .error e) : e.code = "allocation_exhausted" := by
  unfold counterOf at h
  cases rows with
  | nil =>
    cases h
    rfl
  | cons row rest =>
    dsimp only at h
    split at h
    · cases h
    · cases h
      rfl

/-- There are no identifiers above the greatest one. -/
theorem Identifiers.code_range (kind : String) {counter : Int} (h : greatest < counter) (n : Nat) :
    ∃ e, range kind counter n = .error e ∧ e.code = "allocation_exhausted" := by
  unfold range
  rw [if_pos h]
  exact ⟨_, rfl, rfl⟩

/-- The same identifiers, or failures with the same code. -/
def SameOutcome (a b : Except Failure (List String)) : Prop :=
  a.mapError Failure.code = b.mapError Failure.code

theorem SameOutcome.refl (a : Except Failure (List String)) : SameOutcome a a := rfl

/-- What the database gives for what the memory gives to a call for `n` identifiers. -/
def OutcomeFor (n : Nat) (a b : Except Failure (List String)) : Prop :=
  if (n = 0 ∨ maxBatch < n) ∧ b = .error .canceled then
    a = .error (.request (.batchSize n maxBatch))
  else SameOutcome a b

instance (n : Nat) (a b : Except Failure (List String)) : Decidable (OutcomeFor n a b) := by
  unfold OutcomeFor SameOutcome
  infer_instance

namespace Allocation

/-- The calls are the same, and so is what they gave: but if the memory says of a batch of a
wrong size that its call was canceled, then the database says that the size is wrong. -/
structure StandsFor (a b : Allocation) : Prop where
  call : a.call = b.call
  outcome : OutcomeFor a.call.size a.result b.result

end Allocation

/-! ### What a call gives -/

/-- **What a call gives, and where it takes the counters.**  The counter of the database is
the one of the memory, or has stopped. -/
theorem tally_standsFor (signals : Signals) (caller : Caller) (kind : String) (n level : Nat) :
    let d := IdSource.database.tally (signals.check caller) kind n (min level highest)
    let m := IdSource.memory.tally (signals.check caller) kind n level
    OutcomeFor n d.1 m.1 ∧ d.2 = min m.2 highest := by
  have hcheck : signals.check caller = .ok () ∨ signals.check caller = .error .canceled := by
    unfold Signals.check
    split
    · exact .inr rfl
    · exact .inl rfl
  have hbatch : checkBatch n =
      if n = 0 ∨ maxBatch < n then .error (.request (.batchSize n maxBatch)) else .ok () := rfl
  have hgreatest : greatest < (highest : Int) := by decide
  unfold OutcomeFor IdSource.tally
  dsimp only
  by_cases hsize : n = 0 ∨ maxBatch < n
  · rw [if_pos hsize] at hbatch
    rw [hbatch]
    rcases hcheck with hcheck | hcheck <;> rw [hcheck]
    · rw [if_neg (by rintro ⟨-, ⟨⟩⟩)]
      exact ⟨.refl _, rfl⟩
    · rw [if_pos ⟨hsize, rfl⟩]
      exact ⟨rfl, rfl⟩
  · rw [if_neg hsize] at hbatch
    rw [hbatch, if_neg fun h => hsize h.1]
    rcases hcheck with hcheck | hcheck <;> rw [hcheck]
    · have hlevel : min (min level highest + n) highest = min (level + n) highest := by omega
      refine ⟨?_, hlevel⟩
      dsimp only
      rw [hlevel]
      rcases Nat.lt_or_ge (level + n) highest with hlt | hge
      · rw [Nat.min_eq_left hlt.le, counterOf_eq_ok hlt]
        exact .refl _
      · -- The database cannot read the counter that has stopped, and the memory has passed
        -- the greatest identifier.
        obtain ⟨e, he⟩ := counterOf_highest kind
        obtain ⟨e', he', hcode⟩ :=
          code_range kind (hgreatest.trans_le (Int.ofNat_le.2 hge)) n
        rw [Nat.min_eq_right hge, he, he']
        exact congrArg Except.error ((code_counterOf he).trans hcode.symm)
    · exact ⟨.refl _, rfl⟩

/-! ### Sessions in step -/

/-- The one session keeps in the database what the other keeps in memory, up to where the
counters of the database stop. -/
structure InStep (s t : Session) : Prop where
  signals : s.signals = t.signals
  counters : ∃ level, IdSource.memory.Counts t level ∧
    IdSource.database.Counts s fun kind => min (level kind) highest

namespace Turn

/-- The call of a turn. -/
def call? : Turn → Option Reservation
  | alone r => some r
  | _ => none

/-- The turn is not a transaction. -/
def IsPlain : Turn → Prop
  | together _ _ _ => False
  | _ => True

instance : DecidablePred IsPlain
  | together _ _ _ => isFalse id
  | alone _ => isTrue trivial
  | cancel _ => isTrue trivial

end Turn

section Runs

variable {s t : Session}

theorem inStep_of_unused (hs : IdSource.database.Unused s) (ht : IdSource.memory.Unused t)
    (hsignals : s.signals = t.signals) : InStep s t :=
  ⟨hsignals, fun _ => 0, IdSource.counts_of_unused ht, IdSource.counts_of_unused hs⟩

/-- A call keeps the sessions in step. -/
theorem inStep_reserve (h : InStep s t) (r : Reservation) :
    OutcomeFor r.size (IdSource.database.reserve r.caller r.kind r.size s).1
        (IdSource.memory.reserve r.caller r.kind r.size t).1 ∧
      InStep (IdSource.database.reserve r.caller r.kind r.size s).2
        (IdSource.memory.reserve r.caller r.kind r.size t).2 := by
  obtain ⟨level, ht, hs⟩ := h.counters
  obtain ⟨after, hrun, hafter, hsignals, -⟩ := IdSource.reserve_run hs r.caller r.kind r.size
  obtain ⟨after', hrun', hafter', hsignals', -⟩ := IdSource.reserve_run ht r.caller r.kind r.size
  obtain ⟨houtcome, hlevel⟩ :=
    tally_standsFor t.signals r.caller r.kind r.size (level r.kind)
  rw [h.signals] at hrun hafter
  rw [hrun, hrun']
  refine ⟨houtcome, by rw [hsignals, hsignals', h.signals], _, hafter', ?_⟩
  dsimp only at hafter hlevel ⊢
  rw [hlevel] at hafter
  convert hafter using 1
  funext kind
  by_cases hkind : kind = r.kind
  · rw [hkind, Function.update_self, Function.update_self]
  · rw [Function.update_of_ne hkind, Function.update_of_ne hkind]

/-- **One step: sessions stay in step**, and a call gives what stands for what the other
gives. -/
theorem inStep_run (h : InStep s t) {turn : Turn} (hturn : turn.IsPlain) :
    List.Forall₂ Allocation.StandsFor (turn.run .database s).1 (turn.run .memory t).1 ∧
      (turn.run .database s).1.map Allocation.call = turn.call?.toList ∧
      InStep (turn.run .database s).2 (turn.run .memory t).2 := by
  cases turn with
  | together caller rs commits => cases hturn
  | alone r =>
    obtain ⟨houtcome, hafter⟩ := inStep_reserve h r
    exact ⟨.cons ⟨rfl, houtcome⟩ .nil, rfl, hafter⟩
  | cancel token =>
    obtain ⟨level, ht, hs⟩ := h.counters
    exact ⟨.nil, rfl, congrArg (fun signals : Signals => signals.cancel token) h.signals,
      level, ht, hs⟩

theorem inStep_runAll : ∀ {turns : List Turn}, (∀ turn ∈ turns, turn.IsPlain) →
    ∀ {s t : Session}, InStep s t →
      List.Forall₂ Allocation.StandsFor (Turn.runAll .database turns s).1
          (Turn.runAll .memory turns t).1 ∧
        (Turn.runAll .database turns s).1.map Allocation.call = turns.filterMap Turn.call? := by
  intro turns
  induction turns with
  | nil => exact fun _ _ _ _ => ⟨.nil, rfl⟩
  | cons turn rest ih =>
    intro hplain s t h
    obtain ⟨hfirst, hcall, hafter⟩ := inStep_run h (hplain turn List.mem_cons_self)
    obtain ⟨hmore, hcalls⟩ := ih (fun turn h => hplain turn (List.mem_cons_of_mem _ h)) hafter
    rw [Turn.runAll_cons, Turn.runAll_cons]
    refine ⟨List.rel_append hfirst hmore, ?_⟩
    rw [List.map_append, hcall, hcalls]
    cases turn <;> rfl

/-- **The sources agree call by call.**  In every run of plain turns from an empty table of
counters and from a fresh memory, every call is answered in both, and the answers are the
same identifiers or failures with the same code, except that the database tells a caller who
canceled that the size of a batch is wrong where the memory says that the call was canceled. -/
theorem sources_agree (hs : IdSource.database.Unused s) (ht : IdSource.memory.Unused t)
    (hsignals : s.signals = t.signals) (turns : List Turn)
    (hplain : ∀ turn ∈ turns, turn.IsPlain) :
    List.Forall₂ Allocation.StandsFor (Turn.runAll .database turns s).1
        (Turn.runAll .memory turns t).1 ∧
      (Turn.runAll .database turns s).1.map Allocation.call = turns.filterMap Turn.call? :=
  inStep_runAll hplain (inStep_of_unused hs ht hsignals)

end Runs

/-! ### A run -/

/-- Calls of two kinds and of wrong sizes, before and after their caller cancels. -/
def canceledRun : List Turn :=
  [.alone ⟨steadyCaller, "host", 2⟩, .alone ⟨steadyCaller, "disk", 1⟩,
    .alone ⟨steadyCaller, "host", 1001⟩, .cancel steadyCaller.token,
    .alone ⟨steadyCaller, "host", 1⟩, .alone ⟨steadyCaller, "disk", 0⟩]

theorem canceledRun_agrees :
    IdSource.database.Unused freshCounters ∧ IdSource.memory.Unused {} ∧
    (∀ turn ∈ canceledRun, turn.IsPlain) ∧
    List.Forall₂ Allocation.StandsFor (Turn.runAll .database canceledRun freshCounters).1
      (Turn.runAll .memory canceledRun {}).1 ∧
    (Turn.runAll .database canceledRun freshCounters).1.map Allocation.call =
      canceledRun.filterMap Turn.call? := by
  have hs : IdSource.database.Unused freshCounters := by decide +kernel
  have ht : IdSource.memory.Unused {} := by decide
  have hplain : ∀ turn ∈ canceledRun, turn.IsPlain := by decide
  exact ⟨hs, ht, hplain, sources_agree hs ht rfl canceledRun hplain⟩

/-- A caller who canceled and asks for no identifiers is told different things. -/
theorem canceledRun_differs :
    (IdSource.database.Unused freshCounters ∧ IdSource.memory.Unused {}) ∧
    ((Turn.runAll .database canceledRun freshCounters).1.map
        fun a => a.result.mapError Failure.code) =
      [.ok ["00000001", "00000002"], .ok ["00000001"], .error "invalid_parameter",
        .error "canceled", .error "invalid_parameter"] ∧
    ((Turn.runAll .memory canceledRun {}).1.map fun a => a.result.mapError Failure.code) =
      [.ok ["00000001", "00000002"], .ok ["00000001"], .error "invalid_parameter",
        .error "canceled", .error "canceled"] := by
  decide +kernel

end ResourceTable
