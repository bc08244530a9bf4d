import Mathlib.Data.List.Forall2

/-!
# Traversals that can fail

What can fail is done for the members of a list one after another.  It gives a member for each
member, or stops at the first one for which it fails, with that one's error.

## Main results

* `bind_eq_error_iff` — one step after another fails if the first does, or else the second.
* `mapM_eq_ok_iff` — a traversal succeeds if every step does.
* `mapM_eq_error_iff` — otherwise the first step that fails decides.
-/

namespace ResourceTable

variable {ε α β : Type} {f : α → Except ε β} {e : ε}

/-- Of two steps the second is done after the first succeeds. -/
theorem bind_eq_error_iff {x : Except ε α} :
    (x >>= f) = .error e ↔ x = .error e ∨ ∃ a, x = .ok a ∧ f a = .error e := by
  cases x with
  | error e' =>
    refine ⟨fun h => .inl (congrArg Except.error (Except.error.inj h)), ?_⟩
    rintro (h | ⟨a, ha, -⟩)
    · exact congrArg Except.error (Except.error.inj h)
    · cases ha
  | ok a =>
    refine ⟨fun h => .inr ⟨a, rfl, h⟩, ?_⟩
    rintro (h | ⟨b, ⟨rfl⟩, h⟩)
    · cases h
    · exact h

/-- A traversal succeeds if every step does, and gives their results in order. -/
theorem mapM_eq_ok_iff : ∀ {l : List α} {bs : List β},
    l.mapM f = .ok bs ↔ List.Forall₂ (fun a b => f a = .ok b) l bs := by
  intro l
  induction l with
  | nil =>
    intro bs
    rw [List.forall₂_nil_left_iff]
    exact ⟨fun h => (Except.ok.inj h).symm, fun h => h ▸ rfl⟩
  | cons a rest ih =>
    intro bs
    rw [List.mapM_cons, List.forall₂_cons_left_iff]
    cases ha : f a with
    | error e => exact iff_of_false (fun h => nomatch h) fun ⟨_, _, hb, _⟩ => nomatch hb
    | ok b =>
      cases hrest : rest.mapM f with
      | error e =>
        refine iff_of_false (fun h => nomatch h) fun ⟨_, more, _, hmore, _⟩ => ?_
        rw [ih.2 hmore] at hrest
        cases hrest
      | ok more =>
        show Except.ok (b :: more) = .ok bs ↔ _
        constructor
        · intro h
          exact ⟨b, more, rfl, ih.1 hrest, (Except.ok.inj h).symm⟩
        · rintro ⟨_, other, ⟨rfl⟩, hother, rfl⟩
          rw [ih.2 hother] at hrest
          cases hrest
          rfl

theorem exists_mapM_iff {l : List α} : (∃ bs, l.mapM f = .ok bs) ↔ ∀ a ∈ l, ∃ b, f a = .ok b := by
  simp only [mapM_eq_ok_iff]
  induction l with
  | nil => exact iff_of_true ⟨[], .nil⟩ (List.forall_mem_nil _)
  | cons a rest ih =>
    rw [List.forall_mem_cons, ← ih]
    constructor
    · rintro ⟨_, _ | ⟨hb, hrest⟩⟩
      exact ⟨⟨_, hb⟩, _, hrest⟩
    · rintro ⟨⟨b, hb⟩, more, hrest⟩
      exact ⟨b :: more, .cons hb hrest⟩

/-- Otherwise the first step that fails decides the error. -/
theorem mapM_eq_error_iff : ∀ {l : List α}, l.mapM f = .error e ↔
    ∃ before a after, l = before ++ a :: after ∧ (∀ b ∈ before, ∃ c, f b = .ok c) ∧
      f a = .error e := by
  intro l
  induction l with
  | nil =>
    refine iff_of_false (fun h => nomatch h) ?_
    rintro ⟨before, a, after, h, -⟩
    exact absurd h.symm (List.append_ne_nil_of_right_ne_nil _ (List.cons_ne_nil _ _))
  | cons x rest ih =>
    rw [List.mapM_cons, bind_eq_error_iff]
    constructor
    · rintro (hx | ⟨c, hc, h⟩)
      · exact ⟨[], x, rest, rfl, List.forall_mem_nil _, hx⟩
      · rcases bind_eq_error_iff.1 h with hrest | ⟨more, -, h⟩
        · obtain ⟨before, a, after, rfl, hbefore, ha⟩ := ih.1 hrest
          exact ⟨x :: before, a, after, rfl, List.forall_mem_cons.2 ⟨⟨c, hc⟩, hbefore⟩, ha⟩
        · cases h
    · rintro ⟨_ | ⟨y, before⟩, a, after, h, hbefore, ha⟩
      · obtain ⟨rfl, -⟩ := List.cons.inj h
        exact .inl ha
      · obtain ⟨rfl, hrest⟩ := List.cons.inj h
        obtain ⟨⟨c, hc⟩, hbefore⟩ := List.forall_mem_cons.1 hbefore
        have hmore : rest.mapM f = .error e := ih.2 ⟨before, a, after, hrest, hbefore, ha⟩
        exact .inr ⟨c, hc, bind_eq_error_iff.2 (.inl hmore)⟩

end ResourceTable
