import ResourceTable.Proofs.PlanSoundness

/-!
# What changes of rows leave alone

An `UPDATE` and a `DELETE` change rows one after the other.  A change of one row leaves
every row of another number where it is, so that the rows for which the condition does
not pass are left exactly as they were, whether the rows are changed as they are found or
all at once.

## Main definitions

* `StoredTable.Numbered`: no two rows have the same number.
* `StoredTable.Keeps`: the definition and some rows of a table are still there.

## Main results

* `keeps_changeRow` — one step: a changed row leaves those of other numbers alone.
* `keeps_foldlM` — a run: what every step keeps is kept.
* `keeps_update`, `keeps_delete` — **the rows for which the condition does not pass are
  left as they were.**
-/

namespace ResourceTable.Sql

namespace StoredTable

variable {t u : StoredTable} {now : Timestamp} {kept : StoredRow → Prop}

/-- No two rows have the same number. -/
def Numbered (t : StoredTable) : Prop :=
  ∀ r ∈ t.rows, ∀ s ∈ t.rows, r.number = s.number → r = s

/-- The definition and some rows of a table are still there. -/
structure Keeps (t u : StoredTable) (kept : StoredRow → Prop) : Prop where
  definition : u.definition = t.definition
  rows : ∀ r ∈ t.rows, kept r → r ∈ u.rows

theorem Keeps.refl (t : StoredTable) (kept : StoredRow → Prop) : t.Keeps t kept :=
  ⟨rfl, fun _ hr _ => hr⟩

theorem Keeps.trans {v : StoredTable} (h : t.Keeps u kept) (h' : u.Keeps v kept) :
    t.Keeps v kept :=
  ⟨h'.definition.trans h.definition, fun r hr hk => h'.rows r (h.rows r hr hk) hk⟩

/-! ### One row -/

theorem mem_place {r s : StoredRow} : ∀ {l : List StoredRow}, s ∈ place r l ↔ s = r ∨ s ∈ l := by
  intro l
  induction l with
  | nil => exact List.mem_singleton.trans (by simp)
  | cons q rest ih =>
    rw [place]
    split
    · exact List.mem_cons
    · rw [List.mem_cons, ih, List.mem_cons]
      exact or_left_comm

/-- **A changed row leaves those of other numbers alone.** -/
theorem keeps_changeRow {s : Scope} {assignments : List (String × Term)} {r changed : StoredRow}
    (h : t.changeRow s assignments r = .ok (u, changed)) :
    t.Keeps u fun q => q.number ≠ r.number := by
  unfold changeRow at h
  obtain ⟨a, -, h⟩ := Test.bind_eq_ok h
  obtain ⟨b, -, h⟩ := Test.bind_eq_ok h
  obtain ⟨_, -, h⟩ := Test.bind_eq_ok h
  obtain ⟨_, -, h⟩ := Test.bind_eq_ok h
  cases h
  refine ⟨rfl, fun q hq hne => mem_place.2 (.inr (List.mem_filter.2 ⟨hq, ?_⟩))⟩
  exact bne_iff_ne.2 hne

theorem keeps_changeNext {assignments : List (String × Term)} {n m : Nat} {r : StoredRow}
    (h : changeNext now assignments (t, n) r = .ok (u, m)) :
    t.Keeps u fun q => q.number ≠ r.number := by
  unfold changeNext at h
  obtain ⟨⟨v, changed⟩, hv, h⟩ := Test.bind_eq_ok h
  cases h
  exact keeps_changeRow hv

/-! ### Many rows -/

/-- What every step of a fold keeps is kept. -/
theorem keeps_foldlM {α : Type} {f : StoredTable × Nat → α → Except Fault (StoredTable × Nat)} :
    ∀ {l : List α} {t u : StoredTable} {n m : Nat},
      (∀ a ∈ l, ∀ v w i j, t.Keeps v kept → f (v, i) a = .ok (w, j) → v.Keeps w kept) →
        l.foldlM f (t, n) = .ok (u, m) → t.Keeps u kept := by
  intro l
  induction l with
  | nil =>
    intro t u n m _ h
    cases h
    exact .refl t kept
  | cons a rest ih =>
    intro t u n m hstep h
    obtain ⟨⟨v, i⟩, hv, h⟩ := Test.bind_eq_ok h
    obtain ⟨ha, hrest⟩ := List.forall_mem_cons.1 hstep
    have hfirst := ha t v n i (.refl t kept) hv
    refine hfirst.trans (ih (fun b hb w x j k hw hx => ?_) h)
    exact hrest b hb w x j k (hfirst.trans hw) hx

/-- The rows in the order of their numbers or of the key. -/
def arranged (t : StoredTable) (byKey : Bool) : List StoredRow :=
  match byKey, t.definition.keyRef? with
  | true, some key => t.rows.mergeSort fun r s => (r.value key).order (s.value key) != .gt
  | _, _ => t.rows

theorem visited_eq (t : StoredTable) (p : Pass) : Plan.visited t p =
    if p.fromEnd then (t.arranged p.byKey).reverse else t.arranged p.byKey := rfl

/-- A pass visits every row once. -/
theorem visited_perm (t : StoredTable) (p : Pass) : (Plan.visited t p).Perm t.rows := by
  have hrows : (t.arranged p.byKey).Perm t.rows := by
    unfold arranged
    split
    · exact List.mergeSort_perm _ _
    · exact .refl _
  rw [visited_eq]
  split
  · exact (List.reverse_perm _).trans hrows
  · exact hrows

theorem row_mem_of_mem_visits {plan : Plan} {v : Visit} (h : v ∈ plan.visits t) :
    v.row ∈ t.rows := by
  obtain ⟨p, -, hv⟩ := List.mem_flatMap.1 h
  obtain ⟨r, hr, rfl⟩ := List.mem_map.1 hv
  exact (visited_perm t p).mem_iff.1 hr

theorem mem_of_mem_found {plan : Plan} {most : Option Nat} {rows : List StoredRow}
    (h : plan.found t now most = .ok rows) : ∀ r ∈ rows, r ∈ t.rows := by
  intro r hr
  obtain ⟨v, hv, rfl, -⟩ := Plan.exists_visit_of_mem_found h r hr
  exact row_mem_of_mem_visits hv

/-! ### Updates and deletions -/

section Changes

variable {condition : Test} {n : Nat}

/-- The rows for which the condition does not pass are told from those for which it does
by their numbers. -/
theorem number_ne_of_passes (hnumbered : t.Numbered) {q r : StoredRow} (hq : q ∈ t.rows)
    (hr : r ∈ t.rows) (hnot : ¬ condition.Passes (t.definition.scope now q))
    (hpass : condition.Passes (t.definition.scope now r)) : q.number ≠ r.number := by
  intro he
  rw [hnumbered q hq r hr he] at hnot
  exact hnot hpass

/-- **An update leaves the rows for which the condition does not pass as they were.** -/
theorem keeps_update (hnumbered : t.Numbered) {assignments : List (String × Term)}
    (h : t.update now assignments (some condition) = .ok (u, n)) :
    t.Keeps u fun q => q ∈ t.rows ∧ ¬ condition.Passes (t.definition.scope now q) := by
  -- Changing a row that passes spares those that do not: they have other numbers.
  have hstep : ∀ r ∈ t.rows, condition.Passes (t.definition.scope now r) →
      ∀ v w i j, t.Keeps v (fun q => q ∈ t.rows ∧ ¬ condition.Passes (t.definition.scope now q)) →
        changeNext now assignments (v, i) r = .ok (w, j) →
          v.Keeps w fun q => q ∈ t.rows ∧ ¬ condition.Passes (t.definition.scope now q) := by
    intro r hr hpass v w i j _ hw
    have hkeeps := keeps_changeNext hw
    refine ⟨hkeeps.definition, fun q hq hkept => hkeeps.rows q hq ?_⟩
    exact number_ne_of_passes hnumbered hkept.1 hr hkept.2 hpass
  unfold update at h
  dsimp only at h
  split at h
  · -- The table is changed while it is passed, and each row is tested when it is met.
    obtain ⟨b, -, h⟩ := Test.bind_eq_ok h
    cases b with
    | false => cases h; exact .refl t _
    | true =>
      rw [if_pos rfl] at h
      refine keeps_foldlM (fun v hv w x i j hw hx => ?_) h
      obtain ⟨b, hb, hx⟩ := Test.bind_eq_ok hx
      cases b with
      | false => cases hx; exact .refl w _
      | true =>
        rw [hw.definition] at hb
        have hpass : condition.Passes (t.definition.scope now v.row) :=
          Plan.passes_of_mem_visits rfl hv fun test htest =>
            Test.passes_of_holds (Plan.holds_of_allHold hb test htest)
        exact hstep v.row (row_mem_of_mem_visits hv) hpass w x i j hw hx
  · -- The rows are found first and changed then.
    obtain ⟨rows, hrows, h⟩ := Test.bind_eq_ok h
    refine keeps_foldlM (fun r hr v w i j hv hw => ?_) h
    exact hstep r (mem_of_mem_found hrows r hr) (Plan.passes_of_mem_found rfl hrows r hr)
      v w i j hv hw

/-- **A deletion leaves the rows for which the condition does not pass as they were.** -/
theorem keeps_delete (hnumbered : t.Numbered)
    (h : t.delete now (some condition) = .ok (u, n)) :
    t.Keeps u fun q => q ∈ t.rows ∧ ¬ condition.Passes (t.definition.scope now q) := by
  unfold delete at h
  obtain ⟨rows, hrows, h⟩ := Test.bind_eq_ok h
  cases h
  refine ⟨rfl, fun q hq hkept => List.mem_filter.2 ⟨hq, ?_⟩⟩
  rw [Bool.not_eq_true', ← Bool.not_eq_true, List.contains_iff_mem, List.mem_map]
  rintro ⟨r, hr, he⟩
  exact number_ne_of_passes hnumbered hq (mem_of_mem_found hrows r hr) hkept.2
    (Plan.passes_of_mem_found rfl hrows r hr) he.symm

end Changes

end StoredTable

end ResourceTable.Sql
