import ResourceTable.Proofs.CellOrder
import ResourceTable.Proofs.RowFrame

/-!
# What a query sees of other rows

A plan visits the rows of a table in an order that every two of them settle between
themselves, so that leaving some rows out leaves the visits of the others in order.  If
only rows of one kind are found, the plan finds the same without the others.

## Main definitions

* `StoredTable.restrict`: a table with only some of its rows.
* `Plan.Sifts`: visits from which rows can be left out.

## Main results

* `visits_restrict` — a plan visits the rows that are left in the same order.
* `gather_filter` — leaving out rows that are not found changes nothing.
* `gather_take` — what is found first does not depend on how much is asked for.
* `found_restrict` — **a plan finds the same in a table without the other rows.**
-/

namespace ResourceTable.Sql

/-- A table with only some of its rows. -/
def StoredTable.restrict (t : StoredTable) (p : StoredRow → Bool) : StoredTable :=
  { t with rows := t.rows.filter p }

namespace Plan

variable {t : StoredTable}

/-! ### Visits -/

/-- Rows that are left out leave the others in order. -/
theorem arranged_restrict (t : StoredTable) (keep : StoredRow → Bool) (byKey : Bool) :
    (t.arranged byKey).filter keep = (t.restrict keep).arranged byKey := by
  unfold StoredTable.arranged
  cases byKey with
  | false => rfl
  | true =>
    cases hkey : t.definition.keyRef? with
    | none =>
      rw [StoredTable.restrict, hkey]
    | some key =>
      rw [StoredTable.restrict, hkey]
      exact filter_mergeSort
        (fun a b c => Cell.order_ne_gt_trans (a.value key) (b.value key) (c.value key))
        (fun a b => Cell.order_ne_gt_total (a.value key) (b.value key)) keep t.rows

/-- A pass visits the rows that are left in the same order. -/
theorem visited_restrict (t : StoredTable) (keep : StoredRow → Bool) (p : Pass) :
    (visited t p).filter keep = visited (t.restrict keep) p := by
  rw [StoredTable.visited_eq, StoredTable.visited_eq, ← arranged_restrict]
  split
  · exact List.filter_reverse
  · rfl

/-- A plan visits the rows that are left in the same order. -/
theorem visits_restrict (t : StoredTable) (keep : StoredRow → Bool) (plan : Plan) :
    (plan.visits t).filter (fun v => keep v.row) = plan.visits (t.restrict keep) := by
  unfold visits
  rw [List.filter_flatMap]
  refine List.flatMap_congr fun p _ => ?_
  rw [List.filter_map, ← visited_restrict]
  rfl

/-! ### What is found -/

section Gather

variable {scope : StoredRow → Scope}

/-- What is found first does not depend on how much is asked for. -/
theorem gather_take : ∀ {l : List Visit} {met : List Int} {rows : List StoredRow} (n : Nat),
    gather scope none met l = .ok rows → gather scope (some n) met l = .ok (rows.take n) := by
  intro l
  induction l with
  | nil =>
    intro met rows n h
    rw [gather_nil] at h ⊢
    rw [← Except.ok.inj h, List.take_nil]
  | cons v rest ih =>
    intro met rows n h
    cases n with
    | zero => rw [gather_zero, List.take_zero]
    | succ n =>
      have hnone : (none : Option Nat) ≠ some 0 := nofun
      have hmore : some (n + 1) ≠ some 0 := by simp
      rw [gather_cons hnone] at h
      rw [gather_cons hmore]
      obtain ⟨x, hx, h⟩ := Test.bind_eq_ok h
      rw [hx, Test.ok_bind]
      cases x with
      | skipped => exact ih (n + 1) h
      | away => exact ih (n + 1) h
      | found =>
        obtain ⟨more, hmore, h⟩ := Test.bind_eq_ok h
        obtain rfl := Except.ok.inj h
        have hfirst : gather scope ((some (n + 1)).map (· - 1)) (v.row.number :: met) rest =
            .ok (more.take n) := ih n hmore
        dsimp only
        rw [hfirst, List.take_succ_cons]
        rfl

/-- Which rows were met before is told by their numbers. -/
theorem fate_congr {s : Scope} {met seen : List Int} {v : Visit}
    (h : v.row.number ∈ met ↔ v.row.number ∈ seen) : fate s met v = fate s seen v := by
  have hcontains : met.contains v.row.number = seen.contains v.row.number := by
    rw [Bool.eq_iff_iff, List.contains_iff_mem, List.contains_iff_mem, h]
  rw [fate, fate, hcontains]

/-- Visits from which rows can be left out: those are told from the rows that are kept by
their numbers, and of the rows that are kept the same were met before. -/
structure Sifts (keep : StoredRow → Bool) (met seen : List Int) (l : List Visit) : Prop where
  /-- No row that is left out has the number of one that is kept. -/
  apart : ∀ u ∈ l, ∀ v ∈ l, keep u.row = true → keep v.row = false → u.row.number ≠ v.row.number
  /-- The rows that are kept were met in both runs or in none. -/
  same : ∀ u ∈ l, keep u.row = true → (u.row.number ∈ met ↔ u.row.number ∈ seen)

namespace Sifts

variable {keep : StoredRow → Bool} {met seen : List Int} {v : Visit} {rest : List Visit}

theorem tail (h : Sifts keep met seen (v :: rest)) : Sifts keep met seen rest :=
  ⟨fun u hu w hw => h.apart u (List.mem_cons_of_mem v hu) w (List.mem_cons_of_mem v hw),
    fun u hu => h.same u (List.mem_cons_of_mem v hu)⟩

/-- A row that is kept is met in both runs. -/
theorem meet (h : Sifts keep met seen (v :: rest)) :
    Sifts keep (v.row.number :: met) (v.row.number :: seen) rest := by
  refine ⟨h.tail.apart, fun u hu hku => ?_⟩
  rw [List.mem_cons, List.mem_cons, h.tail.same u hu hku]

/-- A row that is left out is none of those that are kept. -/
theorem leave (h : Sifts keep met seen (v :: rest)) (hv : keep v.row = false) :
    Sifts keep (v.row.number :: met) seen rest := by
  refine ⟨h.tail.apart, fun u hu hku => ?_⟩
  have hother := h.apart u (List.mem_cons_of_mem v hu) v List.mem_cons_self hku hv
  rw [List.mem_cons, or_iff_right hother, h.tail.same u hu hku]

end Sifts

/-- **Leaving out rows that are not found changes nothing**, if they are told from the
others by their numbers. -/
theorem gather_filter {keep : StoredRow → Bool} : ∀ {l : List Visit} {met seen : List Int}
    {rows : List StoredRow}, Sifts keep met seen l →
      gather scope none met l = .ok rows → (∀ r ∈ rows, keep r = true) →
        gather scope none seen (l.filter fun v => keep v.row) = .ok rows := by
  intro l
  induction l with
  | nil =>
    intro met seen rows _ h _
    rw [gather_nil] at h
    rw [List.filter_nil, gather_nil, h]
  | cons v rest ih =>
    intro met seen rows hsifts h hrows
    have hnone : (none : Option Nat) ≠ some 0 := nofun
    rw [gather_cons hnone] at h
    obtain ⟨x, hx, h⟩ := Test.bind_eq_ok h
    cases hv : keep v.row with
    | true =>
      -- The visit stays, and comes to the same.
      have hfate := fate_congr (s := scope v.row) (hsifts.same v List.mem_cons_self hv)
      have hfilter : (v :: rest).filter (fun v => keep v.row) =
          v :: rest.filter fun v => keep v.row := List.filter_cons_of_pos hv
      rw [hfilter, gather_cons hnone, ← hfate, hx, Test.ok_bind]
      cases x with
      | skipped => exact ih hsifts.tail h hrows
      | away => exact ih hsifts.meet h hrows
      | found =>
        obtain ⟨more, hmore, h⟩ := Test.bind_eq_ok h
        obtain rfl := Except.ok.inj h
        have hfirst := ih hsifts.meet hmore (List.forall_mem_cons.1 hrows).2
        dsimp only
        rw [Option.map_none, hfirst]
        rfl
    | false =>
      -- The visit is left out; it found no row, since all that are found are kept.
      have hne : keep v.row ≠ true := by
        rw [hv]
        exact Bool.false_ne_true
      have hfilter : (v :: rest).filter (fun v => keep v.row) =
          rest.filter fun v => keep v.row := List.filter_cons_of_neg hne
      rw [hfilter]
      cases x with
      | skipped => exact ih hsifts.tail h hrows
      | away => exact ih (hsifts.leave hv) h hrows
      | found =>
        obtain ⟨more, -, h⟩ := Test.bind_eq_ok h
        obtain rfl := Except.ok.inj h
        exact absurd (hrows v.row List.mem_cons_self) hne

end Gather

/-- **A plan finds the same in a table without the other rows**, as much of it as is asked
for. -/
theorem found_restrict (keep : StoredRow → Bool) (hnumbered : t.Numbered) {plan : Plan}
    {now : Timestamp} {rows : List StoredRow} (h : plan.found t now none = .ok rows)
    (hkeep : ∀ r ∈ rows, keep r = true) (most : Option Nat) :
    plan.found t now most = plan.found (t.restrict keep) now most := by
  unfold found at h ⊢
  obtain ⟨b, hb, h⟩ := Test.bind_eq_ok h
  rw [hb, Test.ok_bind, Test.ok_bind]
  cases b with
  | false => rfl
  | true =>
    rw [if_pos rfl] at h
    have hapart : ∀ u ∈ plan.visits t, ∀ v ∈ plan.visits t, keep u.row = true →
        keep v.row = false → u.row.number ≠ v.row.number := by
      intro u hu v hv hku hkv he
      have hsame := hnumbered u.row (StoredTable.row_mem_of_mem_visits hu) v.row
        (StoredTable.row_mem_of_mem_visits hv) he
      rw [hsame, hkv] at hku
      cases hku
    have hsifts : Sifts keep [] [] (plan.visits t) := ⟨hapart, fun _ _ _ => Iff.rfl⟩
    have hleft := gather_filter hsifts h hkeep
    rw [visits_restrict] at hleft
    rw [if_pos rfl, if_pos rfl]
    show gather _ _ _ _ = gather (t.definition.scope now) _ _ _
    cases most with
    | none => rw [h, hleft]
    | some n => rw [gather_take n h, gather_take n hleft]

end Plan

end ResourceTable.Sql
