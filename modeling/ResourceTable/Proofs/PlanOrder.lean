import ResourceTable.Proofs.CrownScope
import ResourceTable.Proofs.RowChanges

/-!
# Plans that give rows in order

A plan may say that the rows come in the order asked for.  It is right to: either all rows
that are found have one value in the column, or at most one row is found, or the rows are
visited along the column.

## Main definitions

* `StoredTable.SetApart`: rows with a value in a column have different ones.
* `StoredTable.Indexed`: the rows are told apart by their numbers and by the keys they have.
* `StoredTable.Distinguishes`: no two rows have the same value in a column.
* `StoredTable.Keyed`: the rows are told apart by their numbers and by their keys.
* `StoredRow.Before`: one row comes before another in the order of a column.

## Main results

* `SetApart.eq_of_passes` — at most one row passes an equation on such a column.
* `sorted_visited` — a pass along a column visits the rows in its order.
* `sorted_of_ordered` — **a plan that says so gives the rows in the order of the column.**
-/

namespace ResourceTable.Sql

/-! ### Keys -/

/-- The column of the primary key. -/
def TableDef.primary? (t : TableDef) : Option ColumnRef :=
  match t.key with
  | .none => none
  | .column column => some (.named column)
  | .rowNumber _ => some .number

/-- One row comes before another in the order of a column. -/
def StoredRow.Before (column : ColumnRef) (descending : Bool) (r s : StoredRow) : Prop :=
  (r.value column).order (s.value column) = if descending then .gt else .lt

namespace StoredTable

variable {t : StoredTable} {now : Timestamp} {column : ColumnRef}

/-- Rows with a value in a column have different ones, and the values are as the column stores
them. -/
structure SetApart (t : StoredTable) (column : ColumnRef) : Prop where
  stored : ∀ r ∈ t.rows, (t.definition.affinity column).adapt (r.value column) = r.value column
  apart : t.rows.Pairwise fun r s => (r.value column).order (s.value column) = .eq →
    (r.value column).isNull = true ∧ (s.value column).isNull = true

/-- The rows of a table come in the order of their numbers, and are told apart by these and
by the keys that they have. -/
structure Indexed (t : StoredTable) : Prop where
  ordered : t.Ordered
  numbers : ∀ r ∈ t.rows, IntType.i64.Holds r.number
  key : ∀ column, t.definition.keyRef? = some column → t.SetApart column

/-- No two rows have the same value in a column, and the values are as the column stores
them. -/
structure Distinguishes (t : StoredTable) (column : ColumnRef) : Prop where
  stored : ∀ r ∈ t.rows, (t.definition.affinity column).adapt (r.value column) = r.value column
  apart : t.rows.Pairwise fun r s => (r.value column).order (s.value column) ≠ .eq

/-- The rows of a table come in the order of their numbers, and are told apart by these
and by their keys. -/
structure Keyed (t : StoredTable) : Prop where
  ordered : t.Ordered
  numbers : ∀ r ∈ t.rows, IntType.i64.Holds r.number
  key : ∀ column, t.definition.keyRef? = some column → t.Distinguishes column

theorem symm_order_ne (column : ColumnRef) :
    Std.Symm fun r s : StoredRow => (r.value column).order (s.value column) ≠ .eq := by
  have horder := Cell.transCmp_order
  exact ⟨fun r s h he => h (Std.OrientedCmp.eq_symm he)⟩

theorem Distinguishes.eq_of_order_eq (h : t.Distinguishes column) {r s : StoredRow}
    (hr : r ∈ t.rows) (hs : s ∈ t.rows) (he : (r.value column).order (s.value column) = .eq) :
    r = s := by
  have hsymm := symm_order_ne column
  by_contra hne
  exact h.apart.forall hr hs hne he

theorem Distinguishes.setApart (h : t.Distinguishes column) : t.SetApart column :=
  ⟨h.stored, h.apart.imp fun hne he => absurd he hne⟩

theorem Keyed.indexed (h : t.Keyed) : t.Indexed :=
  ⟨h.ordered, h.numbers, fun column hcolumn => (h.key column hcolumn).setApart⟩

theorem SetApart.eq_of_order_eq (h : t.SetApart column) {r s : StoredRow} (hr : r ∈ t.rows)
    (hs : s ∈ t.rows) (he : (r.value column).order (s.value column) = .eq)
    (hnull : (r.value column).isNull = false) : r = s := by
  have horder := Cell.transCmp_order
  have hsymm : Std.Symm fun r s : StoredRow => (r.value column).order (s.value column) = .eq →
      (r.value column).isNull = true ∧ (s.value column).isNull = true :=
    ⟨fun r s h he => (h (Std.OrientedCmp.eq_symm he)).symm⟩
  by_contra hne
  rw [(h.apart.forall hr hs hne he).1] at hnull
  cases hnull

theorem Indexed.value_number (h : t.Indexed) {r : StoredRow} (hr : r ∈ t.rows) :
    r.value .number = .integer ⟨r.number, h.numbers r hr⟩ := by
  have hofInt : FixedInt.ofInt? .i64 r.number = some ⟨r.number, h.numbers r hr⟩ :=
    FixedInt.ofInt?_eq_some_iff.2 rfl
  rw [StoredRow.value, Cell.ofInt, hofInt]

/-- The rows are in the order of their numbers, also by the values of these. -/
theorem Indexed.pairwise_number (h : t.Indexed) :
    t.rows.Pairwise (StoredRow.Before .number false) := by
  refine h.ordered.imp_of_mem fun {r s} hr hs hlt => ?_
  rw [StoredRow.Before, h.value_number hr, h.value_number hs]
  exact compare_lt_iff_lt.2 hlt

/-- Rows are told apart by their numbers. -/
theorem Indexed.distinguishes_number (h : t.Indexed) : t.Distinguishes .number := by
  refine ⟨fun r hr => ?_, h.pairwise_number.imp fun {r s} hlt => ?_⟩
  · rw [h.value_number hr]
    rfl
  · have hbefore : (r.value .number).order (s.value .number) = .lt := hlt
    rw [hbefore]
    exact nofun

theorem Keyed.distinguishes (h : t.Keyed) (hcolumn : t.definition.primary? = some column) :
    t.Distinguishes column := by
  unfold TableDef.primary? at hcolumn
  split at hcolumn
  · cases hcolumn
  · next name hkey =>
    cases hcolumn
    exact h.key _ (by rw [TableDef.keyRef?, hkey])
  · cases hcolumn
    exact h.indexed.distinguishes_number

end StoredTable

namespace SelectStatement

/-- A greatest value that comes first is one that others do not exceed. -/
theorem precedes_true (a b : Cell) : precedes true a b = precedes false b a := by
  show (a.order b != .lt) = (b.order a != .gt)
  rw [Cell.order_swap]
  cases b.order a <;> rfl

theorem precedes_of_eq {descending : Bool} {a b : Cell} (h : a.order b = .eq) :
    precedes descending a b = true := by
  cases descending
  · show (a.order b != .gt) = true
    rw [h]
    rfl
  · show (a.order b != .lt) = true
    rw [h]
    rfl

/-- Rows that are sorted by a column are in its order. -/
theorem sorted_mergeSort (descending : Bool) (column : ColumnRef) (rows : List StoredRow) :
    (rows.mergeSort fun r s => precedes descending (r.value column) (s.value column)).Pairwise
      fun r s => precedes descending (r.value column) (s.value column) := by
  refine List.pairwise_mergeSort (fun q r s hqr hrs => ?_) (fun r s => ?_) rows
  · cases descending with
    | true =>
      rw [precedes_true] at hqr hrs ⊢
      exact Cell.order_ne_gt_trans _ _ _ hrs hqr
    | false => exact Cell.order_ne_gt_trans _ _ _ hqr hrs
  · cases descending with
    | true =>
      rw [precedes_true, precedes_true]
      exact Cell.order_ne_gt_total (s.value column) (r.value column)
    | false => exact Cell.order_ne_gt_total (r.value column) (s.value column)

end SelectStatement

/-! ### Equations -/

section Equations

variable {t : StoredTable} {now : Timestamp} {column : ColumnRef}

/-- An equation compares a column with a value. -/
theorem Test.exists_of_handle_one {d : TableDef} {test : Test}
    (h : test.handle? d = some ⟨column, .one⟩) : ∃ name offset c,
      test = .compare .equal (.column name offset) (.literal c) ∧ d.resolve name = some column := by
  unfold handle? at h
  split at h
  · next op name offset c =>
    obtain ⟨other, hname, h⟩ := Option.bind_eq_some_iff.1 h
    cases op with
    | equal =>
      cases h
      exact ⟨name, offset, c, rfl, hname⟩
    | _ => cases h
  · split at h
    · obtain ⟨other, -, h⟩ := Option.map_eq_some_iff.1 h
      cases h
    · cases h
  · cases h

theorem Conjunct.exists_of_isEquation {c : Conjunct} (h : c.isEquation = true) :
    ∃ column, c.handle = some ⟨column, .one⟩ := by
  unfold isEquation at h
  cases hc : c.handle with
  | none => rw [hc] at h; cases h
  | some handle =>
    rw [hc] at h
    have hlimit : handle.limit = .one := beq_iff_eq.1 h
    exact ⟨handle.column, by rw [← hlimit]⟩

/-- A part of a condition that limits a column to one value. -/
structure Conjunct.Fixes (d : TableDef) (column : ColumnRef) (c : Conjunct) : Prop where
  equation : c.isEquation = true
  handled : c.handles column = true
  handle : c.handle = c.test.handle? d

theorem Conjunct.Fixes.handle_eq {d : TableDef} {c : Conjunct} (h : c.Fixes d column) :
    c.test.handle? d = some ⟨column, .one⟩ := by
  obtain ⟨other, hother⟩ := exists_of_isEquation h.equation
  have hhandled := h.handled
  rw [Conjunct.handles, hother] at hhandled
  obtain rfl : other = column := beq_iff_eq.1 hhandled
  rw [← h.handle, hother]

/-- All rows that pass an equation on a column have one value in it, and one that is not
null. -/
theorem Conjunct.Fixes.exists_value {c : Conjunct} (hc : c.Fixes t.definition column)
    (now : Timestamp) : ∃ v : Cell, ∀ r : StoredRow,
      (t.definition.affinity column).adapt (r.value column) = r.value column →
      c.test.Passes (t.definition.scope now r) →
        (r.value column).order v = .eq ∧ (r.value column).isNull = false := by
  obtain ⟨name, offset, literal, htest, hname⟩ := Test.exists_of_handle_one hc.handle_eq
  refine ⟨(t.definition.affinity column).adapt literal, fun r hstored hpass => ?_⟩
  rw [htest] at hpass
  have hslot : (t.definition.scope now r).column? name =
      some ⟨t.definition.affinity column, r.value column⟩ := by
    show t.definition.slot? r name = _
    rw [TableDef.slot?, hname]
    rfl
  have hholds : Test.holds (t.definition.scope now r)
      (.compare .equal (.column name offset) (.literal literal)) = .ok true := hpass
  obtain ⟨hnull, -, horder⟩ := (Test.holds_equal_column_iff hslot offset literal).1 hholds
  dsimp only at hnull horder
  rw [hstored] at hnull horder
  exact ⟨horder, hnull⟩

/-- **At most one row passes an equation** on a column whose values are told apart. -/
theorem StoredTable.SetApart.eq_of_passes (h : t.SetApart column) {c : Conjunct}
    (hc : c.Fixes t.definition column) {r s : StoredRow} (hr : r ∈ t.rows) (hs : s ∈ t.rows)
    (hpass : c.test.Passes (t.definition.scope now r))
    (hpass' : c.test.Passes (t.definition.scope now s)) : r = s := by
  obtain ⟨v, hv⟩ := hc.exists_value now
  obtain ⟨heq, hnull⟩ := hv r (h.stored r hr) hpass
  have heq' := (hv s (h.stored s hs) hpass').1
  have horder := Cell.transCmp_order
  exact h.eq_of_order_eq hr hs
    (Std.TransCmp.eq_trans heq (Std.OrientedCmp.eq_symm heq')) hnull

end Equations

/-! ### Routes -/

section Routes

variable {d : TableDef} {w : Wish} {own : List Conjunct} {column : ColumnRef}

/-- A part of a condition says of a column what its test says. -/
theorem Conjunct.handle_of_mem_all {path : List Nat} {tests : List Test} {c : Conjunct}
    (h : c ∈ all d path tests) : c.handle = c.test.handle? d := by
  rcases mem_all h with ⟨i, test, -, rfl⟩ | ⟨i, test, list, -, -, rfl⟩ <;> rfl

/-- An equation is a part of a condition as it is written. -/
theorem Conjunct.test_mem_of_isEquation {tests : List Test} {c : Conjunct}
    (h : c ∈ all d [] tests) (hequation : c.isEquation = true) : c.test ∈ tests := by
  rcases mem_all h with ⟨i, test, htest, rfl⟩ | ⟨i, test, list, -, hlist, rfl⟩
  · exact List.mem_of_getElem? htest
  · -- What was made of a choice between values is a list, which is no equation.
    exfalso
    obtain ⟨column, hhandle⟩ := exists_of_isEquation hequation
    obtain ⟨name, offset, literal, rfl, -⟩ := Test.exists_of_handle_one hhandle
    obtain ⟨equations, -, hlist⟩ := Option.bind_eq_some_iff.1 hlist
    split at hlist
    · cases hlist
    · cases hlist
    · split at hlist <;> cases hlist

/-- The parts that limit what a route looks at are parts of the condition that limit the
number of the rows or their key. -/
def Route.DrivenBy (d : TableDef) (own : List Conjunct) (r : Route) : Prop :=
  ∀ c ∈ r.drivers, c ∈ own ∧
    (c.handles .number = true ∨ ∃ key, d.keyRef? = some key ∧ c.handles key = true)

theorem Route.drivenBy_of_nil {r : Route} (h : r.drivers = []) : r.DrivenBy d own := by
  intro c hc
  rw [h] at hc
  cases hc

theorem Route.drivenBy_searches {byKey : Bool} :
    ∀ r ∈ searches d w own [] byKey, r.DrivenBy d own := by
  have husable {c : Conjunct} (hc : c ∈ (own ++ []).filter fun c : Conjunct =>
      (if byKey then d.keyRef? else some .number).any c.handles) : c ∈ own ∧
      (c.handles .number = true ∨ ∃ key, d.keyRef? = some key ∧ c.handles key = true) := by
    obtain ⟨hmem, hhandles⟩ := List.mem_filter.1 hc
    rw [List.append_nil] at hmem
    refine ⟨hmem, ?_⟩
    cases byKey with
    | false => exact .inl hhandles
    | true =>
      cases hkey : d.keyRef? with
      | none => rw [hkey] at hhandles; cases hhandles
      | some key =>
        rw [hkey] at hhandles
        exact .inr ⟨key, rfl, hhandles⟩
  have hsingle {c : Conjunct} (hc : c ∈ (own ++ []).filter fun c : Conjunct =>
      (if byKey then d.keyRef? else some .number).any c.handles) (rows places : Estimate) :
      (search d w own byKey [c] rows places).DrivenBy d own := by
    intro e he
    obtain rfl := List.mem_singleton.1 he
    exact husable hc
  intro r hr
  obtain ⟨c, hc, hr⟩ := List.mem_flatMap.1 hr
  split at hr
  · exact List.mem_singleton.1 hr ▸ hsingle hc _ _
  · exact List.mem_singleton.1 hr ▸ hsingle hc _ _
  · exact List.mem_singleton.1 hr ▸ hsingle hc _ _
  · rcases List.mem_cons.1 hr with rfl | hr
    · exact hsingle hc _ _
    · obtain ⟨e, he, rfl⟩ := List.mem_map.1 hr
      intro g hg
      rcases List.mem_cons.1 hg with rfl | hg
      · exact husable hc
      · obtain rfl := List.mem_singleton.1 hg
        exact husable (List.mem_of_mem_filter he)
  · cases hr

theorem Route.drivenBy_all {fuel : Nat} : ∀ r ∈ all d w fuel own, r.DrivenBy d own := by
  refine forall_all (fun _ _ _ h => h) (fun byKey r h => ?_) (fun _ => drivenBy_searches)
    fun r h => ?_
  · unfold scan at h
    dsimp only at h
    rw [Option.ite_none_left_eq_some] at h
    exact drivenBy_of_nil (by rw [← Option.some.inj h.2]; rfl)
  · cases fuel with
    | zero => cases h
    | succ fuel =>
      obtain ⟨c, -, hr⟩ := List.mem_filterMap.1 h
      obtain ⟨costs, -, hr⟩ := Option.bind_eq_some_iff.1 hr
      obtain ⟨first, -, hr⟩ := Option.bind_eq_some_iff.1 hr
      exact drivenBy_of_nil (by rw [← Option.some.inj hr])

/-- What gives rows in the order of a column. -/
inductive Route.Orders (d : TableDef) (own : List Conjunct) (column : ColumnRef)
    (descending : Bool) (taken : Taken) : Prop
  /-- At most one row is reached, because a part of the condition is an equation. -/
  | single (c : Conjunct) (hc : c ∈ own) (hequation : c.isEquation = true)
    (hhandles : c.handles column = true ∨ c.handles .number = true ∨
      ∃ key, d.keyRef? = some key ∧ c.handles key = true)
  /-- The rows are visited along the column. -/
  | along (hchoice : taken.route.choice = none) (hend : taken.fromEnd = descending)
    (hcolumn : (if taken.route.byKey then d.keyRef? else some .number) = some column)

/-- **A route that says so gives the rows in the order of a column.** -/
theorem Route.orders_choose {fuel : Nat} {o : Wish.Order} (ho : w.order = some o)
    (hkey : o.key = .column column) (h : (choose d w fuel own).ordered = true) :
    Orders d own column o.descending (choose d w fuel own) := by
  unfold choose at h ⊢
  split at h
  · next r hr =>
    -- The condition names a single row.
    have hfound {c : Conjunct} {other : ColumnRef}
        (hc : own.find? (fun c => c.isEquation && c.handles other) = some c) :
        c ∈ own ∧ c.isEquation = true ∧ c.handles other = true :=
      ⟨List.mem_of_find?_eq_some hc, by simpa using List.find?_some hc⟩
    unfold single? at hr
    dsimp only at hr
    split at hr
    · next hc =>
      obtain ⟨hmem, hequation, hhandles⟩ := hfound hc
      exact .single _ hmem hequation (.inr (.inl hhandles))
    · next hc =>
      obtain ⟨key, hkeyRef, hc⟩ := Option.bind_eq_some_iff.1 hc
      obtain ⟨hmem, hequation, hhandles⟩ := hfound hc
      exact .single _ hmem hequation (.inr (.inr ⟨key, hkeyRef, hhandles⟩))
    · cases hr
  · next hnone =>
    cases hcheapest : cheapest d w own (all d w fuel own) with
    | none => rw [hcheapest] at h; cases h
    | some taken =>
      rw [hcheapest] at h
      dsimp only [Option.getD_some] at h ⊢
      have hdriven : taken.route.DrivenBy d own := drivenBy_all _ (mem_of_cheapest hcheapest)
      -- The route that is best with regard to the order says that it gives it.
      have hinOrder : taken.route.inOrder d own o = (true, taken.fromEnd) := by
        unfold cheapest at hcheapest
        obtain ⟨first, -, hbest⟩ := Option.bind_eq_some_iff.1 hcheapest
        rw [ho] at hbest
        exact (inOrder_of_best hbest).2 o _ rfl h
      unfold inOrder at hinOrder
      rw [hkey] at hinOrder
      dsimp only at hinOrder
      split at hinOrder
      · next hequation =>
        obtain ⟨c, hc, hboth⟩ := List.any_eq_true.1 hequation
        rw [Bool.and_eq_true] at hboth
        exact .single c hc hboth.1 (.inl hboth.2)
      · split at hinOrder
        · next hsingle =>
          obtain ⟨c, hc, hequation⟩ := List.any_eq_true.1 hsingle
          exact .single c (hdriven c hc).1 hequation (.inr (hdriven c hc).2)
        · split at hinOrder
          · cases hinOrder
          · next hchoice =>
            by_cases hcolumn :
                (if taken.route.byKey then d.keyRef? else some .number) = some column
            · rw [if_pos hcolumn] at hinOrder
              refine .along ?_ (Prod.mk.inj hinOrder).2.symm hcolumn
              exact Option.not_isSome_iff_eq_none.1 hchoice
            · rw [if_neg hcolumn] at hinOrder
              cases hinOrder

end Routes

/-! ### Rows in order -/

namespace Plan

variable {t : StoredTable} {now : Timestamp} {column : ColumnRef} {w : Wish}

/-- What is gathered comes in the order of the visits. -/
theorem sublist_gather {scope : StoredRow → Scope} : ∀ {l : List Visit} {met : List Int}
    {rows : List StoredRow}, gather scope none met l = .ok rows →
      rows.Sublist (l.map Visit.row) := by
  intro l
  induction l with
  | nil =>
    intro met rows h
    rw [gather_nil] at h
    rw [← Except.ok.inj h]
    exact List.nil_sublist _
  | cons v rest ih =>
    intro met rows h
    have hnone : (none : Option Nat) ≠ some 0 := nofun
    rw [gather_cons hnone] at h
    obtain ⟨x, -, h⟩ := Test.bind_eq_ok h
    cases x with
    | skipped => exact (ih h).cons v.row
    | away => exact (ih h).cons v.row
    | found =>
      obtain ⟨more, hmore, h⟩ := Test.bind_eq_ok h
      obtain rfl := Except.ok.inj h
      exact (ih hmore).cons_cons v.row

/-- What is found comes in the order of the visits. -/
theorem sublist_found {plan : Plan} {rows : List StoredRow}
    (h : plan.found t now none = .ok rows) : rows.Sublist ((plan.visits t).map Visit.row) := by
  unfold found at h
  obtain ⟨b, -, h⟩ := Test.bind_eq_ok h
  cases b with
  | false =>
    cases h
    exact List.nil_sublist _
  | true => exact sublist_gather h

/-- **A pass along a column visits the rows in its order.** -/
theorem sorted_visited (hindexed : t.Indexed) {p : Pass}
    (hcolumn : (if p.byKey then t.definition.keyRef? else some .number) = some column) :
    (visited t p).Pairwise fun r s =>
      SelectStatement.precedes p.fromEnd (r.value column) (s.value column) := by
  have harranged : (t.arranged p.byKey).Pairwise fun r s =>
      SelectStatement.precedes false (r.value column) (s.value column) := by
    cases hby : p.byKey with
    | true =>
      rw [hby] at hcolumn
      have hkey : t.definition.keyRef? = some column := hcolumn
      unfold StoredTable.arranged
      rw [hkey]
      exact SelectStatement.sorted_mergeSort false column t.rows
    | false =>
      rw [hby] at hcolumn
      obtain rfl : ColumnRef.number = column := Option.some.inj hcolumn
      refine hindexed.pairwise_number.imp fun {r s} hlt => ?_
      have hbefore : (r.value .number).order (s.value .number) = .lt := hlt
      show ((r.value .number).order (s.value .number) != .gt) = true
      rw [hbefore]
      rfl
  rw [StoredTable.visited_eq]
  split
  · next hend =>
    rw [hend, List.pairwise_reverse]
    simpa only [SelectStatement.precedes_true] using harranged
  · next hend =>
    rw [Bool.eq_false_iff.2 hend]
    exact harranged

theorem le_foldl_size (tests : List Test) (n : Nat) :
    n ≤ tests.foldl (fun n test => n + test.size) n := by
  induction tests generalizing n with
  | nil => exact Nat.le_refl n
  | cons test rest ih => exact Nat.le_trans (Nat.le_add_right n test.size) (ih _)

/-- **A plan that says so gives the rows in the order of the column.** -/
theorem sorted_of_ordered (hindexed : t.Indexed)
    (hstored : ∀ r ∈ t.rows,
      (t.definition.affinity column).adapt (r.value column) = r.value column)
    {tests : List Test} {o : Wish.Order} (ho : w.order = some o) (hkey : o.key = .column column)
    (hordered : (ofTests t.definition w tests).ordered = true) {rows : List StoredRow}
    (h : (ofTests t.definition w tests).found t now none = .ok rows) :
    rows.Pairwise fun r s =>
      SelectStatement.precedes o.descending (r.value column) (s.value column) := by
  cases Route.orders_choose ho hkey hordered with
  | single c hc hequation hhandles =>
    have hhandle := Conjunct.handle_of_mem_all hc
    have hpass : ∀ r ∈ rows, r ∈ t.rows ∧ c.test.Passes (t.definition.scope now r) := by
      intro r hr
      obtain ⟨v, hv, rfl, hpass⟩ := exists_visit_of_mem_found h r hr
      exact ⟨StoredTable.row_mem_of_mem_visits hv, passes_of_mem_visits_ofTests hv hpass c.test
        (Conjunct.test_mem_of_isEquation hc hequation)⟩
    -- If the equation tells rows apart, then the rows that are found are one row, or none.
    have hone {other : ColumnRef} (hother : t.SetApart other)
        (hhandled : c.handles other = true) : rows.Pairwise fun r s =>
          SelectStatement.precedes o.descending (r.value column) (s.value column) := by
      have hnodup : rows.Nodup := (nodup_of_found h).of_map
      refine hnodup.imp_of_mem fun {r s} hr hs hne => absurd ?_ hne
      exact hother.eq_of_passes ⟨hequation, hhandled, hhandle⟩ (hpass r hr).1 (hpass s hs).1
        (hpass r hr).2 (hpass s hs).2
    rcases hhandles with hhandled | hhandled | ⟨key, hkeyRef, hhandled⟩
    · -- Otherwise they have one value in the column.
      obtain ⟨v, hv⟩ := Conjunct.Fixes.exists_value ⟨hequation, hhandled, hhandle⟩ now
      have horder := Cell.transCmp_order
      refine List.pairwise_of_forall_mem_list fun r hr s hs => ?_
      have hr := (hv r (hstored r (hpass r hr).1) (hpass r hr).2).1
      have hs := (hv s (hstored s (hpass s hs).1) (hpass s hs).2).1
      exact SelectStatement.precedes_of_eq
        (Std.TransCmp.eq_trans hr (Std.OrientedCmp.eq_symm hs))
    · exact hone hindexed.distinguishes_number.setApart hhandled
    · exact hone (hindexed.key key hkeyRef) hhandled
  | along hchoice hend hcolumn =>
    -- There is one pass, along the column.
    obtain ⟨fuel, hfuel⟩ : ∃ fuel, tests.foldl (fun n test => n + test.size) 1 = fuel + 1 :=
      Nat.exists_eq_succ_of_ne_zero (Nat.ne_of_gt (le_foldl_size tests 1))
    have hpasses : ∃ p : Pass, (ofTests t.definition w tests).passes = [p] ∧
        (if p.byKey then t.definition.keyRef? else some .number) = some column ∧
        p.fromEnd = o.descending := by
      unfold ofTests
      dsimp only
      rw [hfuel] at hchoice hend hcolumn ⊢
      rw [passesOf, hchoice]
      exact ⟨_, rfl, hcolumn, hend⟩
    obtain ⟨p, hp, hby, hend⟩ := hpasses
    have hvisits : ((ofTests t.definition w tests).visits t).map Visit.row = visited t p := by
      rw [visits, hp, List.flatMap_singleton, List.map_map]
      exact List.map_id _
    have hsub := sublist_found h
    rw [hvisits] at hsub
    exact (hend ▸ sorted_visited hindexed hby).sublist hsub

end Plan

end ResourceTable.Sql
