import ResourceTable.Proofs.CrownScope
import ResourceTable.Proofs.RowChanges
import ResourceTable.Proofs.SaturatingSum

/-!
# Adding rows

An `INSERT` adds one row, with the values that it gives to columns, and leaves all other
rows as they were.  A row without a number of its own is put behind all others.

## Main definitions

* `StoredTable.Fills`: a row that has the values that an insertion gives.

## Main results

* `lt_freshNumber` — a fresh number is greater than those in use.
* `ordered_adding`, `ordered_replacing` — rows stay in the order of their numbers.
* `steps_of_insert` — **an insertion that succeeds adds its row**, which has no rival.
* `fills_of_newRow` — the row has the values that the insertion gives.
* `ordered_adding_new` — the numbers of the rows stay apart.
-/

namespace ResourceTable.Sql

/-! ### Values in store -/

namespace Cell

theorem isNull_narrowed (c : Cell) : c.narrowed.isNull = c.isNull := by
  cases c with
  | real x =>
    unfold narrowed
    dsimp only
    split
    · next n _ =>
      split
      · next hn =>
        rw [ofInt_of_holds ⟨hn.1.le, hn.2.le⟩]
        rfl
      · rfl
    · rfl
  | _ => rfl

theorem isNull_toCell (t : NumberText) : t.toCell.isNull = false := by
  unfold NumberText.toCell
  split <;> rfl

end Cell

theorem Affinity.isNull_adapt (a : Affinity) (c : Cell) : (a.adapt c).isNull = c.isNull := by
  unfold adapt
  split
  · split
    · split
      · rw [Cell.isNull_narrowed, Cell.isNull_toCell]
        rfl
      · rfl
    · rfl
  · split
    · split
      · rw [Cell.isNull_narrowed, Cell.isNull_toCell]
        rfl
      · rfl
    · rfl
  · split <;> rfl
  · split <;> rfl
  · rfl

/-- A value is not lost where it is stored, and none comes about. -/
theorem Affinity.isNull_store (a : Affinity) (c : Cell) : (a.store c).isNull = c.isNull := by
  have hnarrowed := Cell.isNull_narrowed (a.adapt c)
  rw [isNull_adapt] at hnarrowed
  unfold store
  split
  · next n hn =>
    rw [hn] at hnarrowed
    exact hnarrowed
  · next hn => exact hnarrowed
  · exact isNull_adapt _ c

theorem TableDef.isNull_stored (d : TableDef) (column : String) (c : Cell) :
    (d.stored column c).isNull = c.isNull := by
  unfold stored
  split
  · exact Affinity.isNull_store _ c
  · rfl

theorem TableDef.cell_blankRow (d : TableDef) (n : Int) (column : String) :
    (d.blankRow n).cell column = .null := by
  unfold StoredRow.cell blankRow
  dsimp only
  -- Every name that the row has stands for nothing.
  have hall : ∀ (names : List String) (m : NameMap Cell),
      ((m.get? column).getD .null = .null) →
        ((names.foldl (fun m name => m.insert name .null) m).get? column).getD .null = .null := by
    intro names
    induction names with
    | nil => exact fun m h => h
    | cons name rest ih =>
      intro m h
      refine ih _ ?_
      rw [NameMap.get?_insert]
      split
      · rfl
      · exact h
  rw [NameMap.ofList, List.foldl_map]
  exact hall d.names .empty rfl

namespace StoredTable

variable {t u : StoredTable} {now : Timestamp} {r given : StoredRow} {n : Int}
  {columns : List String} {values : List Term}

/-! ### Numbers -/

/-- **A fresh number is greater than those in use.** -/
theorem lt_freshNumber (h : t.Ordered) : ∀ r ∈ t.rows, r.number < t.freshNumber := by
  intro r hr
  unfold freshNumber
  rcases List.eq_nil_or_concat t.rows with hrows | ⟨front, last, hrows⟩
  · rw [hrows] at hr
    cases hr
  · have hordered : (front ++ [last]).Pairwise fun r s => r.number < s.number := by
      rw [← List.concat_eq_append, ← hrows]
      exact h
    rw [hrows, List.concat_eq_append] at hr ⊢
    rw [List.getLast?_append, List.getLast?_singleton, Option.some_or]
    rcases List.mem_append.1 hr with hr | hr
    · exact ((List.pairwise_append.1 hordered).2.2 r hr last List.mem_cons_self).trans (by simp)
    · obtain rfl := List.mem_singleton.1 hr
      simp

theorem pairwise_place {l : List StoredRow} (h : l.Pairwise fun r s => r.number < s.number)
    (hnew : ∀ s ∈ l, s.number ≠ r.number) :
    (place r l).Pairwise fun r s => r.number < s.number := by
  induction l with
  | nil => exact List.pairwise_singleton _ r
  | cons s rest ih =>
    obtain ⟨hs, hrest⟩ := List.pairwise_cons.1 h
    obtain ⟨hne, hnew⟩ := List.forall_mem_cons.1 hnew
    rw [place]
    split
    · next hlt =>
      refine List.pairwise_cons.2 ⟨List.forall_mem_cons.2 ⟨hlt, fun q hq => ?_⟩, h⟩
      exact hlt.trans (hs q hq)
    · next hnot =>
      refine List.pairwise_cons.2 ⟨fun q hq => ?_, ih hrest hnew⟩
      rcases mem_place.1 hq with rfl | hq
      · exact lt_of_le_of_ne (not_lt.1 hnot) hne
      · exact hs q hq

/-- A row of another number than all others is put in its place. -/
theorem ordered_adding (h : t.Ordered) (hnew : ∀ s ∈ t.rows, s.number ≠ r.number) :
    (t.adding r).Ordered :=
  pairwise_place h hnew

theorem ordered_without (h : t.Ordered) (number : Int) : (t.without number).Ordered :=
  List.Pairwise.filter _ h

/-- A row that keeps its number stays in its place. -/
theorem ordered_replacing (h : t.Ordered) : ((t.without r.number).adding r).Ordered :=
  ordered_adding (ordered_without h r.number) fun _ hs =>
    bne_iff_ne.1 (List.mem_filter.1 hs).2

/-! ### New rows -/

/-- A row that an insertion fills: it has the values that it is given, as its table stores
them, and none in other columns.  A column that numbers the rows has the number of the row
if it is given none. -/
structure Fills (d : TableDef) (now : Timestamp) (assignments : List (String × Term))
    (r : StoredRow) : Prop where
  assigned : ∀ a ∈ assignments, ∃ v, a.2.value (.bare now) = .ok v ∧
    (r.cell (d.spelled a.1) = d.stored a.1 v ∨
      v = .null ∧ d.key = .rowNumber (d.spelled a.1))
  others : ∀ column, (∀ a ∈ assignments, sameName a.1 column = false) →
    r.cell column = .null ∨ d.key = .rowNumber column

/-- A new row has the values that it was given, and its number where it was given none. -/
theorem cell_of_numbered {d : TableDef} (h : d.numbered (some n) given = .ok r) (column : String) :
    r.cell column = given.cell column ∨
      given.cell column = .null ∧ d.key = .rowNumber column := by
  unfold TableDef.numbered at h
  split at h
  · next key hkey =>
    split at h
    · cases h
      exact .inl rfl
    · next m hnull hsome =>
      split at h
      · cases h
        by_cases he : key = column
        · subst he
          exact .inr ⟨hnull, hkey⟩
        · refine .inl ?_
          rw [StoredRow.cell, NameMap.get?_insert, if_neg he]
          rfl
      · cases h
    · cases h
  · cases h
    exact .inl rfl

/-- A new row has its number in its key, if the key numbers the rows, and else the number
that it was given. -/
theorem number_of_numbered_new {d : TableDef} (h : d.numbered (some n) given = .ok r) :
    (∃ column, d.key = .rowNumber column ∧ HasNumberIn column r) ∨
      (∀ column, d.key ≠ .rowNumber column) ∧ r.number = n := by
  unfold TableDef.numbered at h
  split at h
  · next key hkey =>
    split at h
    · next m hcell =>
      cases h
      exact .inl ⟨key, hkey, m, hcell, rfl⟩
    · split at h
      · next m hm =>
        cases h
        refine .inl ⟨key, hkey, m, ?_, rfl⟩
        rw [StoredRow.cell, NameMap.get?_insert_self]
        rfl
      · cases h
    · cases h
  · next hkey =>
    cases h
    exact .inr ⟨hkey, rfl⟩

/-- The steps of a new row, which names its columns. -/
theorem steps_of_newRow (hcolumns : columns ≠ []) (h : t.newRow now columns values = .ok r) :
    ∃ given, t.assigned (.bare now) (columns.zip values) (t.definition.blankRow t.freshNumber) =
        .ok given ∧
      t.definition.numbered (some t.freshNumber) given = .ok r := by
  unfold newRow at h
  have hsome : columns.isEmpty = false := by rwa [List.isEmpty_eq_false_iff]
  rw [hsome, if_neg Bool.false_ne_true] at h
  dsimp only at h
  split at h
  · cases h
  · obtain ⟨given, hgiven, h⟩ := Test.bind_eq_ok h
    exact ⟨given, hgiven, h⟩

/-- **A new row has the values that the insertion gives.** -/
theorem fills_of_newRow (hcolumns : columns ≠ []) (happart : AssignsApart (columns.zip values))
    (h : t.newRow now columns values = .ok r) : Fills t.definition now (columns.zip values) r := by
  obtain ⟨given, hgiven, hnumbered⟩ := steps_of_newRow hcolumns h
  obtain ⟨hassigned, hothers⟩ := given_assigned happart hgiven
  constructor
  · intro a ha
    obtain ⟨v, hv, hcell⟩ := hassigned a ha
    refine ⟨v, hv, ?_⟩
    rcases cell_of_numbered hnumbered (t.definition.spelled a.1) with hsame | ⟨hnull, hkey⟩
    · exact .inl (hsame.trans hcell)
    · -- What is stored as nothing was nothing.
      refine .inr ⟨?_, hkey⟩
      have hv' := TableDef.isNull_stored t.definition a.1 v
      rw [← hcell, hnull] at hv'
      cases v <;> first | rfl | cases hv'
  · intro column hcolumn
    rcases cell_of_numbered hnumbered column with hsame | ⟨-, hkey⟩
    · rw [hsame, hothers column hcolumn, TableDef.cell_blankRow]
      exact .inl rfl
    · exact .inr hkey

/-- A new row without a rival leaves the numbers of the rows apart. -/
theorem ordered_adding_new (h : t.Ordered) (hkeys : t.KeyNumbers) (hcolumns : columns ≠ [])
    (hnew : t.newRow now columns values = .ok r) (hrival : t.rival? r none = none) :
    (t.adding r).Ordered ∧ (t.adding r).KeyNumbers := by
  obtain ⟨given, -, hnumbered⟩ := steps_of_newRow hcolumns hnew
  rcases number_of_numbered_new hnumbered with ⟨column, hkey, hnumber⟩ | ⟨hkey, hnumber⟩
  · refine ⟨ordered_adding h fun q hq => ?_, fun name hname q hq => ?_⟩
    · exact number_ne_of_rival? hkey hnumber hrival hq (hkeys column hkey q hq) nofun
    · obtain rfl : column = name := Key.rowNumber.inj (hkey.symm.trans hname)
      rcases mem_place.1 hq with rfl | hq
      · exact hnumber
      · exact hkeys column hkey q hq
  · refine ⟨ordered_adding h fun q hq => ?_, fun name hname => absurd hname (hkey name)⟩
    rw [hnumber]
    exact (lt_freshNumber h q hq).ne

/-! ### Insertions -/

/-- **An insertion that succeeds adds its row**, unless it is told what to do about a row
of the same key. -/
theorem steps_of_insert {s : InsertStatement} (hs : s.onConflict = .fail)
    (h : t.insert now s = .ok (u, r)) :
    t.newRow now s.columns s.values = .ok r ∧ t.rival? r none = none ∧ u = t.adding r := by
  unfold insert at h
  obtain ⟨new, hnew, h⟩ := Test.bind_eq_ok h
  obtain ⟨_, -, h⟩ := Test.bind_eq_ok h
  rw [hs] at h
  split at h
  · next hrival =>
    cases h
    exact ⟨hnew, hrival, rfl⟩
  · next hother => cases hother
  · next hother => cases hother
  · cases h

end StoredTable

end ResourceTable.Sql
