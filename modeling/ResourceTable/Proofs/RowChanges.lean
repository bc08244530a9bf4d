import ResourceTable.Proofs.AvoidedPrint
import ResourceTable.Proofs.RowFrame
import ResourceTable.Proofs.Traversal

/-!
# What changes of rows do

An `UPDATE` gives the rows that it finds new values in some columns and leaves all other
values alone; a `DELETE` drops the rows that it finds.  Either leaves all other rows as
they were, and counts those that it found.

If the key numbers the rows, a row that is given a new key moves to another number.  No
other row has that number then, so that the rows still to be changed are found where they
were.

## Main definitions

* `StoredTable.Given`: a row that was given the values of some assignments.
* `StoredTable.WellNumbered`: rows of distinct numbers, which the key gives if it is to.
* `StoredTable.outside`: the rows of a table apart from some of them.
* `StoredTable.Rewrites`: a table of which some rows were given new values.

## Main results

* `given_changeRow`, `perm_changeRow` — one step: what becomes of a row, and of the others.
* `exists_changed_of_foldlM` — a run: the rows are changed one by one.
* `exists_found_of_update` — rows that are changed as they are found could as well have
  been found first.
* `rewrites_of_update`, `outside_of_delete` — **what is changed or dropped is what is
  found.**
-/

namespace ResourceTable.Sql

/-! ### Names -/

theorem sameName_comm (a b : String) : sameName a b = sameName b a := by
  rw [sameName, sameName, Bool.eq_iff_iff, beq_iff_eq, beq_iff_eq, eq_comm]

theorem sameName_trans {a b c : String} (hab : sameName a b = true) (hbc : sameName b c = true) :
    sameName a c = true := by
  rw [sameName, beq_iff_eq] at *
  exact hab.trans hbc

namespace TableDef

variable {d : TableDef} {name other : String} {c : ColumnDef}

theorem sameName_of_column? (h : d.column? name = some c) : sameName c.name name = true := by
  unfold column? at h
  exact (List.find?_eq_some_iff_append.1 h).1

theorem spelled_of_column? (h : d.column? name = some c) : d.spelled name = c.name := by
  rw [spelled, h]
  rfl

/-- The name that a table gives a column is the same name. -/
theorem sameName_spelled (d : TableDef) (name : String) :
    sameName (d.spelled name) name = true := by
  cases h : d.column? name with
  | none =>
    rw [spelled, h, sameName, beq_iff_eq]
    rfl
  | some c =>
    rw [spelled_of_column? h]
    exact sameName_of_column? h

/-- Names that a table spells alike are the same. -/
theorem sameName_of_spelled_eq (h : d.spelled name = d.spelled other) :
    sameName name other = true := by
  have hname := d.sameName_spelled name
  rw [h, sameName_comm] at hname
  exact sameName_trans hname (d.sameName_spelled other)

end TableDef

/-! ### The values of a row -/

section Values

variable {α β : Type}

theorem exists_mem_of_forall₂ {R : α → β → Prop} {l : List α} {bs : List β}
    (h : List.Forall₂ R l bs) : ∀ a ∈ l, ∃ b ∈ bs, R a b := by
  induction h with
  | nil => exact List.forall_mem_nil _
  | @cons a b l bs hab _ ih =>
    refine List.forall_mem_cons.2 ⟨⟨b, List.mem_cons_self, hab⟩, fun x hx => ?_⟩
    obtain ⟨y, hy, hxy⟩ := ih x hx
    exact ⟨y, List.mem_cons_of_mem b hy, hxy⟩

end Values

namespace StoredTable

variable {t u : StoredTable} {now : Timestamp} {s : Scope} {assignments : List (String × Term)}
  {r given changed : StoredRow}

/-- A row that was given the values of some assignments, as its table stores them; in all
other columns it has the values that it had. -/
structure Given (d : TableDef) (s : Scope) (assignments : List (String × Term))
    (r given : StoredRow) : Prop where
  assigned : ∀ a ∈ assignments, ∃ v, a.2.value s = .ok v ∧
    given.cell (d.spelled a.1) = d.stored a.1 v
  others : ∀ column, (∀ a ∈ assignments, sameName a.1 column = false) →
    given.cell column = r.cell column

/-- No column is assigned to twice. -/
def AssignsApart (assignments : List (String × Term)) : Prop :=
  assignments.Pairwise fun a b => sameName a.1 b.1 = false

/-- **A row is given the values of its assignments**, if no column is assigned to twice. -/
theorem given_assigned (happart : AssignsApart assignments)
    (h : t.assigned s assignments r = .ok given) : Given t.definition s assignments r given := by
  unfold assigned at h
  obtain ⟨values, hvalues, h⟩ := Test.bind_eq_ok h
  cases h
  -- Each value goes under the name that the table gives its column.
  let entries := values.map fun v => (t.definition.spelled v.1, t.definition.stored v.1 v.2)
  have hpairs : List.Forall₂ (fun a v => a.1 = v.1 ∧ a.2.value s = .ok v.2) assignments values := by
    refine (mapM_eq_ok_iff.1 hvalues).imp fun a v hv => ?_
    obtain ⟨c, hc, hv⟩ := Test.bind_eq_ok hv
    cases hv
    exact ⟨rfl, hc⟩
  have hnames : assignments.map Prod.fst = values.map Prod.fst := by
    rw [← List.forall₂_eq_eq_eq, List.forall₂_map_left_iff, List.forall₂_map_right_iff]
    exact hpairs.imp fun a v hv => hv.1
  have hnodup : (entries.map Prod.fst).Nodup := by
    have hspelled : entries.map Prod.fst =
        (assignments.map Prod.fst).map t.definition.spelled := by
      rw [hnames, List.map_map, List.map_map]
      rfl
    rw [hspelled, List.Nodup, List.pairwise_map, List.pairwise_map]
    refine List.Pairwise.imp (fun {a b} hab he => ?_) happart
    rw [TableDef.sameName_of_spelled_eq he] at hab
    cases hab
  have hget (column : String) : NameMap.get?
      (values.foldl (fun cells a => cells.insert (t.definition.spelled a.1)
        (t.definition.stored a.1 a.2)) r.cells) column =
        (NameMap.lookup column entries).or (r.cells.get? column) := by
    rw [← NameMap.get?_foldl_insert r.cells hnodup, List.foldl_map]
  constructor
  · intro a ha
    obtain ⟨v, hv, hname, hvalue⟩ := exists_mem_of_forall₂ hpairs a ha
    have hentry : (t.definition.spelled a.1, t.definition.stored a.1 v.2) ∈ entries :=
      List.mem_map.2 ⟨v, hv, by rw [hname]⟩
    refine ⟨v.2, hvalue, ?_⟩
    rw [StoredRow.cell, hget, NameMap.lookup_of_mem hnodup hentry]
    rfl
  · intro column hother
    have hnone : NameMap.lookup column entries = none := by
      refine NameMap.lookup_eq_none_of_notMem fun hmem => ?_
      obtain ⟨e, he, rfl⟩ := List.mem_map.1 hmem
      obtain ⟨v, hv, rfl⟩ := List.mem_map.1 he
      have hname : v.1 ∈ assignments.map Prod.fst := hnames ▸ List.mem_map_of_mem hv
      obtain ⟨a, ha, hav⟩ := List.mem_map.1 hname
      have hsame := t.definition.sameName_spelled v.1
      have hapart : sameName a.1 (t.definition.spelled v.1) = false := hother a ha
      rw [hav, sameName_comm, hsame] at hapart
      cases hapart
    rw [StoredRow.cell, hget, hnone]
    rfl

/-! ### One row -/

/-- The row has its number in a column. -/
def HasNumberIn (column : String) (r : StoredRow) : Prop :=
  ∃ n : FixedInt .i64, r.cell column = .integer n ∧ n.val = r.number

/-- If the key of the table numbers the rows, every row has its number there. -/
def KeyNumbers (t : StoredTable) : Prop :=
  ∀ column, t.definition.key = .rowNumber column → ∀ r ∈ t.rows, HasNumberIn column r

/-- Rows of distinct numbers, which are in the key if it numbers the rows. -/
structure WellNumbered (t : StoredTable) : Prop where
  nodup : (t.rows.map StoredRow.number).Nodup
  key : t.KeyNumbers

theorem WellNumbered.numbered (h : t.WellNumbered) : t.Numbered :=
  fun _ hr _ hs he => List.inj_on_of_nodup_map h.nodup hr hs he

/-- A row that is numbered anew keeps its values. -/
theorem cells_of_numbered {d : TableDef} (h : d.numbered none given = .ok changed) :
    changed.cells = given.cells := by
  unfold TableDef.numbered at h
  split at h
  · split at h
    · cases h
      rfl
    · next hnone => cases hnone
    · cases h
  · cases h
    rfl

/-- Its number is that of its key, if the key numbers the rows, and else the one it had. -/
theorem number_of_numbered {d : TableDef} (h : d.numbered none given = .ok changed) :
    (∃ column, d.key = .rowNumber column ∧ HasNumberIn column changed) ∨
      (∀ column, d.key ≠ .rowNumber column) ∧ changed.number = given.number := by
  unfold TableDef.numbered at h
  split at h
  · next column hkey =>
    split at h
    · next n hcell =>
      cases h
      exact .inl ⟨column, hkey, n, hcell, rfl⟩
    · next hnone => cases hnone
    · cases h
  · next hkey =>
    cases h
    exact .inr ⟨hkey, rfl⟩

theorem number_of_assigned (h : t.assigned s assignments r = .ok given) :
    given.number = r.number := by
  unfold assigned at h
  obtain ⟨values, -, h⟩ := Test.bind_eq_ok h
  cases h
  rfl

/-- The steps of the change of a row. -/
theorem exists_assigned_of_changeRow (h : t.changeRow s assignments r = .ok (u, changed)) :
    ∃ given, t.assigned s assignments r = .ok given ∧
      t.definition.numbered none given = .ok changed ∧
      t.rival? changed (some r.number) = none ∧ u = (t.without r.number).adding changed := by
  unfold changeRow at h
  obtain ⟨given, hgiven, h⟩ := Test.bind_eq_ok h
  obtain ⟨_, hnumbered, h⟩ := Test.bind_eq_ok h
  obtain ⟨_, -, h⟩ := Test.bind_eq_ok h
  obtain ⟨_, hkey, h⟩ := Test.bind_eq_ok h
  cases h
  refine ⟨given, hgiven, hnumbered, ?_, rfl⟩
  unfold checkKey at hkey
  split at hkey
  · cases hkey
  · next hrival => exact hrival

/-- **A changed row has the values of its assignments.** -/
theorem given_changeRow (happart : AssignsApart assignments)
    (h : t.changeRow s assignments r = .ok (u, changed)) :
    Given t.definition s assignments r changed := by
  obtain ⟨given, hgiven, hnumbered, -, -⟩ := exists_assigned_of_changeRow h
  have hcell (column : String) : changed.cell column = given.cell column := by
    rw [StoredRow.cell, cells_of_numbered hnumbered]
    rfl
  obtain ⟨hassigned, hothers⟩ := given_assigned happart hgiven
  constructor
  · intro a ha
    rw [hcell]
    exact hassigned a ha
  · intro column hcolumn
    rw [hcell]
    exact hothers column hcolumn

/-- A row of the number in its key is another row than those of which it is no rival. -/
theorem number_ne_of_rival? {column : String} (hkey : t.definition.key = .rowNumber column)
    (hr : HasNumberIn column r) {apart : Option Int} (hrival : t.rival? r apart = none)
    {q : StoredRow} (hq : q ∈ t.rows) (hnumber : HasNumberIn column q)
    (hapart : some q.number ≠ apart) : q.number ≠ r.number := by
  intro he
  obtain ⟨n, hcell, hn⟩ := hr
  obtain ⟨m, hqcell, hm⟩ := hnumber
  have hsame : (q.cell column).same (r.cell column) = true := by
    have hval : m.val = n.val := by omega
    rw [hqcell, hcell, Cell.same, Cell.order, hval, beq_iff_eq]
    exact Std.ReflCmp.compare_self
  have hnull : (r.cell column).isNull = false := by
    rw [hcell]
    rfl
  unfold rival? at hrival
  rw [hkey] at hrival
  dsimp only [Key.name?] at hrival
  rw [hnull, if_neg Bool.false_ne_true] at hrival
  have hnot := List.find?_eq_none.1 hrival q hq
  rw [hsame, Bool.and_true, bne_iff_ne] at hnot
  exact hnot hapart

/-- A row that moves to another number finds no other row there. -/
theorem number_ne_of_changeRow (hw : t.WellNumbered)
    (h : t.changeRow s assignments r = .ok (u, changed)) {q : StoredRow} (hq : q ∈ t.rows)
    (hne : q.number ≠ r.number) : q.number ≠ changed.number := by
  obtain ⟨given, hgiven, hnumbered, hrival, -⟩ := exists_assigned_of_changeRow h
  rcases number_of_numbered hnumbered with ⟨column, hkey, hnumber⟩ | ⟨-, hnumber⟩
  · -- The other row would be a rival for the key.
    exact number_ne_of_rival? hkey hnumber hrival hq (hw.key column hkey q hq)
      fun he => hne (Option.some.inj he)
  · rwa [hnumber, number_of_assigned hgiven]

theorem perm_place (r : StoredRow) (l : List StoredRow) : (place r l).Perm (r :: l) := by
  induction l with
  | nil => exact .refl _
  | cons q rest ih =>
    rw [place]
    split
    · exact .refl _
    · exact (ih.cons q).trans (.swap r q rest)

/-- **The change of a row replaces it and leaves the others**, and the rows are still of
distinct numbers. -/
theorem perm_changeRow (hw : t.WellNumbered) {others : List StoredRow}
    (hrows : t.rows.Perm (r :: others)) (h : t.changeRow s assignments r = .ok (u, changed)) :
    u.rows.Perm (changed :: others) ∧ u.WellNumbered := by
  have hnodup : ((r :: others).map StoredRow.number).Nodup :=
    (hrows.map StoredRow.number).nodup_iff.1 hw.nodup
  obtain ⟨hr, hothers⟩ := List.nodup_cons.1 hnodup
  have hne : ∀ q ∈ others, q.number ≠ r.number :=
    fun q hq he => hr (he ▸ List.mem_map_of_mem hq)
  have hmem : ∀ q ∈ others, q ∈ t.rows := fun q hq => hrows.mem_iff.2 (List.mem_cons_of_mem r hq)
  have hmoved : ∀ q ∈ others, q.number ≠ changed.number :=
    fun q hq => number_ne_of_changeRow hw h (hmem q hq) (hne q hq)
  obtain ⟨given, -, hnumbered, -, rfl⟩ := exists_assigned_of_changeRow h
  have hperm : ((t.without r.number).adding changed).rows.Perm (changed :: others) := by
    -- To take a number away takes one row away, since the numbers are distinct.
    refine (perm_place changed _).trans (List.Perm.cons changed ?_)
    have hkept : (r :: others).filter (fun q => q.number != r.number) = others := by
      rw [List.filter_cons_of_neg (by simp)]
      exact List.filter_eq_self.2 fun q hq => bne_iff_ne.2 (hne q hq)
    have hfilter := hrows.filter fun q => q.number != r.number
    rwa [hkept] at hfilter
  refine ⟨hperm, (hperm.map StoredRow.number).nodup_iff.2 ?_, fun column hkey q hq => ?_⟩
  · refine List.nodup_cons.2 ⟨fun hchanged => ?_, hothers⟩
    obtain ⟨q, hq, he⟩ := List.mem_map.1 hchanged
    exact hmoved q hq he
  · rcases List.mem_cons.1 (hperm.mem_iff.1 hq) with rfl | hq
    · rcases number_of_numbered hnumbered with ⟨name, hname, hnumber⟩ | ⟨hnot, -⟩
      · cases hkey.symm.trans hname
        exact hnumber
      · exact absurd hkey (hnot column)
    · exact hw.key column hkey q (hmem q hq)

/-! ### Many rows -/

/-- **Rows that are changed one by one** are replaced, and the others left as they are. -/
theorem exists_changed_of_foldlM (happart : AssignsApart assignments) :
    ∀ {rows others : List StoredRow} {t : StoredTable} {n m : Nat}, t.WellNumbered →
      t.rows.Perm (rows ++ others) →
        rows.foldlM (changeNext now assignments) (t, n) = .ok (u, m) →
          u.definition = t.definition ∧ m = n + rows.length ∧
            ∃ changed, List.Forall₂ (fun r c =>
                Given t.definition (t.definition.scope now r) assignments r c) rows changed ∧
              u.rows.Perm (changed ++ others) := by
  intro rows
  induction rows with
  | nil =>
    intro others t n m _ hrows h
    cases h
    exact ⟨rfl, rfl, [], .nil, hrows⟩
  | cons r rest ih =>
    intro others t n m hw hrows h
    rw [List.foldlM_cons] at h
    obtain ⟨⟨v, i⟩, hv, h⟩ := Test.bind_eq_ok h
    unfold changeNext at hv
    obtain ⟨⟨w, c⟩, hchange, hv⟩ := Test.bind_eq_ok hv
    obtain ⟨rfl, rfl⟩ := Prod.mk.inj (Except.ok.inj hv)
    have hdefinition : w.definition = t.definition := (keeps_changeRow hchange).definition
    obtain ⟨hperm, hww⟩ := perm_changeRow hw hrows hchange
    -- The changed row is one of those that the rest of the run leaves alone.
    have hmoved : w.rows.Perm (rest ++ c :: others) := hperm.trans List.perm_middle.symm
    obtain ⟨hu, hm, changed, hgiven, hrest⟩ := ih hww hmoved h
    rw [hdefinition] at hgiven
    refine ⟨hu.trans hdefinition, ?_, c :: changed, .cons (given_changeRow happart hchange) hgiven,
      hrest.trans List.perm_middle⟩
    rw [hm, List.length_cons]
    omega

end StoredTable

/-! ### Rows that are found -/

namespace Plan

variable {t u : StoredTable} {now : Timestamp} {assignments : List (String × Term)}

theorem allHold_append {s : Scope} (tests further : List Test) :
    Test.allHold s (tests ++ further) =
      (do if ← Test.allHold s tests then Test.allHold s further else return false) := by
  induction tests with
  | nil => rfl
  | cons test rest ih =>
    rw [Test.allHold, Test.allHold, List.cons_append, List.allM, List.allM]
    cases test.holds s with
    | error e => rfl
    | ok b =>
      cases b with
      | false => rfl
      | true => exact ih

/-- A row that is found was not met before. -/
theorem notMem_of_fate {s : Scope} {met : List Int} {v : Visit} (h : fate s met v = .ok .found) :
    v.row.number ∉ met := by
  unfold fate at h
  obtain ⟨b, -, h⟩ := Test.bind_eq_ok h
  cases b with
  | false => cases h
  | true =>
    rw [if_pos rfl] at h
    split at h
    · cases h
    · next hmet =>
      rw [List.contains_iff_mem] at hmet
      exact hmet

/-- The rows that are gathered are of distinct numbers, none of which was met before. -/
theorem nodup_of_gather {scope : StoredRow → Scope} : ∀ {l : List Visit} {met : List Int}
    {rows : List StoredRow}, gather scope none met l = .ok rows →
      (rows.map StoredRow.number).Nodup ∧ ∀ r ∈ rows, r.number ∉ met := by
  intro l
  induction l with
  | nil =>
    intro met rows h
    rw [gather_nil] at h
    cases h
    exact ⟨.nil, List.forall_mem_nil _⟩
  | cons v rest ih =>
    intro met rows h
    have hnone : (none : Option Nat) ≠ some 0 := nofun
    rw [gather_cons hnone] at h
    obtain ⟨x, hx, h⟩ := Test.bind_eq_ok h
    cases x with
    | skipped => exact ih h
    | away =>
      obtain ⟨hnodup, hmet⟩ := ih h
      exact ⟨hnodup, fun r hr => List.not_mem_of_not_mem_cons (hmet r hr)⟩
    | found =>
      obtain ⟨more, hmore, h⟩ := Test.bind_eq_ok h
      cases h
      obtain ⟨hnodup, hmet⟩ := ih hmore
      refine ⟨List.nodup_cons.2 ⟨fun hv => ?_, hnodup⟩, List.forall_mem_cons.2 ⟨?_, fun r hr => ?_⟩⟩
      · obtain ⟨r, hr, he⟩ := List.mem_map.1 hv
        exact hmet r hr (he ▸ List.mem_cons_self)
      · exact notMem_of_fate hx
      · exact List.not_mem_of_not_mem_cons (hmet r hr)

theorem nodup_of_found {plan : Plan} {rows : List StoredRow}
    (h : plan.found t now none = .ok rows) : (rows.map StoredRow.number).Nodup := by
  unfold found at h
  obtain ⟨b, -, h⟩ := Test.bind_eq_ok h
  cases b with
  | false =>
    cases h
    exact .nil
  | true => exact (nodup_of_gather h).1

/-- What a visit of a row comes to that was not met before. -/
theorem fate_eq {s : Scope} {met : List Int} {v : Visit} (hmet : v.row.number ∉ met) {b : Bool}
    (h : Test.allHold s (v.tests ++ v.further) = .ok b) :
    b = true ∧ fate s met v = .ok .found ∨
      b = false ∧ (fate s met v = .ok .skipped ∨ fate s met v = .ok .away) := by
  rw [allHold_append] at h
  obtain ⟨first, hfirst, h⟩ := Test.bind_eq_ok h
  rw [fate, hfirst, Test.ok_bind]
  cases first with
  | false =>
    cases h
    exact .inr ⟨rfl, .inl rfl⟩
  | true =>
    rw [if_pos rfl] at h
    have hnot : ¬ met.contains v.row.number = true := by rwa [List.contains_iff_mem]
    rw [if_pos rfl, if_neg hnot, h, Test.ok_bind]
    cases b with
    | false => exact .inr ⟨rfl, .inr rfl⟩
    | true => exact .inl ⟨rfl, rfl⟩

/-- Rows that are changed as they are visited could as well have been gathered first, if
each is visited once. -/
theorem exists_gathered_of_changeEach {d : TableDef} : ∀ {l : List Visit} {met : List Int}
    {t : StoredTable} {n m : Nat}, t.definition = d → (l.map fun v => v.row.number).Nodup →
      (∀ v ∈ l, v.row.number ∉ met) →
        StoredTable.changeEach now assignments l (t, n) = .ok (u, m) →
          ∃ rows, gather (d.scope now) none met l = .ok rows ∧
            rows.foldlM (StoredTable.changeNext now assignments) (t, n) = .ok (u, m) := by
  intro l
  induction l with
  | nil =>
    intro met t n m _ _ _ h
    exact ⟨[], gather_nil _ _ _, h⟩
  | cons v rest ih =>
    intro met t n m hd hnodup hmet h
    obtain ⟨hv, hrest⟩ := List.nodup_cons.1 hnodup
    obtain ⟨hvmet, hrestmet⟩ := List.forall_mem_cons.1 hmet
    -- The rows that are still to be visited are other ones.
    have hlater : ∀ w ∈ rest, w.row.number ∉ v.row.number :: met := by
      intro w hw hmem
      rcases List.mem_cons.1 hmem with he | hmem
      · exact hv (List.mem_map.2 ⟨w, hw, he⟩)
      · exact hrestmet w hw hmem
    have hnone : (none : Option Nat) ≠ some 0 := nofun
    unfold StoredTable.changeEach at h
    rw [List.foldlM_cons] at h
    obtain ⟨⟨w, i⟩, hw, h⟩ := Test.bind_eq_ok h
    obtain ⟨b, hb, hw⟩ := Test.bind_eq_ok hw
    rw [hd] at hb
    rcases fate_eq hvmet hb with ⟨rfl, hfate⟩ | ⟨rfl, hfate⟩
    · have hkept : w.definition = d := (StoredTable.keeps_changeNext hw).definition.trans hd
      obtain ⟨more, hmore, hrun⟩ := ih hkept hrest hlater h
      refine ⟨v.row :: more, ?_, ?_⟩
      · rw [gather_cons hnone, hfate, Test.ok_bind]
        dsimp only [Option.map_none]
        rw [hmore]
        rfl
      · have hfirst : StoredTable.changeNext now assignments (t, n) v.row = .ok (w, i) := hw
        rw [List.foldlM_cons, hfirst]
        exact hrun
    · cases hw
      rcases hfate with hfate | hfate
      · obtain ⟨rows, hrows, hrun⟩ := ih hd hrest hrestmet h
        exact ⟨rows, by rw [gather_cons hnone, hfate, Test.ok_bind]; exact hrows, hrun⟩
      · obtain ⟨rows, hrows, hrun⟩ := ih hd hrest hlater h
        exact ⟨rows, by rw [gather_cons hnone, hfate, Test.ok_bind]; exact hrows, hrun⟩

end Plan

namespace StoredTable

variable {t u : StoredTable} {now : Timestamp} {assignments : List (String × Term)}
  {condition : Option Test} {n : Nat} {rows : List StoredRow}

/-- **Rows that are changed as they are found could as well have been found first.** -/
theorem exists_found_of_update (hw : t.WellNumbered)
    (h : t.update now assignments condition = .ok (u, n)) :
    ∃ rows, (t.changePlan condition).found t now none = .ok rows ∧
      rows.foldlM (changeNext now assignments) (t, 0) = .ok (u, n) := by
  unfold update at h
  dsimp only at h
  split at h
  · next honce =>
    obtain ⟨b, hb, h⟩ := Test.bind_eq_ok h
    rw [Plan.found, hb, Test.ok_bind]
    cases b with
    | false => exact ⟨[], rfl, h⟩
    | true =>
      rw [if_pos rfl] at h
      -- There is one pass, which visits every row once.
      have hone : (t.changePlan condition).passes.length = 1 := by
        unfold changesAtOnce at honce
        simp only [Bool.and_eq_true, beq_iff_eq] at honce
        exact honce.1.1.1
      obtain ⟨p, hp⟩ := List.length_eq_one_iff.1 hone
      have hvisits : ((t.changePlan condition).visits t).map (fun v => v.row.number) =
          (Plan.visited t p).map StoredRow.number := by
        rw [Plan.visits, hp, List.flatMap_singleton, List.map_map]
        rfl
      have hnodup : (((t.changePlan condition).visits t).map fun v => v.row.number).Nodup := by
        rw [hvisits]
        exact ((visited_perm t p).map StoredRow.number).nodup_iff.2 hw.nodup
      exact Plan.exists_gathered_of_changeEach rfl hnodup (fun _ _ => List.not_mem_nil) h
  · obtain ⟨rows, hrows, h⟩ := Test.bind_eq_ok h
    exact ⟨rows, hrows, h⟩

/-! ### All rows of a table -/

/-- The rows of a table apart from some of them. -/
def outside (t : StoredTable) (rows : List StoredRow) : List StoredRow :=
  t.rows.filter fun r => !(rows.map StoredRow.number).contains r.number

/-- Some rows of a table and all others are its rows. -/
theorem perm_append_outside (hw : t.WellNumbered) (hrows : ∀ r ∈ rows, r ∈ t.rows)
    (hnodup : (rows.map StoredRow.number).Nodup) : t.rows.Perm (rows ++ t.outside rows) := by
  have hinside : (t.rows.filter fun r => (rows.map StoredRow.number).contains r.number).Perm
      rows := by
    refine (List.perm_ext_iff_of_nodup (hw.nodup.of_map.filter _) hnodup.of_map).2 fun r => ?_
    rw [List.mem_filter, List.contains_iff_mem, List.mem_map]
    constructor
    · rintro ⟨hr, q, hq, he⟩
      rwa [hw.numbered r hr q (hrows q hq) he.symm]
    · exact fun hr => ⟨hrows r hr, r, hr, rfl⟩
  exact (List.filter_append_perm _ t.rows).symm.trans (hinside.append_right _)

theorem perm_outside_of_found (hw : t.WellNumbered) {plan : Plan}
    (h : plan.found t now none = .ok rows) : t.rows.Perm (rows ++ t.outside rows) :=
  perm_append_outside hw (mem_of_mem_found h) (Plan.nodup_of_found h)

/-- The order of the rows does not matter. -/
theorem outside_of_perm {others : List StoredRow} (h : rows.Perm others) :
    t.outside rows = t.outside others := by
  refine List.filter_congr fun r _ => ?_
  rw [Bool.eq_iff_iff]
  simp only [Bool.not_eq_true', ← Bool.not_eq_true, List.contains_iff_mem,
    (h.map StoredRow.number).mem_iff]

/-- Two plans that find rows by the same test find the same rows. -/
theorem perm_of_found {plan other : Plan} {P : StoredRow → Prop} {rows others : List StoredRow}
    (hrows : plan.found t now none = .ok rows) (hothers : other.found t now none = .ok others)
    (hplan : ∀ r, r ∈ rows ↔ P r) (hother : ∀ r, r ∈ others ↔ P r) : rows.Perm others :=
  (List.perm_ext_iff_of_nodup (Plan.nodup_of_found hrows).of_map
    (Plan.nodup_of_found hothers).of_map).2 fun r => (hplan r).trans (hother r).symm

/-- A table of which some rows were given the values of assignments, and all other rows
are as they were. -/
structure Rewrites (t u : StoredTable) (now : Timestamp) (assignments : List (String × Term))
    (rows : List StoredRow) : Prop where
  definition : u.definition = t.definition
  rows : ∃ changed, List.Forall₂ (fun r c =>
      Given t.definition (t.definition.scope now r) assignments r c) rows changed ∧
    u.rows.Perm (changed ++ t.outside rows)

theorem Rewrites.of_perm {others : List StoredRow} (h : t.Rewrites u now assignments rows)
    (hperm : others.Perm rows) : t.Rewrites u now assignments others := by
  obtain ⟨changed, hgiven, hu⟩ := h.rows
  obtain ⟨changed', hgiven', hperm'⟩ := List.perm_comp_forall₂ hperm hgiven
  refine ⟨h.definition, changed', hgiven', hu.trans ?_⟩
  rw [outside_of_perm hperm]
  exact hperm'.symm.append_right _

/-- **An update gives the rows that it finds the values of its assignments, leaves all
other rows as they were, and counts those that it found.** -/
theorem rewrites_of_update (hw : t.WellNumbered) (happart : AssignsApart assignments)
    (h : t.update now assignments condition = .ok (u, n)) :
    ∃ rows, (t.changePlan condition).found t now none = .ok rows ∧ n = rows.length ∧
      t.Rewrites u now assignments rows := by
  obtain ⟨rows, hrows, hrun⟩ := exists_found_of_update hw h
  obtain ⟨hdefinition, hn, hchanged⟩ :=
    exists_changed_of_foldlM happart hw (perm_outside_of_found hw hrows) hrun
  exact ⟨rows, hrows, hn.trans (Nat.zero_add _), hdefinition, hchanged⟩

/-- **A deletion drops the rows that it finds, leaves all other rows as they were, and
counts those that it found.** -/
theorem outside_of_delete (h : t.delete now condition = .ok (u, n)) :
    ∃ rows, (t.changePlan condition).found t now none = .ok rows ∧ n = rows.length ∧
      u = { t with rows := t.outside rows } := by
  unfold delete at h
  obtain ⟨rows, hrows, h⟩ := Test.bind_eq_ok h
  cases h
  exact ⟨rows, hrows, rfl, rfl⟩

end StoredTable

end ResourceTable.Sql
