import ResourceTable.Proofs.ColumnTests
import ResourceTable.Proofs.CountPage
import ResourceTable.Proofs.PageStatement
import ResourceTable.Proofs.PlanOrder

/-!
# The rows of a page

The rows for which a filter holds have one order by the primary key.  A page is a window
of them in that order, whichever way the database finds them, and a count gives their
number.

## Main definitions

* `Access.Fits`: the columns that an access names are those of a table.
* `StoredTable.IsFound`, `StoredTable.IsSorted`: the rows for which a filter holds, and the same
  sorted by a column.
* `StoredTable.IsListed`: the same, in the strict order of a column.
* `TableDef.shownRow`: a row with the columns that are shown.

## Main results

* `IsListed.unique` — there is one list of them.
* `Database.select_window` — **a page is a window of the rows, sorted by any column.**
* `Access.list_window`, `Access.list_sorted`, `Access.list_page`, `Access.list_total` — **so are
  the records that a request is answered with; by the primary key they have one order, and a
  number.**
-/

namespace ResourceTable

open Sql Sql.Parse

/-! ### Rows as they are shown -/

namespace Sql

namespace TableDef

variable {d : TableDef} {now : Timestamp} {row : StoredRow}

/-- What a name stands for in a row. -/
def valueOf (d : TableDef) (row : StoredRow) (name : String) : Cell :=
  ((d.resolve name).map row.value).getD .null

/-- A row with the columns that are shown. -/
def shownRow (d : TableDef) (cs : List Column) (row : StoredRow) : ResultRow :=
  cs.map fun c => (c.title, d.valueOf row c.name)

theorem isSome_slot? {name : String} (h : (d.resolve name).isSome = true) :
    ((d.scope now row).column? name).isSome = true := by
  show (d.slot? row name).isSome = true
  rw [slot?, Option.isSome_map]
  exact h

theorem value_column {name : String} (h : (d.resolve name).isSome = true) (offset : Nat) :
    Term.value (d.scope now row) (.column name offset) = .ok (d.valueOf row name) := by
  obtain ⟨ref, href⟩ := Option.isSome_iff_exists.1 h
  have hslot : (d.scope now row).column? name = some ⟨d.affinity ref, row.value ref⟩ := by
    show d.slot? row name = _
    rw [slot?, href]
    rfl
  rw [Term.value, hslot, valueOf, href]
  rfl

theorem checkNames_column {name : String} (h : (d.resolve name).isSome = true) (offset : Nat) :
    (Term.column name offset).checkNames (d.scope now row) = .ok () := by
  have hcolumn : (Term.column name offset).OnlyColumns (· = name) := rfl
  rw [Term.checkNames, hcolumn.lookUp_eq fun other ho => ho ▸ isSome_slot? h]
  rfl

end TableDef

namespace SelectStatement

variable {s : SelectStatement} {d : TableDef} {now : Timestamp} {row : StoredRow}

/-- Columns are given, not their number. -/
theorem counts_of_isOutput {cs : List Column} (h : List.Forall₂ Column.IsOutput cs s.outputs) :
    s.counts = false := by
  refine List.any_eq_false.2 fun o ho => ?_
  obtain ⟨c, -, offset, rfl⟩ := exists_mem_of_forall₂ h.flip o ho
  exact Bool.false_ne_true

/-- The columns that are given of a row are shown. -/
theorem resultRow_eq {cs : List Column} (h : List.Forall₂ Column.IsOutput cs s.outputs)
    (hcs : ∀ c ∈ cs, (d.resolve c.name).isSome = true) (n : Nat) :
    s.resultRow n (d.scope now row) = .ok (d.shownRow cs row) := by
  unfold resultRow
  generalize s.outputs = outputs at h
  induction h with
  | nil => rfl
  | @cons c o cs outputs ho _ ih =>
    obtain ⟨hc, hrest⟩ := List.forall_mem_cons.1 hcs
    obtain ⟨offset, rfl⟩ := ho
    rw [List.mapM_cons, ih hrest]
    simp only [d.value_column hc offset]
    rfl

/-- The columns that are given are there. -/
theorem checkNames_outputs {cs : List Column} (h : List.Forall₂ Column.IsOutput cs s.outputs)
    (hcs : ∀ c ∈ cs, (d.resolve c.name).isSome = true) :
    s.outputs.forM (fun o => (o.term?.map (Term.checkNames (d.scope now row))).getD (.ok ())) =
      .ok () := by
  generalize s.outputs = outputs at h
  induction h with
  | nil => rfl
  | @cons c o cs outputs ho _ ih =>
    obtain ⟨hc, hrest⟩ := List.forall_mem_cons.1 hcs
    obtain ⟨offset, rfl⟩ := ho
    show ((Term.column c.name offset).checkNames _ >>= fun _ => outputs.forM _) = _
    rw [d.checkNames_column hc offset, Test.ok_bind]
    exact ih hrest

section Order

variable {ref other : ColumnRef} {descending : Bool}

/-- The rows are sorted by a column of the table: the one that the statement names, or one that
is given under that name. -/
def SortsOn (s : SelectStatement) (d : TableDef) (ref : ColumnRef) (descending : Bool) : Prop :=
  ∃ key offset name place, s.sorting = some ⟨.term (.column key offset), descending⟩ ∧
    s.sortTerm (.term (.column key offset)) = .column name place ∧ d.resolve name = some ref

/-- They are sorted by one column. -/
theorem SortsOn.unique (h : s.SortsOn d ref descending) (h' : s.SortsOn d other descending) :
    ref = other := by
  obtain ⟨key, offset, name, place, hsorting, hterm, href⟩ := h
  obtain ⟨key', offset', name', place', hsorting', hterm', href'⟩ := h'
  cases hsorting.symm.trans hsorting'
  cases hterm.symm.trans hterm'
  exact Option.some.inj (href.symm.trans href')

/-- The order that the rows have to be brought into is that of the column. -/
theorem order_eq (hcounts : s.counts = false) (h : s.SortsOn d ref descending) :
    s.order d = some ⟨.column ref, descending, s.outputs.length, s.window.map Prod.fst⟩ := by
  obtain ⟨key, offset, name, place, hsorting, hterm, href⟩ := h
  unfold order
  rw [hcounts, hsorting]
  dsimp only [Option.map_some]
  rw [hterm, if_neg Bool.false_ne_true]
  dsimp only
  rw [href]
  rfl

/-- Rows that come in the order are left as they are. -/
theorem sorted_of_ordered (h : s.SortsOn d ref descending) (rows : List Scope) :
    s.sorted true rows = .ok rows := by
  obtain ⟨key, offset, -, -, hsorting, -⟩ := h
  unfold sorted
  rw [hsorting]
  rfl

/-- Rows that do not come in the order are sorted. -/
theorem sorted_eq (h : s.SortsOn d ref descending) (rows : List StoredRow) :
    s.sorted false (rows.map (d.scope now)) =
      .ok ((rows.mergeSort fun q r => precedes descending (q.value ref) (r.value ref)).map
        (d.scope now)) := by
  obtain ⟨key, offset, name, place, hsorting, hterm, href⟩ := h
  have hvalue (row : StoredRow) :
      Term.value (d.scope now row) (.column name place) = .ok (row.value ref) := by
    rw [d.value_column (by rw [href]; rfl), TableDef.valueOf, href]
    rfl
  have hkeyed : keyed (.column name place) (rows.map (d.scope now)) =
      .ok (rows.map fun row => (row.value ref, d.scope now row)) := by
    unfold keyed
    rw [List.mapM_map]
    have hpair : (fun row => do
        return (← Term.value (d.scope now row) (.column name place), d.scope now row)) =
        fun row => (pure (row.value ref, d.scope now row) : Except Fault (Cell × Scope)) := by
      funext row
      rw [hvalue row]
      rfl
    show List.mapM (fun row => do
        return (← Term.value (d.scope now row) (.column name place), d.scope now row)) rows = _
    rw [hpair, List.mapM_pure]
    rfl
  unfold sorted
  rw [hsorting]
  dsimp only
  rw [if_neg Bool.false_ne_true, hterm, hkeyed, Test.ok_bind]
  have hmap := List.map_mergeSort (f := fun row : StoredRow => (row.value ref, d.scope now row))
    (r := fun q r => precedes descending (q.value ref) (r.value ref))
    (s := fun a b => precedes descending a.1 b.1) (l := rows) fun _ _ _ _ => rfl
  rw [← hmap, List.map_map]
  rfl

end Order

end SelectStatement

/-! ### Rows in order -/

/-- The rows for which a test holds, each of them once. -/
structure StoredTable.IsFound (t : StoredTable) (now : Timestamp) (test : Test)
    (rows : List StoredRow) : Prop where
  mem : ∀ r, r ∈ rows ↔ r ∈ t.rows ∧ test.holds (t.definition.scope now r) = .ok true
  nodup : rows.Nodup

/-- The rows for which a test holds, sorted by a column.  Rows that are equal in it come in any
order. -/
structure StoredTable.IsSorted (t : StoredTable) (now : Timestamp) (test : Test)
    (column : ColumnRef) (descending : Bool) (rows : List StoredRow) : Prop
    extends t.IsFound now test rows where
  sorted : rows.Pairwise fun r s =>
    SelectStatement.precedes descending (r.value column) (s.value column)

/-- The rows for which a test holds, in the order of a column. -/
structure StoredTable.IsListed (t : StoredTable) (now : Timestamp) (test : Test)
    (column : ColumnRef) (descending : Bool) (rows : List StoredRow) : Prop where
  mem : ∀ r, r ∈ rows ↔ r ∈ t.rows ∧ test.holds (t.definition.scope now r) = .ok true
  ordered : rows.Pairwise (StoredRow.Before column descending)

namespace StoredTable

variable {t : StoredTable} {now later : Timestamp} {test : Test} {column : ColumnRef}
  {descending : Bool} {rows others : List StoredRow}

/-- What is found by a condition is found by a test that differs from it in places alone. -/
theorem isFound_of_sameTest {plan : Plan} {condition : Test} (hsame : SameTest condition test)
    (hfound : plan.found t now none = .ok rows)
    (hmem : ∀ r, r ∈ rows ↔
      r ∈ t.rows ∧ condition.holds (t.definition.scope now r) = .ok true) :
    t.IsFound now test rows :=
  ⟨fun r => by rw [hmem r, Test.holds_iff_of_unplaced_eq hsame],
    (Plan.nodup_of_found hfound).of_map⟩

theorem asymm_before (column : ColumnRef) (descending : Bool) {r s : StoredRow}
    (h : r.Before column descending s) : ¬ s.Before column descending r := by
  unfold StoredRow.Before at h ⊢
  rw [Cell.order_swap, h]
  cases descending <;> exact nofun

/-- There is one list of the rows. -/
theorem IsListed.unique (h : t.IsListed now test column descending rows)
    (h' : t.IsListed now test column descending others) : rows = others := by
  have hantisymm : Std.Antisymm (StoredRow.Before column descending) :=
    ⟨fun r s hrs hsr => absurd hsr (asymm_before column descending hrs)⟩
  have hirrefl : Std.Irrefl (StoredRow.Before column descending) :=
    ⟨fun r hr => asymm_before column descending hr hr⟩
  exact h.ordered.eq_of_mem_iff h'.ordered fun r => (h.mem r).trans (h'.mem r).symm

theorem IsListed.nodup (h : t.IsListed now test column descending rows) : rows.Nodup :=
  h.ordered.imp fun {q s} hqs he => by
    subst he
    exact asymm_before column descending hqs hqs

/-- Rows that are told apart by the column that they are sorted by are in strict order. -/
theorem IsSorted.isListed (h : t.IsSorted now test column descending rows)
    (hapart : ∀ r ∈ rows, ∀ s ∈ rows, (r.value column).order (s.value column) = .eq → r = s) :
    t.IsListed now test column descending rows := by
  refine ⟨h.mem, (h.nodup.and h.sorted).imp_of_mem fun {r s} hr hs hrs => ?_⟩
  have hne : (r.value column).order (s.value column) ≠ .eq :=
    fun he => hrs.1 (hapart r hr s hs he)
  cases descending with
  | false =>
    have hgt : (r.value column).order (s.value column) ≠ .gt := bne_iff_ne.1 hrs.2
    show (r.value column).order (s.value column) = .lt
    cases ho : (r.value column).order (s.value column) with
    | lt => rfl
    | eq => exact absurd ho hne
    | gt => exact absurd ho hgt
  | true =>
    have hlt : (r.value column).order (s.value column) ≠ .lt := bne_iff_ne.1 hrs.2
    show (r.value column).order (s.value column) = .gt
    cases ho : (r.value column).order (s.value column) with
    | lt => exact absurd ho hlt
    | eq => exact absurd ho hne
    | gt => rfl

theorem IsSorted.isListed_of_distinguishes (h : t.IsSorted now test column descending rows)
    (hapart : t.Distinguishes column) : t.IsListed now test column descending rows :=
  h.isListed fun r hr s hs => hapart.eq_of_order_eq ((h.mem r).1 hr).1 ((h.mem s).1 hs).1

/-- Rows that are found, once they are sorted. -/
theorem IsFound.isSorted_mergeSort (h : t.IsFound now test rows) (column : ColumnRef)
    (descending : Bool) :
    t.IsSorted now test column descending
      (rows.mergeSort fun r s =>
        SelectStatement.precedes descending (r.value column) (s.value column)) := by
  have hperm := List.mergeSort_perm rows fun r s =>
    SelectStatement.precedes descending (r.value column) (s.value column)
  exact ⟨⟨fun r => hperm.mem_iff.trans (h.mem r), hperm.nodup_iff.2 h.nodup⟩,
    SelectStatement.sorted_mergeSort descending column rows⟩

theorem exists_isListed (hkeyed : t.Keyed) (hprimary : t.definition.primary? = some column) :
    ∃ rows, t.IsListed now test column descending rows := by
  let found := t.rows.filter fun r => decide (test.holds (t.definition.scope now r) = .ok true)
  have hfound : t.IsFound now test found := by
    refine ⟨fun r => ?_, hkeyed.ordered.nodup.of_map.filter _⟩
    rw [List.mem_filter, decide_eq_true_eq]
  have hsorted := hfound.isSorted_mergeSort column descending
  exact ⟨_, hsorted.isListed_of_distinguishes (hkeyed.distinguishes hprimary)⟩

/-- What is found does not depend on the clock, if the test does not. -/
theorem mem_iff_at_any_time {P : String → Prop} (htest : test.OnlyColumns P)
    (h : ∀ r, r ∈ rows ↔ r ∈ t.rows ∧ test.holds (t.definition.scope now r) = .ok true)
    (later : Timestamp) (r : StoredRow) :
    r ∈ rows ↔ r ∈ t.rows ∧ test.holds (t.definition.scope later r) = .ok true := by
  have hsame : test.holds (t.definition.scope later r) = test.holds (t.definition.scope now r) :=
    Test.holds_congr htest fun _ _ => rfl
  rw [h r, hsame]

theorem IsFound.at_any_time {P : String → Prop} (htest : test.OnlyColumns P)
    (h : t.IsFound now test rows) (later : Timestamp) : t.IsFound later test rows :=
  ⟨mem_iff_at_any_time htest h.mem later, h.nodup⟩

theorem IsListed.at_any_time {P : String → Prop} (htest : test.OnlyColumns P)
    (h : t.IsListed now test column descending rows) (later : Timestamp) :
    t.IsListed later test column descending rows :=
  ⟨mem_iff_at_any_time htest h.mem later, h.ordered⟩

end StoredTable

/-- What is found first of all that is found. -/
theorem Plan.found_take {t : StoredTable} {plan : Plan} {now : Timestamp} {rows : List StoredRow}
    (n : Nat) (h : plan.found t now none = .ok rows) :
    plan.found t now (some n) = .ok (rows.take n) := by
  unfold found at h ⊢
  obtain ⟨b, hb, h⟩ := Test.bind_eq_ok h
  rw [hb, Test.ok_bind]
  cases b with
  | false =>
    rw [← Except.ok.inj h, List.take_nil]
    rfl
  | true => exact gather_take n h

end Sql

/-! ### The query of a page -/

section Page

variable {r : Resource} {a : Access r} {request : ListRequest} {f : Filter} {s : SelectStatement}
  {t : StoredTable} {db : Database} {now : Timestamp} {ref : ColumnRef}

/-- The columns that an access names are those of a table of the database. -/
structure Access.Fits (a : Access r) (d : TableDef) : Prop where
  columns : ∀ c ∈ r.table.columns.columns, (d.resolve c.name).isSome = true
  fields : ∀ field ∈ a.rules.fields.keys, (d.resolve (columnOf field)).isSome = true

/-- What the rows of a page are sorted by: a column, which no other column is shown as. -/
structure ListRequest.SortsBy (request : ListRequest) (a : Access r) (d : TableDef)
    (ref : ColumnRef) : Prop where
  column : request.page.sortOf a.pages ∈ r.table.columns.names
  resolves : d.resolve (request.page.sortOf a.pages) = some ref
  own : ∀ c ∈ r.table.columns.shown request.fields,
    sameName c.title (request.page.sortOf a.pages) = true → c.name = request.page.sortOf a.pages

/-- What the rows of a page are ordered by: the primary key, which no other column is shown
as. -/
structure ListRequest.OrdersByKey (request : ListRequest) (a : Access r) (d : TableDef)
    (ref : ColumnRef) : Prop where
  column : request.page.sortOf a.pages ∈ r.table.columns.names
  resolves : d.resolve (request.page.sortOf a.pages) = some ref
  primary : d.primary? = some ref
  own : ∀ c ∈ r.table.columns.shown request.fields,
    sameName c.title (request.page.sortOf a.pages) = true → c.name = request.page.sortOf a.pages

theorem ListRequest.OrdersByKey.sortsBy {d : TableDef} (h : request.OrdersByKey a d ref) :
    request.SortsBy a d ref :=
  ⟨h.column, h.resolves, h.own⟩

/-- A page is sorted by the column that it names, or by one that is shown under that name. -/
theorem ListRequest.IsRead.sortTerm_cases (hread : request.IsRead a f s) (offset : Nat) :
    ∃ name place, s.sortTerm (.term (.column (request.page.sortOf a.pages) offset)) =
      .column name place ∧ (name = request.page.sortOf a.pages ∨
        ∃ c ∈ r.table.columns.shown request.fields,
          sameName c.title (request.page.sortOf a.pages) = true ∧ c.name = name) := by
  unfold SelectStatement.sortTerm
  dsimp only
  cases hfind : s.outputs.find? fun o => sameName o.title (request.page.sortOf a.pages) with
  | none => exact ⟨_, offset, rfl, .inl rfl⟩
  | some o =>
    obtain ⟨c, hc, place, rfl⟩ :=
      exists_mem_of_forall₂ hread.outputs.flip o (List.mem_of_find?_eq_some hfind)
    have htitle := List.find?_some (p := fun o : Output =>
      sameName o.title (request.page.sortOf a.pages)) hfind
    exact ⟨c.name, place, rfl, .inr ⟨c, hc, htitle, rfl⟩⟩

/-- The rows are sorted by the column, whether or not it is among those that are shown. -/
theorem ListRequest.IsRead.sortsOn (hread : request.IsRead a f s)
    (hsort : request.SortsBy a t.definition ref) :
    s.SortsOn t.definition ref (request.page.order == .descending) := by
  obtain ⟨offset, hsorting⟩ := hread.sorting
  obtain ⟨name, place, hterm, hname⟩ := hread.sortTerm_cases offset
  refine ⟨_, offset, name, place, hsorting, hterm, ?_⟩
  rcases hname with rfl | ⟨c, hc, htitle, rfl⟩
  · exact hsort.resolves
  · rw [hsort.own c hc htitle]
    exact hsort.resolves

/-- The rows are sorted by some column, if the page names one. -/
theorem ListRequest.IsRead.exists_sortsOn (hread : request.IsRead a f s)
    (hfits : a.Fits t.definition) (hsort : request.page.sortOf a.pages ∈ r.table.columns.names) :
    ∃ ref, s.SortsOn t.definition ref (request.page.order == .descending) := by
  obtain ⟨offset, hsorting⟩ := hread.sorting
  obtain ⟨name, place, hterm, hname⟩ := hread.sortTerm_cases offset
  have hresolves : (t.definition.resolve name).isSome = true := by
    rcases hname with rfl | ⟨c, hc, -, rfl⟩
    · obtain ⟨c, hc, hname⟩ := List.mem_map.1 hsort
      exact hname ▸ hfits.columns c hc
    · exact hfits.columns c (Registry.mem_columns_of_shown hc)
  obtain ⟨ref, href⟩ := Option.isSome_iff_exists.1 hresolves
  exact ⟨ref, _, offset, name, place, hsorting, hterm, href⟩

/-- The names of the query are there. -/
theorem Sql.Database.prepare_page (ht : db.table r.table.name = .ok t)
    (hread : request.IsRead a f s) (hfits : a.Fits t.definition) {descending : Bool}
    (hsort : s.SortsOn t.definition ref descending) (hwords : f.HasColumnWords)
    (hrules : f.RulesPass a.rules) : db.prepare now (.select s) = .ok () := by
  obtain ⟨test, hcondition, hsame⟩ := hread.condition
  obtain ⟨key, offset, name, place, hsorting, hterm, href⟩ := hsort
  have hcolumns : ∀ c ∈ r.table.columns.shown request.fields,
      (t.definition.resolve c.name).isSome = true :=
    fun c hc => hfits.columns c (Registry.mem_columns_of_shown hc)
  -- The test looks at columns that are there.
  have honly : (f.asTest a.rules.fields).OnlyColumns fun name =>
      (t.definition.resolve name).isSome = true :=
    Filter.onlyColumns_asTest hwords (Filter.forall_place_of_rulesPass
      (P := fun name => (t.definition.resolve name).isSome = true) hrules hfits.fields)
  have htest : test.checkNames (t.definition.scope now (t.definition.blankRow 0)) = .ok () :=
    (Test.checkNames_iff_of_unplaced_eq hsame).2
      (Test.checkNames_of_onlyColumns honly fun name hname => TableDef.isSome_slot? hname)
  have hsize : test.oversized? = none :=
    (Test.oversized?_iff_of_unplaced_eq hsame).2 (Test.oversized?_of_onlyColumns honly)
  have hnames : s.checkNames (t.definition.scope now (t.definition.blankRow 0)) = .ok () := by
    unfold SelectStatement.checkNames
    rw [SelectStatement.checkNames_outputs hread.outputs hcolumns, Test.ok_bind, hcondition,
      hsorting]
    show (test.checkNames _ >>= fun _ => (s.sortTerm _).checkNames _) = _
    rw [htest, Test.ok_bind, hterm]
    exact t.definition.checkNames_column (by rw [href]; rfl) place
  have hposition : s.checkPosition = .ok () := by
    unfold SelectStatement.checkPosition
    rw [hsorting]
    rfl
  have hsizes : s.oversized? = none := by
    have houtputs : (s.outputs.findSome? fun o => o.term?.bind Term.oversized?) = none := by
      refine List.findSome?_eq_none_iff.2 fun o ho => ?_
      obtain ⟨c, -, offset, rfl⟩ := exists_mem_of_forall₂ hread.outputs.flip o ho
      rfl
    unfold SelectStatement.oversized?
    rw [houtputs, hcondition, hsorting]
    show ((none : Option Fault).or test.oversized?).or (s.sortTerm _).oversized? = none
    rw [hsize, hterm]
    rfl
  unfold prepare
  dsimp only
  rw [hread.table]
  dsimp only
  rw [ht, Test.ok_bind, hnames, Test.ok_bind, hposition, Test.ok_bind, hsizes]
  rfl

/-- **A page is a window of the rows that are found**, whichever columns are shown.  They are
sorted by the column that it asks for, if its values are as the column stores them. -/
theorem Sql.Database.select_window (ht : db.table r.table.name = .ok t)
    (hread : request.IsRead a f s) (hfits : a.Fits t.definition)
    (hsort : s.SortsOn t.definition ref (request.page.order == .descending))
    (hexact : db.SelectsExactly now s) (hlimit : 0 < request.page.limit.val) :
    ∃ rows, t.IsFound now (f.asTest a.rules.fields) rows ∧
      (t.Indexed → (∀ row ∈ t.rows,
        (t.definition.affinity ref).adapt (row.value ref) = row.value ref) →
          rows.Pairwise fun q r => SelectStatement.precedes (request.page.order == .descending)
            (q.value ref) (r.value ref)) ∧
      db.select now s = .ok (((rows.drop request.page.start.val.toNat).take
        request.page.limit.val.toNat).map
          (t.definition.shownRow (r.table.columns.shown request.fields))) := by
  obtain ⟨test, hcondition, hsame⟩ := hread.condition
  obtain ⟨found, hfound, hmem⟩ := hexact r.table.name t test hread.table ht hcondition
  have hcounts := SelectStatement.counts_of_isOutput hread.outputs
  have hcolumns : ∀ c ∈ r.table.columns.shown request.fields,
      (t.definition.resolve c.name).isSome = true :=
    fun c hc => hfits.columns c (Registry.mem_columns_of_shown hc)
  have hfinds : t.IsFound now (f.asTest a.rules.fields) found :=
    StoredTable.isFound_of_sameTest hsame hfound hmem
  -- The rows that the query gives of some rows in order.
  have hgiven (rows : List StoredRow) :
      (s.windowed (rows.map (t.definition.scope now))).mapM (s.resultRow 0) =
        .ok (((rows.drop request.page.start.val.toNat).take request.page.limit.val.toNat).map
          (t.definition.shownRow (r.table.columns.shown request.fields))) := by
    unfold SelectStatement.windowed
    rw [hread.window]
    dsimp only
    rw [← List.map_drop, ← List.map_take, List.mapM_map]
    have hrow : (fun row => s.resultRow 0 (t.definition.scope now row)) = fun row =>
        (pure (t.definition.shownRow (r.table.columns.shown request.fields) row) :
          Except Fault ResultRow) :=
      funext fun row => SelectStatement.resultRow_eq hread.outputs hcolumns 0
    show List.mapM (fun row => s.resultRow 0 (t.definition.scope now row)) _ = _
    rw [hrow, List.mapM_pure]
    rfl
  have hmost : s.most (s.plan t.definition) = if (s.plan t.definition).ordered then
      some (request.page.limit.val.toNat + request.page.start.val.toNat) else none := by
    obtain ⟨limit, hpositive⟩ : ∃ limit, request.page.limit.val.toNat = limit + 1 :=
      Nat.exists_eq_succ_of_ne_zero (by omega)
    unfold SelectStatement.most
    rw [hread.window, hcounts, hpositive, Bool.not_false, Bool.and_true]
    rfl
  have hresults (rows : List StoredRow) (ordered : Bool) :
      s.results now ordered (rows.map (t.definition.scope now)) =
        s.sorted ordered (rows.map (t.definition.scope now)) >>= fun scopes =>
          (s.windowed scopes).mapM (s.resultRow 0) := by
    unfold SelectStatement.results
    rw [hcounts]
    rfl
  unfold select
  rw [hread.table]
  dsimp only
  rw [ht, Test.ok_bind, hmost]
  cases hordered : (s.plan t.definition).ordered with
  | true =>
    -- The rows come in the order, and no more of them than the window ends with.
    refine ⟨found, hfinds, fun hindexed hstored => Plan.sorted_of_ordered hindexed hstored
      (SelectStatement.order_eq hcounts hsort) rfl hordered hfound, ?_⟩
    rw [if_pos rfl, Plan.found_take _ hfound, Test.ok_bind, hresults,
      SelectStatement.sorted_of_ordered hsort, Test.ok_bind, hgiven, List.drop_take,
      List.take_take]
    congr 3
    omega
  | false =>
    have hsorted := hfinds.isSorted_mergeSort ref (request.page.order == .descending)
    refine ⟨_, hsorted.toIsFound, fun _ _ => hsorted.sorted, ?_⟩
    rw [if_neg Bool.false_ne_true, hfound, Test.ok_bind, hresults,
      SelectStatement.sorted_eq hsort, Test.ok_bind, hgiven]

end Page

/-! ### The records of a page -/

namespace Access

variable {r : Resource} {a : Access r} {request : ListRequest} {v : ValidFilter a.rules}
  {caller : Caller} {s : Session} {t : StoredTable} {now : Timestamp} {ref : ColumnRef}

/-- The test of an accepted filter looks at the columns that fields begin with. -/
theorem HasColumnNames.onlyColumns {P : String → Prop} (hnames : a.HasColumnNames)
    (hcrown : Filter.CrownPasses a.rules a.options.crown)
    (hfields : ∀ field ∈ a.rules.fields.keys, P (columnOf field)) :
    ((v.arranged a.options).asTest a.rules.fields).OnlyColumns P :=
  Filter.onlyColumns_asTest (Filter.forall_place_of_rulesPass (v.rulesPass hcrown) hnames.words)
    (Filter.forall_place_of_rulesPass (v.rulesPass hcrown) hfields)

theorem limit_pos_of_validate (hvalid : request.validate a.rules a.pages = .ok v)
    (hcount : request.page.count = false) : 0 < request.page.limit.val := by
  have hpage := (ListRequest.accepted_of_validate hvalid).page
  have hleast : 0 ≤ request.page.limit.val := request.page.limit.holds.1
  unfold Page.check at hpage
  rw [hcount, if_neg Bool.false_ne_true] at hpage
  split at hpage
  · cases hpage
  · omega

/-- What a page is answered with: the records of a window of rows, or why one of them cannot be
read. -/
def answerPage (p : Page) (read : StoredRow → Checked r.Item) (rows : List StoredRow) :
    Except Failure (Listing r.Item) :=
  ((((rows.drop p.start.val.toNat).take p.limit.val.toNat).mapM read).map fun details =>
    { details }).mapError Failure.request

/-- **The records of a page are those of a window of the rows that are found.**  They are sorted
by a column, if its values are as the column stores them: the one that the page asks for, unless
another one is shown under its name. -/
theorem list_window (hcheck : s.signals.check caller = .ok ()) (hnames : a.HasColumnNames)
    (hcrown : Filter.CrownPasses a.rules a.options.crown)
    (hvalid : request.validate a.rules a.pages = .ok v) (hcount : request.page.count = false)
    (ht : s.database.table r.table.name = .ok t) (hfits : a.Fits t.definition)
    (hshown : r.table.columns.shown request.fields ≠ [])
    (hsort : request.page.sortOf a.pages ∈ r.table.columns.names)
    (hexact : a.SelectsExactly request s) :
    ∃ column rows, (∀ ref, request.SortsBy a t.definition ref → ref = column) ∧
      (∀ now, t.IsFound now ((v.arranged a.options).asTest a.rules.fields) rows) ∧
      (t.Indexed → (∀ row ∈ t.rows,
        (t.definition.affinity column).adapt (row.value column) = row.value column) →
          rows.Pairwise fun q r => SelectStatement.precedes (request.page.order == .descending)
            (q.value column) (r.value column)) ∧
      (a.list caller request s).1 = answerPage request.page (fun row => r.ofRow (Row.ofResult
        (t.definition.shownRow (r.table.columns.shown request.fields) row))) rows := by
  obtain ⟨q, sql, cells, select, hq, hbound, hstatement, hread⟩ :=
    exists_page_read hnames hcrown hvalid hcount hshown hsort
  obtain ⟨column, hcolumn⟩ := hread.exists_sortsOn hfits hsort
  have hrules := v.rulesPass hcrown
  have hprepare : s.database.prepare (s.clock.addMicros 1) (.select select) = .ok () :=
    Database.prepare_page ht hread hfits hcolumn
      (Filter.forall_place_of_rulesPass hrules hnames.words) hrules
  obtain ⟨rows, hfound, hsorted, hselect⟩ := Database.select_window ht hread hfits hcolumn
    (hexact q sql cells select hq hbound hstatement) (limit_pos_of_validate hvalid hcount)
  have honly : ((v.arranged a.options).asTest a.rules.fields).OnlyColumns fun name =>
      (t.definition.resolve name).isSome = true := hnames.onlyColumns hcrown hfits.fields
  refine ⟨column, rows, fun ref href => (hread.sortsOn href).unique hcolumn,
    hfound.at_any_time honly, hsorted, ?_⟩
  have hrun : s.database.run (s.clock.addMicros 1) (.select select) =
      .ok (⟨((rows.drop request.page.start.val.toNat).take request.page.limit.val.toNat).map
        (t.definition.shownRow (r.table.columns.shown request.fields)), 0⟩, s.database) := by
    unfold Database.run
    dsimp only
    rw [hselect]
    rfl
  rw [list_run hcheck hq hbound hstatement hprepare hrun, answer, hcount,
    if_neg Bool.false_ne_true, List.map_map, List.mapM_map]
  rfl

/-- **The records of a page are those of a window of the rows, sorted by the column that it asks
for.** -/
theorem list_sorted (hcheck : s.signals.check caller = .ok ()) (hnames : a.HasColumnNames)
    (hcrown : Filter.CrownPasses a.rules a.options.crown)
    (hvalid : request.validate a.rules a.pages = .ok v) (hcount : request.page.count = false)
    (hshown : r.table.columns.shown request.fields ≠ [])
    (ht : s.database.table r.table.name = .ok t) (hfits : a.Fits t.definition)
    (hsort : request.SortsBy a t.definition ref) (hindexed : t.Indexed)
    (hstored : ∀ row ∈ t.rows,
      (t.definition.affinity ref).adapt (row.value ref) = row.value ref)
    (hexact : a.SelectsExactly request s) :
    ∃ rows, (∀ now, t.IsSorted now ((v.arranged a.options).asTest a.rules.fields) ref
        (request.page.order == .descending) rows) ∧
      (a.list caller request s).1 = answerPage request.page (fun row => r.ofRow (Row.ofResult
        (t.definition.shownRow (r.table.columns.shown request.fields) row))) rows := by
  obtain ⟨column, rows, hcolumn, hfound, hsorted, hlist⟩ :=
    list_window hcheck hnames hcrown hvalid hcount ht hfits hshown hsort.column hexact
  obtain rfl := hcolumn ref hsort
  exact ⟨rows, fun now => ⟨hfound now, hsorted hindexed hstored⟩, hlist⟩

/-- **The records of a page are a window of those of all rows in order.** -/
theorem list_page (hcheck : s.signals.check caller = .ok ()) (hnames : a.HasColumnNames)
    (hcrown : Filter.CrownPasses a.rules a.options.crown)
    (hvalid : request.validate a.rules a.pages = .ok v) (hcount : request.page.count = false)
    (hshown : r.table.columns.shown request.fields ≠ [])
    (ht : s.database.table r.table.name = .ok t) (hfits : a.Fits t.definition)
    (hkey : request.OrdersByKey a t.definition ref) (hkeyed : t.Keyed)
    (hexact : a.SelectsExactly request s) {listed : List StoredRow}
    (hlisted : t.IsListed now ((v.arranged a.options).asTest a.rules.fields) ref
      (request.page.order == .descending) listed) {items : List r.Item}
    (hitems : List.Forall₂ (fun row item => r.ofRow (Row.ofResult
      (t.definition.shownRow (r.table.columns.shown request.fields) row)) = .ok item)
        listed items) :
    (a.list caller request s).1 = .ok { details :=
      (items.drop request.page.start.val.toNat).take request.page.limit.val.toNat } := by
  have hapart := hkeyed.distinguishes hkey.primary
  obtain ⟨rows, hsorted, hlist⟩ := list_sorted hcheck hnames hcrown hvalid hcount hshown ht hfits
    hkey.sortsBy hkeyed.indexed hapart.stored hexact
  obtain rfl := ((hsorted now).isListed_of_distinguishes hapart).unique hlisted
  have hwindow := List.forall₂_take request.page.limit.val.toNat
    (List.forall₂_drop request.page.start.val.toNat hitems)
  rw [hlist, answerPage, mapM_eq_ok_iff.2 hwindow]
  rfl

/-- **A count gives the number of all rows**, whatever else its page asks for. -/
theorem list_total (hcheck : s.signals.check caller = .ok ()) (hnames : a.HasColumnNames)
    (hcrown : Filter.CrownPasses a.rules a.options.crown)
    (hvalid : request.validate a.rules a.pages = .ok v) (hcount : request.page.count = true)
    (ht : s.database.table r.table.name = .ok t) (hfits : a.Fits t.definition)
    (hexact : a.SelectsExactly request s) {descending : Bool} {listed : List StoredRow}
    (hlisted : t.IsListed now ((v.arranged a.options).asTest a.rules.fields) ref descending listed)
    (hmany : t.rows.length < 2 ^ 63) :
    ∃ n, (a.list caller request s).1 = .ok { count := some n } ∧ n.val = listed.length := by
  obtain ⟨q, sql, cells, u, hq, hbound, hstatement, hsame⟩ :=
    exists_total_read hnames hcrown hvalid hcount
  obtain ⟨found, hfound, hmem⟩ :=
    hexact q sql cells _ hq hbound hstatement r.table.name t u rfl ht rfl
  have honly : ((v.arranged a.options).asTest a.rules.fields).OnlyColumns fun name =>
      (t.definition.resolve name).isSome = true := hnames.onlyColumns hcrown hfits.fields
  have hcondition : Database.checkCondition
      (t.definition.scope (s.clock.addMicros 1) (t.definition.blankRow 0))
      (some ((v.arranged a.options).asTest a.rules.fields)) = .ok () := by
    show (Test.checkNames _ _ >>= fun _ => Database.absent (Test.oversized? _)) = _
    rw [Test.checkNames_of_onlyColumns honly fun _ hname => TableDef.isSome_slot? hname,
      Test.ok_bind, Test.oversized?_of_onlyColumns honly]
    rfl
  -- The count finds the rows that are listed.
  have hnow := hlisted.at_any_time honly (s.clock.addMicros 1)
  have hperm : found.Perm listed :=
    (List.perm_ext_iff_of_nodup (Plan.nodup_of_found hfound).of_map hlisted.nodup).2 fun row => by
      rw [hmem row, hnow.mem row, Test.holds_iff_of_unplaced_eq hsame]
  have hsmall : found.length < 2 ^ 63 := by
    have hsub := (List.subperm_of_subset (Plan.nodup_of_found hfound).of_map
      (StoredTable.mem_of_mem_found hfound)).length_le
    omega
  obtain ⟨n, hn, hval⟩ := list_count hcheck hcount hq hbound hstatement ht hsame.symm hcondition
    hfound hsmall
  exact ⟨n, hn, by rw [hval, hperm.length_eq]⟩

end Access

end ResourceTable
