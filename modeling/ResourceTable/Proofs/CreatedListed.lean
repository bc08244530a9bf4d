import ResourceTable.Proofs.BatchCreation
import ResourceTable.Proofs.ShownRow
import ResourceTable.Proofs.SingleTest
import ResourceTable.Proofs.StoredLeaf

/-!
# Listing what was created

A record that is created goes through a flat record, the cells that are bound for it, a row of
its table, and a projection that shows its columns under other names.  Asked for by its
identifier, it comes back as it was, with the identifier that it was given; only its time
columns have the reading of the clock.

Rows are told apart by their identifiers: those of one batch are distinct, and a row whose
identifier is taken is not added.

## Main definitions

* `ListRequest.AsksFor`: a request for the record of an identifier.
* `Resource.IsKeptIn`: the records of a table are kept in a table of the database.
* `Resource.Keeps`: what the database keeps of a record is enough to read it back.
* `Resource.Adds`: a table to which records were added with their identifiers.

## Main results

* `Access.list_key` — a request for an identifier is answered with the record of its row.
* `IsKeptIn.ofRow_eq` — a row that a record was stored in shows the record.
* `IsKeptIn.order_id_eq_iff` — one row has an identifier that was given.
* `Resource.Adds.lists` — a record that was added is listed by its identifier.
* `Access.lists_created` — **what is created is what is listed.**
-/

namespace ResourceTable

open Sql

/-! ### Requests for an identifier -/

/-- The rule that the identifier is this one. -/
def Rule.ofId (id : String) : Rule := ⟨"id", .equal, .single (.text id)⟩

/-- The names of a table are read as columns: they can be written into statements, and are no
keywords. -/
structure Table.IsReadable (t : Table) : Prop extends t.IsPlain where
  free : Keyword.isReserved t.name = false
  names : ∀ c ∈ t.columns.columns, Parse.IsPlain c.name

section Requests

variable {r : Resource} {a : Access r} {request : ListRequest} {id : String}

/-- A request for the record of an identifier, from its first row on and with all columns, in
the order of some column. -/
structure ListRequest.AsksFor (request : ListRequest) (a : Access r) (id : String) : Prop where
  filter : request.filter = some (.rule (.ofId id))
  fields : request.fields = []
  rows : request.page.count = false
  start : request.page.start.val = 0
  page : request.page.check a.pages a.rules.fields = .ok ()
  sort : request.page.sortOf a.pages ∈ r.table.columns.names

/-- A condition that is read as a comparison of a column with a value is one. -/
theorem Sql.Parse.SameTest.exists_compare {test : Test} {op : Comparison} {name : String} {c : Cell}
    (h : Parse.SameTest test (.compare op (.column name 0) (.literal c))) :
    ∃ offset, test = .compare op (.column name offset) (.literal c) := by
  have hunplaced : test.unplaced = .compare op (.column name 0) (.literal c) := h
  cases test with
  | compare op' a b =>
    obtain ⟨rfl, ha, hb⟩ := Test.compare.inj hunplaced
    cases b with
    | literal c' =>
      cases hb
      cases a with
      | column name' offset =>
        cases ha
        exact ⟨offset, rfl⟩
      | _ => cases ha
    | _ => cases hb
  | _ => cases hunplaced

/-- The access through which identifiers can be asked for and nothing else, in the order of a
page. -/
def Access.keyed (a : Access r) (request : ListRequest) : Access r where
  pages := { a.pages with defaultSort := request.page.sortOf a.pages }
  rules := { a.rules with fields := .ofList [("id", .string)] }
  options := { a.options with crown := none }

/-- The request that leaves the order to the access. -/
def ListRequest.unsorted (request : ListRequest) : ListRequest :=
  { request with page := { request.page with sort := none } }

/-- That the request leaves the order to the access makes no difference. -/
theorem ListRequest.AsksFor.unsorted (h : request.AsksFor a id) :
    request.unsorted.AsksFor (a.keyed request) id where
  filter := h.filter
  fields := h.fields
  rows := h.rows
  start := h.start
  page := by
    have hpage := h.page
    unfold Page.check at hpage ⊢
    rw [h.rows, if_neg Bool.false_ne_true] at hpage
    have hrows : request.unsorted.page.count = false := h.rows
    rw [hrows, if_neg Bool.false_ne_true]
    split at hpage
    · cases hpage
    · next hlimit =>
      split at hpage
      · cases hpage
      · next hmost => exact (if_neg hlimit).trans (if_neg hmost)
  sort := h.sort

theorem Rule.check_ofId {rules : FilterRules} (h : rules.fields.get? "id" = some .string) :
    (Rule.ofId id).check rules = .ok () := by
  have hfield : (Rule.ofId id).checkField .string = .ok () := by
    have hname : "id".toList.contains '.' = false := by decide
    unfold checkField
    simp only [ofId, hname]
    rfl
  have hoperand (limit : Nat) : (Rule.ofId id).checkOperand .string limit = .ok () := rfl
  unfold check
  rw [if_neg (by simp only [ofId]; decide)]
  have hknown : rules.fields.get? (Rule.ofId id).field = some .string := h
  rw [hknown]
  show ((Rule.ofId id).checkField .string >>= fun _ => (Rule.ofId id).checkOperand .string _) = _
  simp only [hfield, hoperand, bind, Except.bind]

/-- The rule for an identifier, as it passed the check. -/
def ValidFilter.ofId {rules : FilterRules} (h : rules.fields.get? "id" = some .string)
    (id : String) : ValidFilter rules :=
  ⟨.rule (.ofId id), Rule.check_ofId h⟩

theorem Filter.validate_ofId {rules : FilterRules} (h : rules.fields.get? "id" = some .string) :
    (Filter.rule (.ofId id)).validate rules = .ok (.ofId h id) := by
  have hcheck : (Filter.rule (.ofId id)).check rules = .ok () := Rule.check_ofId h
  unfold validate
  split
  · rfl
  · next e he =>
    rw [hcheck] at he
    cases he

/-- A request for an identifier is accepted. -/
theorem ListRequest.AsksFor.validate (h : request.AsksFor a id)
    (hfield : a.rules.fields.get? "id" = some .string) :
    request.validate a.rules a.pages = .ok (.ofId hfield id) := by
  unfold ListRequest.validate
  rw [h.filter]
  dsimp only
  rw [Filter.validate_ofId hfield, h.page, h.fields]
  rfl

/-- The rule for an identifier is compiled alike wherever identifiers are texts. -/
theorem ValidFilter.compile_ofId {rules others : FilterRules}
    (h : rules.fields.get? "id" = some .string) (h' : others.fields.get? "id" = some .string)
    {options : CompileOptions} (hcrown : ∀ op cs, options.crown = some (op, cs) → cs = [])
    (id : String) : (ofId h id).compile options =
      (ofId h' id).compile { options with crown := none } := by
  have hcrowned : (ofId h id).crowned options = .ok (.rule (.ofId id)) := by
    unfold crowned
    split
    · next op c cs hsome => cases hcrown op _ hsome
    · rfl
  have hlower (n : Naming) : (Rule.ofId id).lower rules.fields n =
      (Rule.ofId id).lower others.fields n := by
    rw [Rule.lower, Rule.lower]
    dsimp only [Rule.ofId]
    rw [h, h']
  have hall (n : Naming) : (Filter.rule (.ofId id)).lower rules.fields n =
      (Filter.rule (.ofId id)).lower others.fields n := hlower n
  unfold compile
  rw [hcrowned]
  simp only [bind, Except.bind, crowned, Filter.prioritize, ofId, hall]

/-- The rule for an identifier tests the column of identifiers. -/
theorem ValidFilter.asTest_ofId {rules : FilterRules} (h : rules.fields.get? "id" = some .string)
    {options : CompileOptions} (hcrown : options.crown = none) (id : String) :
    ((ofId h id).arranged options).asTest rules.fields =
      .compare .equal (.column "id" 0) (.literal (.text id)) := by
  have harranged : (ofId h id).arranged options = .rule (.ofId id) := by
    rw [arranged, hcrown]
    rfl
  have hword : Term.ofWord "id" = .column "id" 0 := Term.ofWord_eq (by decide)
  have htest : (Rule.ofId id).asTest (some .string) =
      .compare .equal (Term.ofWord "id") (.literal (.text id)) := rfl
  rw [harranged, ← hword, ← htest, ← h]
  rfl

namespace Access

/-- What is asked for does not depend on what else may be asked for. -/
theorem listQuery_keyed (h : request.AsksFor a id)
    (hfield : a.rules.fields.get? "id" = some .string)
    (hcrown : ∀ op cs, a.options.crown = some (op, cs) → cs = []) :
    (a.keyed request).listQuery request.unsorted = a.listQuery request := by
  have hkeyed : (a.keyed request).rules.fields.get? "id" = some .string :=
    NameMap.get?_insert_self _ _ _
  have hpasses : Filter.CrownPasses a.rules a.options.crown := fun op cs hsome => by
    rw [hcrown op cs hsome]
    rfl
  have hclause := (ValidFilter.ofId hfield id).compile_eq hpasses
  have hclause' := hclause
  rw [ValidFilter.compile_ofId hfield hkeyed hcrown] at hclause'
  rw [listQuery_eq (h.validate hfield) hclause rfl,
    listQuery_eq (h.unsorted.validate hkeyed) hclause' rfl]
  rfl

theorem list_congr {b : Access r} {other : ListRequest}
    (hquery : a.listQuery request = b.listQuery other)
    (hcount : request.page.count = other.page.count) (caller : Caller) :
    a.list caller request = b.list caller other := by
  unfold list
  rw [hquery, hcount]

variable {s : Session} {t : StoredTable} {ref : ColumnRef} {row : StoredRow} {caller : Caller}

/-- The rows that are tested for an identifier are those that have it. -/
theorem holds_asTest_ofId_iff {now : Timestamp} (href : t.definition.resolve "id" = some ref)
    (q : StoredRow) :
    (Test.compare .equal (.column "id" 0) (.literal (.text id))).holds (t.definition.scope now q) =
        .ok true ↔
      ((t.definition.affinity ref).adapt (q.value ref)).order
        ((t.definition.affinity ref).adapt (.text id)) = .eq := by
  have hslot : (t.definition.scope now q).column? "id" =
      some ⟨t.definition.affinity ref, q.value ref⟩ := by
    show t.definition.slot? q "id" = _
    rw [TableDef.slot?, href]
    rfl
  rw [Test.holds_equal_column_iff hslot 0 (.text id)]
  have hthere : ((t.definition.affinity ref).adapt (.text id)).isNull = false :=
    Affinity.isNull_adapt _ _
  refine ⟨fun h => h.2.2, fun h => ⟨?_, hthere, h⟩⟩
  -- What is equal to a text is not null.
  dsimp only
  cases hcell : (t.definition.affinity ref).adapt (q.value ref) with
  | null =>
    rw [hcell] at h
    cases hid : (t.definition.affinity ref).adapt (.text id) with
    | null =>
      rw [hid] at hthere
      cases hthere
    | _ =>
      rw [hid] at h
      cases h
  | _ => rfl

/-- A query of an identifier finds exactly its rows. -/
theorem selectsExactly_key {v : ValidFilter a.rules} (hnames : a.HasColumnNames)
    (hcrown : Filter.CrownPasses a.rules a.options.crown)
    (hvalid : request.validate a.rules a.pages = .ok v) (hcount : request.page.count = false)
    (hshown : r.table.columns.shown request.fields ≠ [])
    (hsort : request.page.sortOf a.pages ∈ r.table.columns.names) {name : String} {c : Cell}
    (htest : (v.arranged a.options).asTest a.rules.fields =
      .compare .equal (.column name 0) (.literal c))
    (ht : s.database.table r.table.name = .ok t) (href : t.definition.resolve name = some ref)
    (hordered : t.Ordered) : a.SelectsExactly request s := by
  obtain ⟨q, sql, cells, select, hq, hbound, hstatement, hread⟩ :=
    exists_page_read hnames hcrown hvalid hcount hshown hsort
  obtain ⟨test, hcondition, hsame⟩ := hread.condition
  rw [htest] at hsame
  obtain ⟨offset, rfl⟩ := hsame.exists_compare
  have hsingle : (Test.compare .equal (.column name offset) (.literal c)).IsSingle t.definition := by
    refine ⟨nofun, nofun, ?_⟩
    rw [Test.isConstant, Test.columns, Term.columns, href]
    rfl
  refine selectsExactly_of_read hq hbound hstatement
    (SelectStatement.selectsExactly_of_isSingle hread.table ht hcondition hsingle hordered
      fun row _ => ?_)
  have hslot : (t.definition.scope (s.clock.addMicros 1) row).column? name =
      some ⟨t.definition.affinity ref, row.value ref⟩ := by
    show t.definition.slot? row name = _
    rw [TableDef.slot?, href]
    rfl
  exact ⟨_, Test.holds_of_truth (Test.truth_compare_column hslot .equal offset c)⟩

/-- **A request for an identifier is answered with the record of its row.** -/
theorem list_key (h : request.AsksFor a id) (hfield : a.rules.fields.get? "id" = some .string)
    (hcrown : ∀ op cs, a.options.crown = some (op, cs) → cs = [])
    (hreadable : r.table.IsReadable) (hcheck : s.signals.check caller = .ok ())
    (ht : s.database.table r.table.name = .ok t)
    (hcolumns : ∀ c ∈ r.table.columns.columns, (t.definition.resolve c.name).isSome = true)
    (href : t.definition.resolve "id" = some ref) (hordered : t.Ordered) (hrow : row ∈ t.rows)
    (honly : ∀ q ∈ t.rows, ((t.definition.affinity ref).adapt (q.value ref)).order
      ((t.definition.affinity ref).adapt (.text id)) = .eq ↔ q = row) {item : r.Item}
    (hitem : r.ofRow (Row.ofResult (t.definition.shownRow (r.table.columns.shown []) row)) =
      .ok item) : (a.list caller request s).1 = .ok { details := [item] } := by
  have hquery := listQuery_keyed h hfield hcrown
  have hkeyed : (a.keyed request).rules.fields.get? "id" = some .string :=
    NameMap.get?_insert_self _ _ _
  have hnames : (a.keyed request).HasColumnNames := by
    refine ⟨⟨hreadable.toIsPlain, ?_⟩, hreadable.free, hreadable.names, ?_⟩
    · show ∀ field ∈ (NameMap.ofList [("id", ColumnType.string)]).keys, _
      decide
    · show ∀ field ∈ (NameMap.ofList [("id", ColumnType.string)]).keys,
        IsColumnWord (columnOf field)
      decide
  have hfits : (a.keyed request).Fits t.definition := by
    have hname : ∀ field ∈ (NameMap.ofList [("id", ColumnType.string)]).keys,
        columnOf field = "id" := by decide
    refine ⟨hcolumns, fun field hmem => ?_⟩
    rw [hname field hmem, href]
    rfl
  have hvalid := h.unsorted.validate hkeyed
  have hshown : r.table.columns.shown [] ≠ [] := by
    obtain ⟨c, hc, -⟩ := List.mem_map.1 h.sort
    exact List.ne_nil_of_mem hc
  have huncrowned : Filter.CrownPasses (a.keyed request).rules (a.keyed request).options.crown :=
    fun op cs hsome => by cases hsome
  have htest := @ValidFilter.asTest_ofId (a.keyed request).rules hkeyed (a.keyed request).options rfl id
  have hexact := selectsExactly_key hnames huncrowned hvalid h.rows (h.fields ▸ hshown) h.sort htest
    ht href hordered
  obtain ⟨column, rows, -, hfound, -, hlist⟩ := list_window hcheck hnames huncrowned hvalid h.rows
    ht hfits (h.fields ▸ hshown) h.sort hexact
  -- The row is found, and no other.
  have hrows : rows = [row] := by
    refine List.perm_singleton.1 ((List.perm_ext_iff_of_nodup (hfound .epoch).nodup
      (List.nodup_singleton row)).2 fun q => ?_)
    rw [(hfound .epoch).mem q, List.mem_singleton, ValidFilter.asTest_ofId hkeyed rfl]
    refine ⟨fun hq => (honly q hq.1).1 ((holds_asTest_ofId_iff href q).1 hq.2), fun hq => ?_⟩
    rw [hq]
    exact ⟨hrow, (holds_asTest_ofId_iff href row).2 ((honly row hrow).2 rfl)⟩
  have hlimit : 0 < request.page.limit.val := limit_pos_of_validate (h.validate hfield) h.rows
  obtain ⟨limit, hlimit⟩ : ∃ limit, request.page.limit.val.toNat = limit + 1 :=
    Nat.exists_eq_succ_of_ne_zero (by omega)
  have hwindow : ([row].drop request.page.start.val.toNat).take request.page.limit.val.toNat =
      [row] := by
    rw [h.start, hlimit, Int.toNat_zero, List.drop_zero, List.take_succ_cons, List.take_nil]
  have hread : [row].mapM (fun q => r.ofRow (Row.ofResult
      (t.definition.shownRow (r.table.columns.shown request.fields) q))) = .ok [item] := by
    rw [h.fields, List.mapM_cons, hitem]
    rfl
  have hanswer : answerPage request.page (fun q => r.ofRow (Row.ofResult
      (t.definition.shownRow (r.table.columns.shown request.fields) q))) [row] =
        .ok { details := [item] } := by
    rw [answerPage, hwindow, hread]
    rfl
  rw [list_congr hquery.symm rfl caller, hlist, hrows]
  exact hanswer

end Access

end Requests

/-! ### Records that the database keeps -/

/-- A slot that is read back from a column of a type: in a time column a moment, which is there
unless it is part of an absent record, and in any other what the database keeps. -/
def LeafSlot.IsKeptAs (s : LeafSlot) (type : ColumnType) : Prop :=
  (type = .time ∧ s.type = .timestamp ∧ s.state ≠ .skipped) ∨
    (type ≠ .time ∧ s.type ≠ .timestamp ∧ s.Keeps)

/-- The records of a table are kept in a table of the database: their leaf columns are the
columns of the registry, which tells them apart by their titles and which the database has; and
their identifiers are its primary key. -/
structure Resource.IsKeptIn (r : Resource) (d : TableDef) : Prop where
  readable : r.table.IsReadable
  titles : (r.table.columns.columns.map Column.title).Nodup
  annotated : r.type.fields.Annotated
  leaves : r.type.fields.columns.Nodup
  columns : ∀ name, name ∈ r.type.fields.columns ↔ name ∈ r.table.columns.names
  id : r.GivesId
  declared : r.table.columns.IsDeclaredBy d
  key : d.key = .column "id"

/-- A record that is kept in a table of the database: its optional fields that are there leave
something, what its slots hold is read back, and what is bound for it is stored unchanged. -/
structure Resource.Keeps (r : Resource) (d : TableDef) (item : r.Item) : Prop where
  restorable : r.type.fields.Restorable item
  slots : ∀ s ∈ r.type.fields.slots item, ∀ c ∈ r.table.columns.columns, c.name = s.column →
    s.IsKeptAs c.type
  unchanged : ∀ flat, (r.record item).flatten = .ok flat → ∀ c ∈ r.table.columns.columns,
    ∀ now, d.stored c.name (c.cellAt now flat) = c.cellAt now flat

namespace Resource

variable {r : Resource} {d : TableDef}

/-- All columns are inserted, if identifiers are. -/
theorem GivesId.inserted_eq (h : r.GivesId) :
    r.table.columns.inserted = r.table.columns.columns := by
  obtain ⟨c, hc, hid, -⟩ := h.inserted
  have hassigns : r.table.columns.assignsId = false := by
    have hinserted := (List.mem_filter.1 hc).2
    rw [hid, beq_self_eq_true, Bool.and_true, Bool.not_eq_true'] at hinserted
    exact hinserted
  rw [Registry.inserted, hassigns]
  exact List.filter_eq_self.2 fun _ _ => rfl

namespace IsKeptIn

/-- The table can be written to. -/
theorem isWritable (h : r.IsKeptIn d) : r.table.IsWritable where
  name := h.readable.name
  columns c hc := (h.readable.columns c (h.id.inserted_eq ▸ hc)).1
  apart := by
    rw [Registry.insertedNames, h.id.inserted_eq]
    refine List.pairwise_map.2 ?_
    refine (List.pairwise_map.1 r.table.columns.nodup).imp_of_mem fun {b c} hb hc hne => ?_
    exact Bool.eq_false_iff.2 fun hsame => hne (h.declared.name_eq hb hc hsame)

theorem spelled_eq (h : r.IsKeptIn d) {c : Column} (hc : c ∈ r.table.columns.columns) :
    d.spelled c.name = c.name := by
  rw [TableDef.spelled, h.declared c hc]
  rfl

/-- The name of a column stands for the column. -/
theorem resolve_eq (h : r.IsKeptIn d) {c : Column} (hc : c ∈ r.table.columns.columns) :
    d.resolve c.name = some (.named c.name) := by
  obtain ⟨column, hcolumn, hname⟩ := Option.map_eq_some_iff.1 (h.declared c hc)
  rw [TableDef.resolve, hcolumn]
  dsimp only
  have hkey : Key.column "id" ≠ .rowNumber column.name := by rintro ⟨⟩
  rw [h.key, if_neg hkey, hname]

/-- A row that a record was stored in has what was bound for it. -/
theorem cell_eq (h : r.IsKeptIn d) {item : r.Item} (hitem : r.Keeps d item) {flat : Flattened}
    (hflat : (r.record item).flatten = .ok flat) {now : Timestamp} {row : StoredRow}
    (hrow : r.table.Stores d now flat row) {c : Column} (hc : c ∈ r.table.columns.columns) :
    row.cell c.name = c.cellAt now flat := by
  rcases hrow.cells c (h.id.inserted_eq ▸ hc) with hcell | ⟨-, hkey⟩
  · rw [h.spelled_eq hc, hitem.unchanged flat hflat c hc now] at hcell
    exact hcell
  · rw [h.key] at hkey
    cases hkey

/-- **A row that a record was stored in shows the record**, with the reading of the clock in the
place of its moments. -/
theorem ofRow_eq (h : r.IsKeptIn d) {item : r.Item} (hitem : r.Keeps d item) {flat : Flattened}
    (hflat : (r.record item).flatten = .ok flat) {now : Timestamp}
    (hyear : 0 ≤ now.date.year ∧ now.date.year ≤ 9999) {row : StoredRow}
    (hrow : r.table.Stores d now flat row) :
    r.ofRow (Row.ofResult (d.shownRow (r.table.columns.shown []) row)) =
      .ok (r.type.fields.stamp now.truncateMicros item) := by
  have hflattened := Record.get?_flatten (r := r.record item) h.annotated h.leaves hflat
  rw [ofRow, physical_shownRow_nil h.titles]
  refine r.type.fields.fetch_of_shows _ (r.type.fields.restorable_stamp item hitem.restorable) ?_
  rw [r.type.fields.slots_stamp]
  refine List.forall_mem_map.2 fun s hs => ?_
  -- The column of the slot is in the registry, and has what was bound for it.
  have hleaf : s.column ∈ r.type.fields.columns := by
    rw [← r.type.fields.map_column_slots item]
    exact List.mem_map_of_mem hs
  obtain ⟨c, hc, hname⟩ := List.mem_map.1 ((h.columns s.column).1 hleaf)
  have hcell : (r.storedRow d row).get? s.column =
      some (Value.ofCell (c.cellAt now flat)) := by
    rw [get?_storedRow, if_pos ((h.columns s.column).1 hleaf), ← hname, TableDef.valueOf,
      h.resolve_eq hc]
    exact congrArg (fun cell => some (Value.ofCell cell)) (h.cell_eq hitem hflat hrow hc)
  rcases hitem.slots s hs c hc hname with ⟨htime, htype, hstate⟩ | ⟨htime, htype, hkeeps⟩
  · rw [Column.cellAt, if_pos htime] at hcell
    exact Row.shows_of_clock htype hstate hyear hcell
  · obtain ⟨leaf, hget, hbound⟩ := hrow.values c (h.id.inserted_eq ▸ hc) htime
    rw [hname, hflattened s hs] at hget
    rw [LeafSlot.stamped_of_ne htype]
    exact Row.shows_of_cell htype (r.type.fields.survives_slots item hitem.restorable s hs) hkeeps
      hget hbound hcell

/-- The column of identifiers stands for itself. -/
theorem resolve_id (h : r.IsKeptIn d) : d.resolve "id" = some (.named "id") := by
  obtain ⟨c, hc, hid, -⟩ := h.id.inserted
  have hresolve := h.resolve_eq (h.id.inserted_eq ▸ hc)
  rwa [hid] at hresolve

/-- A row that an identified record was stored in has the identifier, which is stored
unchanged. -/
theorem cell_id (h : r.IsKeptIn d) {id : String} {item : r.Item}
    (hitem : r.Keeps d (r.setId id item)) {flat : Flattened}
    (hflat : (r.record (r.setId id item)).flatten = .ok flat) {now : Timestamp} {row : StoredRow}
    (hrow : r.table.Stores d now flat row) :
    row.cell "id" = .text id ∧ d.stored "id" (.text id) = .text id := by
  obtain ⟨c, hc, hid, hcell⟩ := h.id.exists_cellAt hflat
  rw [h.id.inserted_eq] at hc
  have hrowCell := h.cell_eq hitem hflat hrow hc
  have hstored := hitem.unchanged flat hflat c hc now
  rw [hcell, hid] at hrowCell hstored
  exact ⟨hrowCell, hstored⟩

end IsKeptIn

end Resource

/-! ### Rows by their identifiers -/

/-- A text that is stored unchanged is compared as it is. -/
theorem Sql.Affinity.adapt_of_store {a : Affinity} {text : String}
    (h : a.store (.text text) = .text text) : a.adapt (.text text) = .text text := by
  unfold store at h
  generalize a.adapt (.text text) = c at h ⊢
  cases a with
  | any | text => exact h
  | numeric =>
    cases c with
    | real x =>
      -- A fractional number is stored as a number.
      have hnumber : (Cell.real x).narrowed = .text text := h
      unfold Cell.narrowed at hnumber
      dsimp only at hnumber
      split at hnumber
      · split at hnumber
        · next hn =>
          rw [Cell.ofInt_of_holds ⟨hn.1.le, hn.2.le⟩] at hnumber
          cases hnumber
        · cases hnumber
      · cases hnumber
    | _ => exact h
  | real =>
    cases hnarrowed : c.narrowed with
    | integer n =>
      rw [hnarrowed] at h
      cases h
    | _ =>
      rw [hnarrowed] at h
      exact h

theorem Sql.TableDef.adapt_of_stored {d : TableDef} {name text : String}
    (h : d.stored name (.text text) = .text text) :
    (d.affinity (.named name)).adapt (.text text) = .text text := by
  have haffinity : d.affinity (.named name) =
      ((d.column? name).map ColumnDef.affinity).getD .any := rfl
  unfold stored at h
  rw [haffinity]
  cases hcolumn : d.column? name with
  | none => rfl
  | some column =>
    rw [hcolumn] at h
    exact Affinity.adapt_of_store h

/-- No row has the key of one without a rival. -/
theorem Sql.StoredTable.order_ne_of_rival? {t : StoredTable} {row : StoredRow} {column : String}
    (h : t.rival? row none = none) (hkey : t.definition.key = .column column)
    (hnull : (row.cell column).isNull = false) :
    ∀ q ∈ t.rows, (q.cell column).order (row.cell column) ≠ .eq := by
  intro q hq he
  unfold rival? at h
  rw [hkey] at h
  dsimp only [Key.name?] at h
  rw [hnull, if_neg Bool.false_ne_true] at h
  refine List.find?_eq_none.1 h q hq ?_
  rw [Cell.same, he]
  rfl

theorem eq_of_mem_zip {α β γ : Type} {f : α → γ} {l : List α} {m : List β}
    (hlength : l.length = m.length) (hnodup : (l.map f).Nodup) {p q : α × β} (hp : p ∈ l.zip m)
    (hq : q ∈ l.zip m) (h : f p.1 = f q.1) : p = q := by
  have hfirst : (l.zip m).map (f ∘ Prod.fst) = l.map f := by
    rw [← List.map_map, List.map_fst_zip hlength.le]
  exact List.inj_on_of_nodup_map (hfirst ▸ hnodup) hp hq h

/-- **One row has an identifier that was given**, of those that a table had and those that it
gained with it. -/
theorem Resource.IsKeptIn.order_id_eq_iff {r : Resource} {old : StoredTable}
    (hr : r.IsKeptIn old.definition) (hadapted : ∀ row ∈ old.rows,
      (old.definition.affinity (.named "id")).adapt (row.cell "id") = row.cell "id")
    {pairs : List (String × r.Item)} {rows : List StoredRow} (hnodup : (pairs.map Prod.fst).Nodup)
    (hrows : List.Forall₂ (fun p row => row.cell "id" = .text p.1 ∧
      old.definition.stored "id" (.text p.1) = .text p.1) pairs rows)
    (hapart : ∀ row ∈ rows, old.rival? row none = none) {p : String × r.Item} {row : StoredRow}
    (hp : (p, row) ∈ pairs.zip rows) {q : StoredRow} (hq : q ∈ old.rows ++ rows) :
    ((old.definition.affinity (.named "id")).adapt (q.cell "id")).order
      ((old.definition.affinity (.named "id")).adapt (.text p.1)) = .eq ↔ q = row := by
  obtain ⟨hlength, hpairs⟩ := List.forall₂_iff_zip.1 hrows
  obtain ⟨hcell, hstored⟩ := hpairs hp
  have hadapt := TableDef.adapt_of_stored hstored
  rw [hadapt]
  constructor
  · intro he
    rcases List.mem_append.1 hq with hq | hq
    · -- A row that was there before has the identifier of no new one.
      rw [hadapted q hq, ← hcell] at he
      exact absurd he (StoredTable.order_ne_of_rival? (hapart row (List.of_mem_zip hp).2) hr.key
        (by rw [hcell]; rfl) q hq)
    · have hsnd : (pairs.zip rows).map Prod.snd = rows := List.map_snd_zip hlength.ge
      rw [← hsnd] at hq
      obtain ⟨⟨p', q⟩, hmem, rfl⟩ := List.mem_map.1 hq
      obtain ⟨hother, hstored'⟩ := hpairs hmem
      rw [hother, TableDef.adapt_of_stored hstored'] at he
      have hcompare : compare p'.1 p.1 = .eq := he
      have hsame : p'.1 = p.1 := Std.LawfulEqCmp.eq_of_compare hcompare
      exact congrArg Prod.snd (eq_of_mem_zip (f := Prod.fst) hlength hnodup hmem hp hsame)
  · rintro rfl
    rw [hcell, hadapt]
    have htrans := Cell.transCmp_order
    exact Std.ReflCmp.compare_self

/-! ### Created records -/

/-- A table to which records were added with their identifiers, at some readings of the clock of
a session: the rows that it had are as they were, and none of them has the key of a new one. -/
structure Resource.Adds (r : Resource) (s : Session) (pairs : List (String × r.Item))
    (old new : StoredTable) (rows : List StoredRow) : Prop where
  definition : new.definition = old.definition
  ordered : new.Ordered
  perm : new.rows.Perm (old.rows ++ rows)
  apart : ∀ row ∈ rows, old.rival? row none = none
  stored : List.Forall₂ (fun p row => ∃ flat, ∃ k ≤ pairs.length + 1,
    (r.record (r.setId p.1 p.2)).flatten = .ok flat ∧
      r.table.Stores old.definition (s.clockAfter k) flat row) pairs rows

section Creation

variable {r : Resource} {a : Access r} {s : Session} {old new : StoredTable}

/-- A creation adds its records, each with one of a batch of identifiers. -/
theorem Resource.adds_of_create (hr : r.IsKeptIn old.definition) {level : String → Nat}
    (hdb : s.database.Sound) (hlevel : a.ids.Counts s level)
    (hold : s.database.table r.table.name = .ok old) {caller : Caller} {items : List r.Item}
    {ids : List String} {stored : List r.Item}
    (h : (a.create caller items s).1 = .ok (ids, stored)) :
    Identifiers.IsBatch items.length ids ∧
    stored = (ids.zip items).map (fun p => r.setId p.1 p.2) ∧
    ∃ new rows, (a.create caller items s).2.database.table r.table.name = .ok new ∧
      r.Adds s (ids.zip items) old new rows := by
  obtain ⟨hidentified, hbatch, middle, before, new, rows, ⟨n, hn, hclock⟩, hbefore, hgains⟩ :=
    gains_of_create hr.id hr.isWritable hdb hlevel h
  obtain rfl := Except.ok.inj (hold.symm.trans hbefore)
  have hlength : ids.length = items.length := hbatch.length
  obtain rfl := hidentified.trans (identify_eq hlength)
  refine ⟨hbatch, rfl, new, rows, hgains.table, hgains.definition,
    (hgains.ordered (hdb.ordered _ _ hold) (hdb.keys _ _ hold)).1, hgains.perm, hgains.apart, ?_⟩
  have hstored := hgains.stored
  rw [List.map_map, List.forall₂_map_left_iff] at hstored
  refine hstored.imp fun p row hrow => ?_
  obtain ⟨flat, k, hk, hflat, hstores⟩ := hrow
  rw [List.length_map] at hk
  rw [Session.clockAfter_of_eq hclock] at hstores
  exact ⟨flat, k + n, by omega, hflat, hstores⟩

/-- **A record that was added is listed by its identifier**, as long as the table is as it was
left. -/
theorem Resource.Adds.lists (hr : r.IsKeptIn old.definition)
    (hfield : a.rules.fields.get? "id" = some .string)
    (hcrown : ∀ op cs, a.options.crown = some (op, cs) → cs = [])
    (hadapted : ∀ row ∈ old.rows,
      (old.definition.affinity (.named "id")).adapt (row.cell "id") = row.cell "id")
    {pairs : List (String × r.Item)} {rows : List StoredRow} (h : r.Adds s pairs old new rows)
    (hnodup : (pairs.map Prod.fst).Nodup)
    (hkeeps : ∀ p ∈ pairs, r.Keeps old.definition (r.setId p.1 p.2))
    (hyears : ∀ k ≤ pairs.length + 1,
      0 ≤ (s.clockAfter k).date.year ∧ (s.clockAfter k).date.year ≤ 9999) :
    ∀ p ∈ pairs, ∃ k ≤ pairs.length + 1, ∀ later reader request,
      request.AsksFor a p.1 → later.signals.check reader = .ok () →
      later.database.table r.table.name = .ok new →
      (a.list reader request later).1 = .ok { details :=
        [r.type.fields.stamp (s.clockAfter k).truncateMicros (r.setId p.1 p.2)] } := by
  intro p hp
  obtain ⟨hlength, hpairs⟩ := List.forall₂_iff_zip.1 h.stored
  have hids : List.Forall₂ (fun p row => row.cell "id" = .text p.1 ∧
      old.definition.stored "id" (.text p.1) = .text p.1) pairs rows :=
    List.forall₂_iff_zip.2 ⟨hlength, fun {p row} hmem => by
      obtain ⟨flat, k, -, hflat, hstores⟩ := hpairs hmem
      exact hr.cell_id (hkeeps p (List.of_mem_zip hmem).1) hflat hstores⟩
  obtain ⟨row, hrow⟩ : ∃ row, (p, row) ∈ pairs.zip rows := by
    have hfst : (pairs.zip rows).map Prod.fst = pairs := List.map_fst_zip hlength.le
    rw [← hfst] at hp
    obtain ⟨⟨p, row⟩, hmem, rfl⟩ := List.mem_map.1 hp
    exact ⟨row, hmem⟩
  obtain ⟨flat, k, hk, hflat, hstores⟩ := hpairs hrow
  refine ⟨k, hk, fun later reader request hasks hcheck htable => ?_⟩
  have hcolumns : ∀ c ∈ r.table.columns.columns, (new.definition.resolve c.name).isSome = true :=
    fun c hc => by
      rw [h.definition]
      exact hr.declared.resolves hc
  have href : new.definition.resolve "id" = some (.named "id") := by
    rw [h.definition]
    exact hr.resolve_id
  have hmem : row ∈ new.rows :=
    h.perm.mem_iff.2 (List.mem_append_right _ (List.of_mem_zip hrow).2)
  refine Access.list_key hasks hfield hcrown hr.readable hcheck htable hcolumns href h.ordered
    hmem (fun q hq => ?_) ?_
  · rw [h.definition]
    exact hr.order_id_eq_iff hadapted hnodup hids h.apart hrow (h.perm.mem_iff.1 hq)
  · rw [h.definition]
    exact hr.ofRow_eq (hkeeps p (List.of_mem_zip hrow).1) hflat (hyears k hk) hstores

end Creation

/-- **What is created is what is listed.**  A request for the identifier of a record that was
created, whoever makes it and whenever, as long as the table is as it was left, is answered with
this record alone: with its identifier, and with the reading of the clock in its time columns. -/
theorem Access.lists_created {r : Resource} (a : Access r)
    (hfield : a.rules.fields.get? "id" = some .string)
    (hcrown : ∀ op cs, a.options.crown = some (op, cs) → cs = []) {s : Session}
    {level : String → Nat} (hdb : s.database.Sound) (hlevel : a.ids.Counts s level)
    {old : StoredTable} (hold : s.database.table r.table.name = .ok old)
    (hr : r.IsKeptIn old.definition) (hadapted : ∀ row ∈ old.rows,
      (old.definition.affinity (.named "id")).adapt (row.cell "id") = row.cell "id")
    {caller : Caller} {items : List r.Item}
    (hitems : ∀ item ∈ items, ∀ id, r.Keeps old.definition (r.setId id item))
    (hyears : ∀ k ≤ items.length + 1,
      0 ≤ (s.clockAfter k).date.year ∧ (s.clockAfter k).date.year ≤ 9999)
    {ids : List String} {stored : List r.Item}
    (h : (a.create caller items s).1 = .ok (ids, stored)) :
    ids.length = items.length ∧ stored = (ids.zip items).map (fun p => r.setId p.1 p.2) ∧
    ∀ p ∈ ids.zip items, ∃ k ≤ items.length + 1, ∀ later reader request,
      request.AsksFor a p.1 → later.signals.check reader = .ok () →
      later.database.table r.table.name = (a.create caller items s).2.database.table r.table.name →
      (a.list reader request later).1 = .ok { details :=
        [r.type.fields.stamp (s.clockAfter k).truncateMicros (r.setId p.1 p.2)] } := by
  obtain ⟨hbatch, hstored, new, rows, htable, hadds⟩ :=
    Resource.adds_of_create hr hdb hlevel hold h
  have hlength : ids.length = items.length := hbatch.length
  have hpairs : (ids.zip items).length = items.length := by
    rw [List.length_zip, hlength, min_self]
  have hnodup : ((ids.zip items).map Prod.fst).Nodup := by
    rw [List.map_fst_zip hlength.le]
    exact hbatch.ascending.imp fun hlt => ne_of_lt hlt
  have hlists := hadds.lists hr hfield hcrown hadapted hnodup
    (fun p hp => hitems p.2 (List.of_mem_zip hp).2 p.1) (hpairs ▸ hyears)
  rw [hpairs, ← htable] at hlists
  exact ⟨hlength, hstored, hlists⟩

/-! ### A host with crossed names -/

/-- Hosts whose regions are shown under the name of their zones, and the other way round, with
the times of their last updates. -/
def crossedHosts : Resource where
  table := .ofColumns "host" (.ofColumns false [.plain "id" .string, ⟨"region", "zone", .string⟩,
    ⟨"zone", "region", .string⟩, .plain "updated_at" .time])
  type :=
    ⟨"Host", .cons "id" (some "id") (.scalar .string)
      (.cons "region" (some "region") (.scalar .string)
        (.cons "zone" (some "zone") (.optional (.scalar .string))
          (.cons "updated_at" (some "updated_at") (.scalar .timestamp) .nil)))⟩

/-- The hosts, as the database has them. -/
def storedCrossed : StoredTable where
  definition := ⟨"host", [⟨"id", .text, false⟩, ⟨"region", .text, true⟩, ⟨"zone", .text, false⟩,
    ⟨"updated_at", .text, true⟩], .column "id"⟩
  rows := [⟨1, .ofList [("id", .text "a"), ("region", .text "north"), ("zone", .null),
    ("updated_at", .text "2024-01-01T00:00:00.000000Z")]⟩]

/-- A session whose database has them. -/
def crossedBefore : Session where
  database := Database.empty.withTable storedCrossed

/-- A host without an identifier, without a zone and with some time. -/
def newCrossed : crossedHosts.Item := ("", "south", none, .epoch, ())

/-- All hosts, with identifiers from counters in memory. -/
def allCrossed : Access crossedHosts where
  ids := .memory

/-- A request for the host of an identifier. -/
def hostById (id : String) : ListRequest where
  filter := some (.rule (.ofId id))
  page := { limit := ⟨5, by decide⟩ }

theorem sound_crossedBefore : crossedBefore.database.Sound :=
  sound_empty.of_replaced (Database.table_withTable _) (by decide) (fun _ h => nomatch h)
    fun _ hname => Database.table_withTable_of_ne hname

theorem annotated_crossedHosts : crossedHosts.type.fields.Annotated :=
  ⟨rfl, trivial, rfl, trivial, rfl, trivial, rfl, trivial, trivial⟩

theorem nodup_crossedHosts : crossedHosts.type.fields.columns.Nodup := by
  decide

theorem givesId_crossedHosts : crossedHosts.GivesId where
  inserted := ⟨.plain "id" .string, by decide, rfl, by decide⟩
  given := fun id item flat h =>
    ⟨_, Record.get?_flatten annotated_crossedHosts nodup_crossedHosts h _ List.mem_cons_self, rfl⟩

theorem isKeptIn_crossedHosts : crossedHosts.IsKeptIn storedCrossed.definition where
  readable := { name := by decide, columns := by decide, free := by decide, names := by decide }
  titles := by decide
  annotated := annotated_crossedHosts
  leaves := nodup_crossedHosts
  columns := fun name => by
    show name ∈ ["id", "region", "zone", "updated_at"] ↔ _
    exact Iff.rfl
  id := givesId_crossedHosts
  declared := by
    unfold Registry.IsDeclaredBy
    decide
  key := rfl

/-- A text or a null is stored unchanged in the columns of hosts. -/
theorem stored_crossed : ∀ c ∈ crossedHosts.table.columns.columns,
    (∀ text, storedCrossed.definition.stored c.name (.text text) = .text text) ∧
      storedCrossed.definition.stored c.name .null = .null :=
  List.forall_mem_cons.2 ⟨⟨fun _ => rfl, rfl⟩, List.forall_mem_cons.2 ⟨⟨fun _ => rfl, rfl⟩,
    List.forall_mem_cons.2 ⟨⟨fun _ => rfl, rfl⟩, List.forall_mem_singleton.2 ⟨fun _ => rfl, rfl⟩⟩⟩⟩

/-- The slots of a host: its time, and others that hold texts or nothing. -/
theorem slots_crossed (item : crossedHosts.Item) : ∀ s ∈ crossedHosts.type.fields.slots item,
    (s.column = "updated_at" ∧ s.type = .timestamp ∧ s.state ≠ .skipped) ∨
      (s.column ≠ "updated_at" ∧ s.type ≠ .timestamp ∧ s.Keeps ∧
        ∃ leaf, s.leaf? = some leaf ∧
          (leaf.value.cell = .null ∨ ∃ text, leaf.value.cell = .text text)) := by
  obtain ⟨id, region, zone, time, rest⟩ := item
  have hfirst (column text : String) (mayLack : Bool) (hne : column ≠ "updated_at") :
      column ≠ "updated_at" ∧ ScalarType.string ≠ .timestamp ∧
        LeafSlot.Keeps ⟨column, .string, .holds text mayLack⟩ ∧
        ∃ leaf, LeafSlot.leaf? ⟨column, .string, .holds text mayLack⟩ = some leaf ∧
          (leaf.value.cell = .null ∨ ∃ text, leaf.value.cell = .text text) := by
    cases mayLack <;> exact ⟨hne, nofun, trivial, _, rfl, .inr ⟨text, rfl⟩⟩
  have htime : ∀ s ∈ [LeafSlot.mk "updated_at" .timestamp (.holds time false)],
      s.column = "updated_at" ∧ s.type = .timestamp ∧ s.state ≠ .skipped :=
    List.forall_mem_singleton.2 ⟨rfl, rfl, nofun⟩
  cases zone with
  | none =>
    exact List.forall_mem_cons.2 ⟨.inr (hfirst "id" id false (by decide)), List.forall_mem_cons.2
      ⟨.inr (hfirst "region" region false (by decide)), List.forall_mem_cons.2
        ⟨.inr ⟨by decide, nofun, trivial, _, rfl, .inl rfl⟩, fun s hs => .inl (htime s hs)⟩⟩⟩
  | some zone =>
    exact List.forall_mem_cons.2 ⟨.inr (hfirst "id" id false (by decide)), List.forall_mem_cons.2
      ⟨.inr (hfirst "region" region false (by decide)), List.forall_mem_cons.2
        ⟨.inr (hfirst "zone" zone true (by decide)), fun s hs => .inl (htime s hs)⟩⟩⟩

theorem time_crossed : ∀ c ∈ crossedHosts.table.columns.columns,
    (c.type = .time ↔ c.name = "updated_at") := by
  decide

/-- Hosts are kept, whatever there is in their fields. -/
theorem keeps_crossedHosts (item : crossedHosts.Item) :
    crossedHosts.Keeps storedCrossed.definition item := by
  refine ⟨?_, fun s hs c hc hname => ?_, fun flat hflat c hc now => ?_⟩
  · obtain ⟨id, region, zone, time, rest⟩ := item
    cases zone with
    | none => exact ⟨trivial, trivial, trivial, trivial, trivial⟩
    | some zone => exact ⟨trivial, trivial, ⟨rfl, trivial⟩, trivial, trivial⟩
  · have htime := time_crossed c hc
    rw [hname] at htime
    rcases slots_crossed item s hs with ⟨hcolumn, hslot⟩ | ⟨hcolumn, htype, hkeeps, -⟩
    · exact .inl ⟨htime.2 hcolumn, hslot⟩
    · exact .inr ⟨mt htime.1 hcolumn, htype, hkeeps⟩
  · -- What a column gets is a text or a null.
    obtain ⟨htext, hnull⟩ := stored_crossed c hc
    by_cases htime : c.type = .time
    · rw [Column.cellAt, if_pos htime, htext]
    · have hleaf : c.name ∈ (crossedHosts.type.fields.slots item).map LeafSlot.column := by
        rw [Fields.map_column_slots]
        exact (isKeptIn_crossedHosts.columns c.name).2 (List.mem_map_of_mem hc)
      obtain ⟨s, hs, hname⟩ := List.mem_map.1 hleaf
      rcases slots_crossed item s hs with ⟨hcolumn, -⟩ | ⟨-, -, -, leaf, hleaf, hcell⟩
      · exact absurd ((time_crossed c hc).2 (hname ▸ hcolumn)) htime
      · have hget := Record.get?_flatten annotated_crossedHosts nodup_crossedHosts hflat s hs
        rw [hname, hleaf] at hget
        rw [Column.cellAt, if_neg htime, Column.valueIn, hget, Option.map_some, Option.getD_some]
        rcases hcell with hcell | ⟨text, hcell⟩
        · rw [hcell, hnull]
        · rw [hcell, htext]

/-- The request for the host that is created. -/
theorem asksFor_hostById (id : String) : (hostById id).AsksFor allCrossed id where
  filter := rfl
  fields := rfl
  rows := rfl
  start := rfl
  page := rfl
  sort := by
    show "id" ∈ crossedHosts.table.columns.names
    decide

set_option maxRecDepth 100000 in
/-- A host is listed as it was created, in its own columns and with the time of the clock. -/
theorem new_crossed_listed :
    crossedHosts.IsKeptIn storedCrossed.definition ∧ ∃ stored k, k ≤ 2 ∧
      (allCrossed.create hostCaller [newCrossed] crossedBefore).1 = .ok (["00000001"], stored) ∧
      (allCrossed.list hostCaller (hostById "00000001")
        { database := (allCrossed.create hostCaller [newCrossed] crossedBefore).2.database }).1 =
          .ok { details := [("00000001", "south", none,
            (crossedBefore.clockAfter k).truncateMicros, ())] } := by
  have hyears : ∀ k ≤ [newCrossed].length + 1, 0 ≤ (crossedBefore.clockAfter k).date.year ∧
      (crossedBefore.clockAfter k).date.year ≤ 9999 := by decide +kernel
  have hids : (allCrossed.create hostCaller [newCrossed] crossedBefore).1.toOption.map Prod.fst =
      some ["00000001"] := by decide +kernel
  cases hcreate : (allCrossed.create hostCaller [newCrossed] crossedBefore).1 with
  | error e =>
    rw [hcreate] at hids
    cases hids
  | ok created =>
    obtain ⟨ids, stored⟩ := created
    rw [hcreate] at hids
    obtain rfl := Option.some.inj hids
    obtain ⟨-, -, hlisted⟩ := allCrossed.lists_created rfl (fun _ _ h => nomatch h)
      sound_crossedBefore (fun _ => rfl) rfl isKeptIn_crossedHosts (by decide)
      (fun item _ _ => keeps_crossedHosts _) hyears hcreate
    obtain ⟨k, hk, hlist⟩ := hlisted ("00000001", newCrossed) List.mem_cons_self
    exact ⟨isKeptIn_crossedHosts, stored, k, hk, rfl,
      hlist _ hostCaller _ (asksFor_hostById "00000001") rfl rfl⟩

end ResourceTable
