import Mathlib.Logic.Function.Basic
import ResourceTable.Proofs.PageRows

/-!
# Confinement to a crown

A crown that is a conjunction cannot be escaped: what is listed does not depend on the rows of
which it does not hold, and these are neither updated nor deleted.

Of the other rows callers see the values of columns.  The number of a row and its place in the
table tell them nothing, unless a name stands for the number.  So two tables whose rows within
the crown have the same values are the same to a caller who counts rows, or asks for pages that
are sorted by a column which tells the rows apart.

## Main definitions

* `TableDef.values`: the values of the columns of a row.
* `Database.AgreeInValues`: tables of which the rows within a filter have the same values.
* `Access.FitsColumns`: the names of an access are those of columns.
* `ListRequest.SortsApart`: a page is sorted by a column that tells the rows apart.

## Main results

* `factorsThrough_holds`, `factorsThrough_shownRow` — what a test and a caller see of a row are
  its values.
* `AgreeInValues.perm_values` — the rows that are found within the filter have the same values.
* `Access.list_eq_of_values` — **what is listed is told by the values of the rows within the
  crown.**
* `Access.crown_confines` — **a crown cannot be escaped.**
-/

namespace ResourceTable

open Sql Sql.Parse

/-! ### Lists by what is seen of their members -/

section Lists

variable {α β γ : Type} {f : α → β} {l m : List α}

/-- A filter that sees of the members what a map keeps leaves alike what is alike. -/
theorem perm_map_filter {p : α → Bool} (hp : p.FactorsThrough f)
    (h : (l.map f).Perm (m.map f)) : ((l.filter p).map f).Perm ((m.filter p).map f) := by
  obtain ⟨e, rfl⟩ := (Function.factorsThrough_iff p).1 hp
  rw [← List.filter_map, ← List.filter_map]
  exact h.filter e

/-- A map that sees of the members what another one keeps makes alike what is alike. -/
theorem map_eq_of_factorsThrough {g : α → γ} [Nonempty γ] (hg : g.FactorsThrough f)
    (h : l.map f = m.map f) : l.map g = m.map g := by
  obtain ⟨e, rfl⟩ := (Function.factorsThrough_iff g).1 hg
  rw [← List.map_map, ← List.map_map, h]

end Lists

/-! ### Rows by their values -/

namespace Sql

namespace TableDef

variable {d : TableDef} {name : String} {c : ColumnDef} {ref : ColumnRef}

/-- The values of the columns of a row. -/
def values (d : TableDef) (row : StoredRow) : List Cell := d.names.map (d.valueOf row)

/-- A column is found by the name that the table gives it. -/
theorem column?_name (h : d.column? name = some c) : d.column? c.name = some c := by
  have hsame := sameName_of_column? h
  have hpredicate : (fun e : ColumnDef => sameName e.name c.name) =
      fun e => sameName e.name name := by
    funext e
    rw [Bool.eq_iff_iff]
    exact ⟨fun he => sameName_trans he hsame,
      fun he => sameName_trans he ((sameName_comm name c.name).trans hsame)⟩
  rw [column?, hpredicate]
  exact h

/-- The name of a column stands for one of the values. -/
theorem factorsThrough_valueOf (h : (d.column? name).isSome = true) :
    (fun row => d.valueOf row name).FactorsThrough d.values := by
  intro q r hvalues
  obtain ⟨c, hc⟩ := Option.isSome_iff_exists.1 h
  have hresolve : d.resolve c.name = d.resolve name := by
    rw [resolve, resolve, column?_name hc, hc]
  have hmem : c.name ∈ d.names := List.mem_map_of_mem (List.mem_of_find?_eq_some hc)
  have hspelled : d.valueOf q c.name = d.valueOf r c.name :=
    List.map_inj_left.1 hvalues c.name hmem
  rw [valueOf, valueOf, hresolve] at hspelled
  exact hspelled

theorem factorsThrough_value (h : (d.column? name).isSome = true)
    (href : d.resolve name = some ref) :
    (fun row => StoredRow.value row ref).FactorsThrough d.values := by
  intro q r hvalues
  have hvalue := factorsThrough_valueOf h hvalues
  simp only [valueOf, href] at hvalue
  exact hvalue

theorem isSome_resolve (h : (d.column? name).isSome = true) : (d.resolve name).isSome = true := by
  obtain ⟨c, hc⟩ := Option.isSome_iff_exists.1 h
  rw [resolve, hc]
  dsimp only
  split <;> rfl

/-- What a row shows is told by its values. -/
theorem factorsThrough_shownRow {cs : List Column}
    (h : ∀ c ∈ cs, (d.column? c.name).isSome = true) :
    (d.shownRow cs).FactorsThrough d.values := fun _ _ hvalues =>
  List.map_congr_left fun c hc =>
    congrArg (Prod.mk c.title) (factorsThrough_valueOf (h c hc) hvalues)

/-- So is what a test says of it. -/
theorem factorsThrough_holds {test : Test}
    (h : test.OnlyColumns fun name => (d.column? name).isSome = true) (now : Timestamp) :
    (fun row => test.holds (d.scope now row)).FactorsThrough d.values := by
  intro q r hvalues
  refine Test.holds_congr h fun name hname => ?_
  obtain ⟨ref, href⟩ := Option.isSome_iff_exists.1 (isSome_resolve hname)
  have hvalue : q.value ref = r.value ref := factorsThrough_value hname href hvalues
  show d.slot? q name = d.slot? r name
  rw [slot?, slot?, href, Option.map_some, Option.map_some, hvalue]

end TableDef

namespace Database

variable {db other : Database} {fields : Schema} {f : Filter} {now : Timestamp}
  {t u : StoredTable}

/-- Two tables whose rows for which a filter holds have the same values, whatever their numbers
and their places. -/
structure AgreeInValues (fields : Schema) (f : Filter) (now : Timestamp) (t u : StoredTable) :
    Prop where
  definition : t.definition = u.definition
  values :
    ((t.rows.filter fun r => f.HoldsIn fields (t.definition.scope now r)).map
      t.definition.values).Perm
    ((u.rows.filter fun r => f.HoldsIn fields (u.definition.scope now r)).map
      u.definition.values)

/-- **The rows that a test finds within the filter have the same values.** -/
theorem AgreeInValues.perm_values {test : Test} {rows others : List StoredRow}
    (h : AgreeInValues fields f now t u)
    (honly : test.OnlyColumns fun name => (t.definition.column? name).isSome = true)
    (himplies : ∀ scope, test.holds scope = .ok true → f.HoldsIn fields scope)
    (ht : t.rows.Nodup) (hu : u.rows.Nodup) (hrows : t.IsFound now test rows)
    (hothers : u.IsFound now test others) :
    (rows.map t.definition.values).Perm (others.map t.definition.values) := by
  obtain ⟨d, ts⟩ := t
  obtain ⟨e, us⟩ := u
  obtain rfl : d = e := h.definition
  have hvalues := h.values
  dsimp only at *
  let keep (r : StoredRow) : Bool := decide (test.holds (d.scope now r) = .ok true)
  have hkeep : keep.FactorsThrough d.values := fun q r hqr => by
    have hholds := TableDef.factorsThrough_holds honly now hqr
    dsimp only at hholds
    dsimp only [keep]
    rw [hholds]
  -- What is found is left of the rows within the filter.
  have hleft {all found : List StoredRow} (hall : all.Nodup)
      (hfound : StoredTable.IsFound ⟨d, all⟩ now test found) :
      found.Perm ((all.filter fun r => f.HoldsIn fields (d.scope now r)).filter keep) := by
    refine (List.perm_ext_iff_of_nodup hfound.nodup ((hall.filter _).filter _)).2 fun r => ?_
    rw [hfound.mem r, List.mem_filter, List.mem_filter, decide_eq_true_eq, decide_eq_true_eq]
    exact ⟨fun hr => ⟨⟨hr.1, himplies _ hr.2⟩, hr.2⟩, fun hr => ⟨hr.1.1, hr.2⟩⟩
  exact ((hleft ht hrows).map _).trans
    ((perm_map_filter hkeep hvalues).trans ((hleft hu hothers).map _).symm)

/-- A statement that acts within the filter finds nothing else, whatever its places. -/
theorem holdsIn_of_actsOn {name : String} {s : SelectStatement} {condition test : Test}
    (hacts : (Statement.select s).ActsOn fields name f) (hcondition : s.condition = some condition)
    (hsame : SameTest condition test) :
    ∀ scope, test.holds scope = .ok true → f.HoldsIn fields scope := by
  obtain ⟨-, other, hother, himplies⟩ := hacts
  obtain rfl := Option.some.inj (hcondition.symm.trans hother)
  exact fun scope hholds =>
    himplies scope (Test.passes_of_holds ((Test.holds_iff_of_unplaced_eq hsame).2 hholds))

/-- A count gives the same for tables that agree in values. -/
theorem AgreeInValues.select_count {name : String} {condition test : Test}
    (h : AgreeInValues fields f now t u)
    (honly : test.OnlyColumns fun name => (t.definition.column? name).isSome = true)
    (hsame : SameTest condition test)
    (hacts : (Statement.select (countStatement name condition)).ActsOn fields name f)
    (ht : db.table name = .ok t) (hu : other.table name = .ok u) (hdb : db.WellFormed)
    (hother : other.WellFormed) (hexact : db.SelectsExactly now (countStatement name condition))
    (hexact' : other.SelectsExactly now (countStatement name condition)) :
    db.select now (countStatement name condition) =
      other.select now (countStatement name condition) := by
  obtain ⟨rows, hrows, hmem⟩ := hexact name t condition rfl ht rfl
  obtain ⟨others, hothers, hmem'⟩ := hexact' name u condition rfl hu rfl
  have hperm := h.perm_values honly (holdsIn_of_actsOn hacts rfl hsame)
    (hdb.ordered name t ht).nodup.of_map (hother.ordered name u hu).nodup.of_map
    (StoredTable.isFound_of_sameTest hsame hrows hmem)
    (StoredTable.isFound_of_sameTest hsame hothers hmem')
  have hlength := hperm.length_eq
  rw [List.length_map, List.length_map] at hlength
  rw [Database.select_count ht hrows, Database.select_count hu hothers, hlength]

end Database

/-- Rows in the order of a column have the same values one by one, if they have the same values
in any order. -/
theorem StoredRow.map_values_eq {d : TableDef} {ref : ColumnRef} {descending : Bool}
    {rows others : List StoredRow}
    (hvalue : (fun row => StoredRow.value row ref).FactorsThrough d.values)
    (hrows : rows.Pairwise (StoredRow.Before ref descending))
    (hothers : others.Pairwise (StoredRow.Before ref descending))
    (hperm : (rows.map d.values).Perm (others.map d.values)) :
    rows.map d.values = others.map d.values := by
  obtain ⟨e, he⟩ := (Function.factorsThrough_iff _).1 hvalue
  -- The order of the rows is one of their values.
  let before (v w : List Cell) : Prop := (e v).order (e w) = if descending then .gt else .lt
  have hbefore {q r : StoredRow} (h : q.Before ref descending r) :
      before (d.values q) (d.values r) := by
    have hq : q.value ref = e (d.values q) := congrFun he q
    have hr : r.value ref = e (d.values r) := congrFun he r
    rw [StoredRow.Before, hq, hr] at h
    exact h
  have hantisymm : Std.Antisymm before := by
    refine ⟨fun v w hvw hwv => ?_⟩
    dsimp only [before] at hvw hwv
    rw [Cell.order_swap, hwv] at hvw
    cases descending <;> cases hvw
  exact hperm.eq_of_pairwise' (List.pairwise_map.2 (hrows.imp hbefore))
    (List.pairwise_map.2 (hothers.imp hbefore))

end Sql

/-! ### Requests that see values alone -/

section Requests

variable {r : Resource} {a : Access r} {request : ListRequest}

/-- The names of an access are those of columns, and none is that of the number of a row. -/
structure Access.FitsColumns (a : Access r) (d : TableDef) : Prop where
  columns : ∀ c ∈ r.table.columns.columns, (d.column? c.name).isSome = true
  fields : ∀ field ∈ a.rules.fields.keys, (d.column? (columnOf field)).isSome = true

theorem Access.FitsColumns.fits {d : TableDef} (h : a.FitsColumns d) : a.Fits d :=
  ⟨fun c hc => TableDef.isSome_resolve (h.columns c hc),
    fun field hfield => TableDef.isSome_resolve (h.fields field hfield)⟩

/-- The rows of a page are sorted by a column that tells those of the table apart. -/
structure ListRequest.SortsApart (request : ListRequest) (a : Access r) (t : StoredTable)
    (ref : ColumnRef) : Prop extends request.SortsBy a t.definition ref where
  indexed : t.Indexed
  apart : t.Distinguishes ref

/-- A page gives the same for tables that agree in values. -/
theorem Sql.Database.AgreeInValues.select_page {db other : Database} {now : Timestamp}
    {f g : Filter} {t u : StoredTable} {s : SelectStatement} {ref : ColumnRef}
    (h : Database.AgreeInValues a.rules.fields f now t u)
    (honly : (g.asTest a.rules.fields).OnlyColumns fun name =>
      (t.definition.column? name).isSome = true)
    (hread : request.IsRead a g s)
    (hacts : (Statement.select s).ActsOn a.rules.fields r.table.name f)
    (hcolumns : a.FitsColumns t.definition)
    (hsort : request.SortsApart a t ref) (hsort' : request.SortsApart a u ref)
    (hlimit : 0 < request.page.limit.val)
    (ht : db.table r.table.name = .ok t) (hu : other.table r.table.name = .ok u)
    (hexact : db.SelectsExactly now s) (hexact' : other.SelectsExactly now s) :
    db.select now s = other.select now s := by
  obtain ⟨condition, hcondition, hsame⟩ := hread.condition
  have hdefinition := h.definition
  obtain ⟨rows, hfound, hsorted, hselect⟩ := Database.select_window ht hread hcolumns.fits
    (hread.sortsOn hsort.toSortsBy) hexact hlimit
  obtain ⟨others, hfound', hsorted', hselect'⟩ := Database.select_window hu hread
    (hdefinition ▸ hcolumns.fits) (hread.sortsOn hsort'.toSortsBy) hexact' hlimit
  have hperm := h.perm_values honly (Database.holdsIn_of_actsOn hacts hcondition hsame)
    hsort.indexed.ordered.nodup.of_map hsort'.indexed.ordered.nodup.of_map hfound hfound'
  -- The rows of both are in strict order, so they have the same values one by one.
  have hlisted := StoredTable.IsSorted.isListed_of_distinguishes
    ⟨hfound, hsorted hsort.indexed hsort.apart.stored⟩ hsort.apart
  have hlisted' := StoredTable.IsSorted.isListed_of_distinguishes
    ⟨hfound', hsorted' hsort'.indexed hsort'.apart.stored⟩ hsort'.apart
  have hkey : (t.definition.column? (request.page.sortOf a.pages)).isSome = true := by
    obtain ⟨column, hmem, hname⟩ := List.mem_map.1 hsort.column
    exact hname ▸ hcolumns.columns column hmem
  have hvalues := StoredRow.map_values_eq (TableDef.factorsThrough_value hkey hsort.resolves)
    hlisted.ordered hlisted'.ordered hperm
  have hmem : ∀ c ∈ r.table.columns.shown request.fields,
      (t.definition.column? c.name).isSome = true :=
    fun c hc => hcolumns.columns c (Registry.mem_columns_of_shown hc)
  have hshown := map_eq_of_factorsThrough (TableDef.factorsThrough_shownRow hmem) hvalues
  rw [hselect, hselect', ← hdefinition, List.map_take, List.map_drop, hshown, List.map_take,
    List.map_drop]

end Requests

namespace Access

variable {r : Resource} {a : Access r} {c : Filter} {cs : List Filter}

/-- **What a list request gives is told by the values of the rows within the crown**, if it is
a count or its page is sorted by a column that tells the rows apart. -/
theorem list_eq_of_values (hnames : a.HasColumnNames)
    (hcrown : a.options.crown = some (.and, c :: cs)) (caller : Caller) (request : ListRequest)
    (s : Session) {db other : Database} {t u : StoredTable} (ht : db.table r.table.name = .ok t)
    (hu : other.table r.table.name = .ok u) (hdb : db.WellFormed) (hother : other.WellFormed)
    (hcolumns : a.FitsColumns t.definition)
    (hagree : Database.AgreeInValues a.rules.fields (.group .and (c :: cs))
      (s.clock.addMicros 1) t u)
    (hpage : request.page.count = true ∨
      ∃ key, request.SortsApart a t key ∧ request.SortsApart a u key)
    (hexact : a.SelectsExactly request { s with database := db })
    (hexact' : a.SelectsExactly request { s with database := other }) :
    (a.list caller request { s with database := db }).1 =
      (a.list caller request { s with database := other }).1 := by
  refine list_eq_of_select hnames.toIsPlain hcrown caller request s ht hu hagree.definition
    fun q sql cells select hq hbound hstatement hacts => ?_
  obtain ⟨v, hvalid, hpasses, hshown⟩ := exists_accepted_of_listQuery hq
  have hselects := hexact q sql cells select hq hbound hstatement
  have hselects' := hexact' q sql cells select hq hbound hstatement
  have honly : ((v.arranged a.options).asTest a.rules.fields).OnlyColumns fun name =>
      (t.definition.column? name).isSome = true := hnames.onlyColumns hpasses hcolumns.fields
  cases hcount : request.page.count with
  | true =>
    obtain ⟨q', sql', cells', condition, hq', hbound', hstatement', hsame⟩ :=
      exists_total_read hnames hpasses hvalid hcount
    cases Query.statement_unique hq hbound hstatement hq' hbound' hstatement'
    exact hagree.select_count honly hsame hacts ht hu hdb hother hselects hselects'
  | false =>
    obtain ⟨key, hsort, hsort'⟩ := hpage.resolve_left (hcount ▸ Bool.false_ne_true)
    obtain ⟨q', sql', cells', select', hq', hbound', hstatement', hread⟩ :=
      exists_page_read hnames hpasses hvalid hcount (hshown hcount) hsort.column
    cases Query.statement_unique hq hbound hstatement hq' hbound' hstatement'
    exact hagree.select_page honly hread hacts hcolumns hsort hsort'
      (limit_pos_of_validate hvalid hcount) ht hu hselects hselects'

/-- **A crown cannot be escaped.**  Under a conjunction with rules, what a list request gives
does not depend on the rows of which the crown does not hold.  Neither does it depend on the
numbers of the others, if the names of the access are those of columns and the request is a
count or sorts by a column that tells the rows apart.  An update or a deletion leaves the rows
of which the crown does not hold exactly as they were, whether or not it fails. -/
theorem crown_confines (hplain : a.IsPlain) (hcrown : a.options.crown = some (.and, c :: cs))
    (caller : Caller) (s : Session) (hdb : s.database.WellFormed) :
    (∀ (request : ListRequest) (other : Database) (t u : StoredTable),
      s.database.table r.table.name = .ok t → other.table r.table.name = .ok u →
      other.WellFormed →
      Database.Agree a.rules.fields (.group .and (c :: cs)) (s.clock.addMicros 1) t u →
      a.SelectsExactly request s → a.SelectsExactly request { s with database := other } →
        (a.list caller request s).1 = (a.list caller request { s with database := other }).1) ∧
    (∀ (request : ListRequest) (other : Database) (t u : StoredTable),
      a.HasColumnNames → a.FitsColumns t.definition →
      s.database.table r.table.name = .ok t → other.table r.table.name = .ok u →
      other.WellFormed →
      Database.AgreeInValues a.rules.fields (.group .and (c :: cs)) (s.clock.addMicros 1) t u →
      (request.page.count = true ∨
        ∃ key, request.SortsApart a t key ∧ request.SortsApart a u key) →
      a.SelectsExactly request s → a.SelectsExactly request { s with database := other } →
        (a.list caller request s).1 = (a.list caller request { s with database := other }).1) ∧
    (∀ filter patch policy,
      a.Spares (.group .and (c :: cs)) s (a.update caller filter patch policy s).2) ∧
    ∀ filter, a.Spares (.group .and (c :: cs)) s (a.deleteIn caller filter s).2 := by
  refine ⟨fun request other t u ht hu hother hagree hexact hexact' => ?_,
    fun request other t u hnames hcolumns ht hu hother hagree hpage hexact hexact' => ?_,
    fun filter patch policy => ?_, fun filter => ?_⟩
  · exact list_eq hplain hcrown caller request s ht hu hdb hother hagree hexact hexact'
  · exact list_eq_of_values hnames hcrown caller request s ht hu hdb hother hcolumns hagree hpage
      hexact hexact'
  · refine spares_transaction (spares_execute hdb fun q sql cells statement hq hbound hread => ?_)
    exact a.actsOn_update hplain hcrown hq hbound hread
  · refine spares_execute hdb fun q sql cells statement hq hbound hread => ?_
    exact a.actsOn_delete hplain hcrown hq hbound hread

end Access

/-! ### The hosts of the north -/

/-- The hosts in the north alone. -/
def northernHosts : Access regionalHosts where
  options := { crown := some (.and, [northern]) }

/-- The same host in the north as among `someHosts`, and one in the west. -/
def otherHosts : List StoredRow := [hostRow 1 "a" "north", hostRow 3 "d" "west"]

/-- The host in the north has another number, and comes last. -/
def renumberedHosts : List StoredRow := [hostRow 3 "d" "west", hostRow 7 "a" "north"]

theorem wellFormed_hostSession {rows : List StoredRow} (h : (storedHosts rows).Ordered) :
    (hostSession rows).database.WellFormed := Database.wellFormed_withTable h

theorem hasColumnNames_northernHosts : northernHosts.HasColumnNames where
  table := ⟨by decide, by decide⟩
  fields := by decide
  free := by decide
  names := by decide
  words := by decide

/-- A filter by which all hosts but one are asked for. -/
def notThird : ValidFilter northernHosts.rules :=
  ⟨.rule ⟨"id", .notEqual, .single (.text "c")⟩, by decide⟩

/-- The clause that it is compiled to. -/
def notThirdClause : Clause where
  sql := "WHERE (id != :id AND (region = :region))"
  params := .ofList [("id", .single (.text "c")), ("region", .single (.text "north"))]
  matchesAll := false

theorem compile_notThird : notThird.compile northernHosts.options = .ok notThirdClause := by
  rw [notThird.compile_eq (by decide), notThird.compiled_unranked rfl]
  decide +kernel

/-- The condition that the database reads of it, somewhere in a statement. -/
def isNorthern (place other : Nat) : Test :=
  .both (.compare .notEqual (.column "id" place) (.literal (.text "c")))
    (.compare .equal (.column "region" other) (.literal (.text "north")))

/-- A request for the number of these hosts. -/
def hostCount : ListRequest where
  filter := some notThird.filter
  page := { count := true }

/-- A request for the first three of these hosts. -/
def hostPage : ListRequest where
  filter := some notThird.filter
  page := { limit := ⟨3, by decide⟩ }

/-- What the database reads of its statement. -/
def hostPageStatement : SelectStatement where
  outputs := [.value (.column "id" 7) "id", .value (.column "region" 11) "region"]
  table := some "host"
  condition := some (isNorthern 35 48)
  sorting := some ⟨.term (.column "id" 70), false⟩
  window := some (3, 0)

/-- The hosts that are counted are those for which the condition is true. -/
theorem selectsExactly_hostCount {rows : List StoredRow}
    (hfound : ((countStatement "host" (isNorthern 33 46)).plan (storedHosts rows).definition).found
      (storedHosts rows) (Timestamp.epoch.addMicros 1) none = .ok (rows.filter fun r =>
        decide ((isNorthern 33 46).holds
          ((storedHosts rows).definition.scope (Timestamp.epoch.addMicros 1) r) = .ok true))) :
    northernHosts.SelectsExactly hostCount (hostSession rows) := by
  have hquery : northernHosts.listQuery hostCount =
      .ok ⟨"SELECT COUNT(*) FROM host WHERE (id != :id AND (region = :region))",
        notThirdClause.params⟩ :=
    Access.listQuery_eq (v := notThird) rfl compile_notThird rfl
  have hstatement : Statement.read "SELECT COUNT(*) FROM host WHERE (id != ? AND (region = ?))"
      [.text "c", .text "north"] = .ok (.select (countStatement "host" (isNorthern 33 46))) := rfl
  have htable : (hostSession rows).database.table "host" = .ok (storedHosts rows) := rfl
  exact Access.selectsExactly_of_read hquery rfl hstatement
    (Database.selectsExactly_of_found rfl htable rfl hfound)

/-- So are those of the page. -/
theorem selectsExactly_hostPage {rows : List StoredRow}
    (hfound : (hostPageStatement.plan (storedHosts rows).definition).found
      (storedHosts rows) (Timestamp.epoch.addMicros 1) none = .ok (rows.filter fun r =>
        decide ((isNorthern 35 48).holds
          ((storedHosts rows).definition.scope (Timestamp.epoch.addMicros 1) r) = .ok true))) :
    northernHosts.SelectsExactly hostPage (hostSession rows) := by
  have hquery : northernHosts.listQuery hostPage =
      .ok ⟨"SELECT id, region FROM host WHERE (id != :id AND (region = :region)) " ++
        "ORDER BY id ASC LIMIT 3 OFFSET 0", notThirdClause.params⟩ :=
    Access.listQuery_eq (v := notThird) rfl compile_notThird rfl
  have hstatement : Statement.read ("SELECT id, region FROM host " ++
      "WHERE (id != ? AND (region = ?)) ORDER BY id ASC LIMIT 3 OFFSET 0")
      [.text "c", .text "north"] = .ok (.select hostPageStatement) := rfl
  have htable : (hostSession rows).database.table "host" = .ok (storedHosts rows) := rfl
  exact Access.selectsExactly_of_read hquery rfl hstatement
    (Database.selectsExactly_of_found rfl htable rfl hfound)

/-- Two tables with the same northern hosts agree. -/
theorem agree_storedHosts :
    Database.Agree northernHosts.rules.fields (.group .and [northern])
      (Timestamp.epoch.addMicros 1) (storedHosts someHosts) (storedHosts otherHosts) := by
  refine ⟨rfl, fun row hholds => ?_⟩
  have hsouth : ¬ (Filter.group .and [northern]).HoldsIn northernHosts.rules.fields
      ((storedHosts someHosts).definition.scope (Timestamp.epoch.addMicros 1)
        (hostRow 2 "b" "south")) := by decide
  have hwest : ¬ (Filter.group .and [northern]).HoldsIn northernHosts.rules.fields
      ((storedHosts someHosts).definition.scope (Timestamp.epoch.addMicros 1)
        (hostRow 3 "d" "west")) := by decide
  -- Apart from the northern host, no row of either table is within the crown.
  have hnorth {other : StoredRow} (hother : row ≠ other) :
      row ∈ [hostRow 1 "a" "north", other] ↔ row = hostRow 1 "a" "north" := by
    rw [List.mem_cons, List.mem_singleton, or_iff_left hother]
  have hleft : row ≠ hostRow 2 "b" "south" := fun he => hsouth (he ▸ hholds)
  have hright : row ≠ hostRow 3 "d" "west" := fun he => hwest (he ▸ hholds)
  exact (hnorth hleft).trans (hnorth hright).symm

/-- They agree in values, if the northern host has another number. -/
theorem agreeInValues_storedHosts :
    Database.AgreeInValues northernHosts.rules.fields (.group .and [northern])
      (Timestamp.epoch.addMicros 1) (storedHosts someHosts) (storedHosts renumberedHosts) :=
  ⟨rfl, .of_eq (by decide +kernel)⟩

/-- The identifier tells hosts apart. -/
theorem sortsApart_hostPage {rows : List StoredRow} (hordered : (storedHosts rows).Ordered)
    (hnumbers : ∀ r ∈ rows, IntType.i64.Holds r.number)
    (hapart : (storedHosts rows).Distinguishes (.named "id")) :
    hostPage.SortsApart northernHosts (storedHosts rows) (.named "id") where
  column := by decide
  resolves := rfl
  own := by decide
  indexed := ⟨hordered, hnumbers, fun column hcolumn => by
    cases hcolumn
    exact hapart.setApart⟩
  apart := hapart

/-- Who asks for the hosts of the north is told of the same hosts, whatever there is in the
south or the west and whatever numbers the hosts have. -/
theorem northernHosts_confined :
    northernHosts.IsPlain ∧ northernHosts.options.crown = some (.and, [northern]) ∧
      (hostSession someHosts).database.WellFormed ∧
      (northernHosts.list hostCaller hostCount (hostSession someHosts)).1 =
        (northernHosts.list hostCaller hostCount (hostSession otherHosts)).1 ∧
      (northernHosts.list hostCaller hostPage (hostSession someHosts)).1 =
        (northernHosts.list hostCaller hostPage (hostSession renumberedHosts)).1 ∧
      northernHosts.Spares (.group .and [northern]) (hostSession someHosts)
        (northernHosts.deleteIn hostCaller northern (hostSession someHosts)).2 := by
  have hplain : northernHosts.IsPlain := hasColumnNames_northernHosts.toIsPlain
  have hsome : (hostSession someHosts).database.WellFormed :=
    wellFormed_hostSession (by decide +kernel)
  have hother : (hostSession otherHosts).database.WellFormed :=
    wellFormed_hostSession (by decide +kernel)
  have hrenumbered : (hostSession renumberedHosts).database.WellFormed :=
    wellFormed_hostSession (by decide +kernel)
  have hcolumns : northernHosts.FitsColumns (storedHosts someHosts).definition :=
    ⟨by decide, by decide⟩
  have hsorts : hostPage.SortsApart northernHosts (storedHosts someHosts) (.named "id") :=
    sortsApart_hostPage (by decide +kernel) (by decide) ⟨by decide, by decide⟩
  have hsorts' : hostPage.SortsApart northernHosts (storedHosts renumberedHosts) (.named "id") :=
    sortsApart_hostPage (by decide +kernel) (by decide) ⟨by decide, by decide⟩
  obtain ⟨hlist, hvalues, -, hdelete⟩ :=
    northernHosts.crown_confines hplain rfl hostCaller (hostSession someHosts) hsome
  refine ⟨hplain, rfl, hsome, ?_, ?_, hdelete northern⟩
  · exact hlist hostCount (hostSession otherHosts).database (storedHosts someHosts)
      (storedHosts otherHosts) rfl rfl hother agree_storedHosts
      (selectsExactly_hostCount (by decide +kernel)) (selectsExactly_hostCount (by decide +kernel))
  · exact hvalues hostPage (hostSession renumberedHosts).database (storedHosts someHosts)
      (storedHosts renumberedHosts) hasColumnNames_northernHosts hcolumns rfl rfl hrenumbered
      agreeInValues_storedHosts (.inr ⟨.named "id", hsorts, hsorts'⟩)
      (selectsExactly_hostPage (by cbv)) (selectsExactly_hostPage (by cbv))

/-! ### A name that is no identifier -/

/-- The hosts in the north, for callers who may also filter by a field that is no
identifier. -/
def leakyHosts : Access regionalHosts where
  rules := { fields := .ofList [("id = id OR id", .string), ("region", .string)] }
  options := { crown := some (.and, [northern]) }

/-- A rule on that field. -/
def leakyFilter : Filter := .rule ⟨"id = id OR id", .equal, .single (.text "x")⟩

/-- What its deletion is compiled to. -/
def leakyQuery : Query where
  sql := "DELETE FROM host WHERE (id = id OR id = :id___id_OR_id AND (region = :region))"
  params := .ofList [("id___id_OR_id", .single (.text "x")), ("region", .single (.text "north"))]

theorem deleteQuery_leakyFilter : leakyHosts.deleteQuery leakyFilter = .ok leakyQuery := by
  let v : ValidFilter leakyHosts.rules := ⟨leakyFilter, by decide⟩
  have hvalid : leakyFilter.validate leakyHosts.rules = .ok v := rfl
  rw [Access.deleteQuery, Access.clause_of_validate hvalid (by decide), v.compiled_unranked rfl]
  decide +kernel

/-- The condition that the database reads of it, of which every host is true. -/
def leakyCondition : Test :=
  .either (.compare .equal (.column "id" 24) (.column "id" 29))
    (.both (.compare .equal (.column "id" 35) (.literal (.text "x")))
      (.compare .equal (.column "region" 47) (.literal (.text "north"))))

/-- The deletion leaves no host. -/
theorem table_deleteIn_leakyFilter :
    (leakyHosts.deleteIn hostCaller leakyFilter (hostSession someHosts)).2.database.table "host" =
      .ok (storedHosts []) := by
  have htext : leakyQuery.bound =
      .ok ("DELETE FROM host WHERE (id = id OR id = ? AND (region = ?))",
        [.text "x", .text "north"]) := rfl
  have hstatement : Statement.read "DELETE FROM host WHERE (id = id OR id = ? AND (region = ?))"
      [.text "x", .text "north"] = .ok (.delete "host" (some leakyCondition)) := rfl
  have hprepare : (hostSession someHosts).database.prepare (Timestamp.epoch.addMicros 1)
      (.delete "host" (some leakyCondition)) = .ok () := rfl
  have hdelete : (storedHosts someHosts).delete (Timestamp.epoch.addMicros 1)
      (some leakyCondition) = .ok (storedHosts [], 2) := rfl
  have hrun : (hostSession someHosts).database.run (Timestamp.epoch.addMicros 1)
      (.delete "host" (some leakyCondition)) =
        .ok ({ affected := 2 }, (hostSession someHosts).database.withTable (storedHosts [])) := by
    have htable : (hostSession someHosts).database.table "host" = .ok (storedHosts someHosts) := rfl
    rw [Database.run, htable, Test.ok_bind, hdelete]
    rfl
  have hperform := Session.perform_ok "failed to execute statement" hostCaller
    (s := hostSession someHosts) rfl htext hstatement hprepare hrun
  have hdemand : (Access.demand (leakyHosts.deleteQuery leakyFilter) :
      Action Session Query) (hostSession someHosts) = (.ok leakyQuery, hostSession someHosts) := by
    rw [deleteQuery_leakyFilter]
    rfl
  rw [Access.deleteIn, Action.bind_run, hdemand]
  dsimp only [Session.connection]
  rw [Action.bind_run, hperform]
  rfl

/-- A field that is no identifier lets a caller out of the crown: the host in the south is
deleted. -/
theorem leakyHosts_escaped :
    leakyHosts.options.crown = some (.and, [northern]) ∧
      (hostSession someHosts).database.WellFormed ∧
      ¬ leakyHosts.Spares (.group .and [northern]) (hostSession someHosts)
        (leakyHosts.deleteIn hostCaller leakyFilter (hostSession someHosts)).2 := by
  refine ⟨rfl, wellFormed_hostSession (by decide +kernel), fun hspares => ?_⟩
  obtain ⟨u, hu, hkeeps⟩ := hspares (storedHosts someHosts) rfl
  obtain rfl := Except.ok.inj (hu.symm.trans table_deleteIn_leakyFilter)
  have hkept := hkeeps.rows (hostRow 2 "b" "south") (by decide +kernel) (by decide +kernel)
  exact List.not_mem_nil hkept

end ResourceTable
