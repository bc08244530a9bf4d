import ResourceTable.Proofs.Paging
import ResourceTable.Proofs.ShownRow

/-!
# Whitelists

A request can name the columns that it wants of every row.  The other columns are then hidden:
the rows are found and sorted as before, and each record is read from what is left of its row.

Only rows with the same value in the column that they are sorted by may change their places.
How the database finds rows depends on how many columns it has to sort, and rows that are equal
stay in the order in which they were found.

## Main definitions

* `Row.Hides`: a row of which some columns are left.
* `Access.CanHide`: columns of a table can be hidden from what a request shows.

## Main results

* `Row.hides_only` — what is left is read as before, and what is hidden as if it was absent.
* `Access.whitelist_hides` — **a whitelist only hides columns.**
* `whitelist_limits` — what else it may change.
-/

namespace ResourceTable

open Sql

/-! ### Rows of which columns are left -/

/-- What is read from a row of which some columns are left: a field whose columns are all left
is read as before, one whose column is hidden as one that was never set, and an optional field
is there if one of its columns is left and has a value. -/
structure Row.Hides (row shown : Row) (fields : List String) : Prop where
  kept : ∀ (t : FieldType) (column : String), (∀ c ∈ t.columns column, c ∈ fields) →
    t.fetch shown column = t.fetch row column
  hidden : ∀ (s : ScalarType), ∀ column ∉ fields, s.fetch shown column = .ok s.blank
  present : ∀ (t : FieldType) (column : String) (x : Option t.Content),
    (FieldType.optional t).fetch shown column = .ok x →
      (x.isSome = true ↔ ∃ c ∈ t.columns column, c ∈ fields ∧ row.hasValue c = true)

/-- **What is left is read as before, and what is hidden as if it was absent.** -/
theorem Row.hides_only (row : Row) (fields : List String) : row.Hides (row.only fields) fields where
  kept t column hcolumns := t.fetch_congr column fun c hc => by
    rw [get?_only, if_pos (hcolumns c hc)]
  hidden s column hcolumn := s.fetch_of_none (by rw [get?_only, if_neg hcolumn])
  present t column x hfetch := by
    have hpresent : t.present (row.only fields) column = true ↔
        ∃ c ∈ t.columns column, c ∈ fields ∧ row.hasValue c = true := by
      rw [t.present_eq_any, List.any_eq_true]
      refine exists_congr fun c => and_congr_right fun _ => ?_
      rw [hasValue_only, Bool.and_eq_true, List.contains_iff_mem]
    rw [← hpresent]
    rw [FieldType.fetch] at hfetch
    cases h : t.present (row.only fields) column with
    | false =>
      rw [h, if_neg Bool.false_ne_true] at hfetch
      cases hfetch
      exact ⟨fun h => absurd h Bool.false_ne_true, fun h => absurd h Bool.false_ne_true⟩
    | true =>
      rw [h, if_pos rfl] at hfetch
      cases hinner : t.fetch (row.only fields) column with
      | error e => rw [hinner] at hfetch; cases hfetch
      | ok y =>
        rw [hinner] at hfetch
        cases hfetch
        exact ⟨fun _ => rfl, fun _ => rfl⟩

/-! ### Titles -/

/-- The titles of a registry tell its columns apart.  Each is the name of its column, alone or
after the name of a group. -/
structure Registry.IsTitled (r : Registry) : Prop where
  distinct : (r.columns.map Column.title).Nodup
  forms : ∀ c ∈ r.columns, c.title = c.name ∨ ∃ group, c.title = group ++ "." ++ c.name

theorem eq_dot_of_toUpper {c : Char} (h : c.toUpper = '.') : c = '.' := by
  unfold Char.toUpper at h
  split at h
  · next hlower =>
    -- A small letter becomes a letter.
    have hnat := congrArg (fun d : Char => d.val.toNat) h
    dsimp only at hnat
    rw [UInt32.toNat_add] at hnat
    have hleast : 97 ≤ c.val.toNat := UInt32.le_iff_toNat_le.1 hlower.1
    have hmost : c.val.toNat ≤ 122 := UInt32.le_iff_toNat_le.1 hlower.2
    have hshift : ('A'.val - 'a'.val).toNat = 4294967264 := by decide +kernel
    have hdot : '.'.val.toNat = 46 := by decide +kernel
    rw [hshift, hdot] at hnat
    omega
  · exact h

theorem Sql.Keyword.dot_mem_upper {name : String} :
    '.' ∈ (Keyword.upper name).toList ↔ '.' ∈ name.toList := by
  rw [upper, String.toList_ofList, List.mem_map]
  constructor
  · rintro ⟨c, hc, hupper⟩
    exact eq_dot_of_toUpper hupper ▸ hc
  · exact fun h => ⟨'.', h, by decide⟩

namespace Registry

variable {r : Registry} {d : TableDef} {c k : Column}

/-- Only the column itself is shown under the name of a column. -/
theorem IsTitled.name_eq (h : r.IsTitled) (hdeclared : r.IsDeclaredBy d) (hc : c ∈ r.columns)
    (hk : k ∈ r.columns) (hbare : isBareName k.name.toList = true)
    (hsame : sameName c.title k.name = true) : c.name = k.name := by
  rcases h.forms c hc with htitle | ⟨group, htitle⟩
  · exact hdeclared.name_eq hc hk (htitle ▸ hsame)
  · -- A name after that of a group has a dot.
    exfalso
    have hupper : Keyword.upper c.title = Keyword.upper k.name := beq_iff_eq.1 hsame
    have hdot : '.' ∈ c.title.toList := by
      rw [htitle, String.toList_append, String.toList_append]
      exact List.mem_append_left _ (List.mem_append_right _ List.mem_cons_self)
    have hname := Keyword.dot_mem_upper.1 (hupper ▸ Keyword.dot_mem_upper.2 hdot)
    exact absurd (isNamePart_of_isBareName hbare '.' hname) (by decide)

end Registry

/-! ### Hiding columns -/

/-- The request for all columns of the same rows. -/
def ListRequest.showingAll (request : ListRequest) : ListRequest := { request with fields := [] }

/-- Columns of a table can be hidden from what a request shows: the names of the access are
read as columns of the table, its crown can be checked, titles tell the columns apart, and the
rows are sorted by a column.  Rows are told apart by their keys, and values are as the columns
store them. -/
structure Access.CanHide {r : Resource} (a : Access r) (request : ListRequest) (t : StoredTable)
    (key : ColumnRef) : Prop where
  names : a.HasColumnNames
  crown : Filter.CrownPasses a.rules a.options.crown
  titled : r.table.columns.IsTitled
  declared : r.table.columns.IsDeclaredBy t.definition
  fields : ∀ field ∈ a.rules.fields.keys, (t.definition.resolve (columnOf field)).isSome = true
  sort : request.page.sortOf a.pages ∈ r.table.columns.names
  resolves : t.definition.resolve (request.page.sortOf a.pages) = some key
  indexed : t.Indexed
  stored : ∀ row ∈ t.rows, (t.definition.affinity key).adapt (row.value key) = row.value key

namespace Access

variable {r : Resource} {a : Access r} {request : ListRequest} {v : ValidFilter a.rules}
  {t : StoredTable} {key : ColumnRef}

theorem CanHide.fits (h : a.CanHide request t key) : a.Fits t.definition :=
  ⟨fun _ hc => h.declared.resolves hc, h.fields⟩

/-- Whichever columns are shown, the rows are sorted by the same one. -/
theorem CanHide.sortsBy (h : a.CanHide request t key) (fields : List String) :
    ({ request with fields } : ListRequest).SortsBy a t.definition key := by
  refine ⟨h.sort, h.resolves, fun c hc hsame => ?_⟩
  obtain ⟨k, hk, hname⟩ := List.mem_map.1 h.sort
  have hsort : ({ request with fields } : ListRequest).page.sortOf a.pages = k.name := hname.symm
  rw [hsort] at hsame ⊢
  exact h.titled.name_eq h.declared (Registry.mem_columns_of_shown hc) hk
    (h.names.table.columns k hk).1 hsame

/-- A request that is accepted is also accepted without a whitelist. -/
theorem validate_showingAll (hvalid : request.validate a.rules a.pages = .ok v) :
    request.showingAll.validate a.rules a.pages = .ok v :=
  ListRequest.validate_alike hvalid rfl (ListRequest.accepted_of_validate hvalid).page rfl

/-- A count does not depend on what is shown. -/
theorem list_counting (hvalid : request.validate a.rules a.pages = .ok v)
    (hcrown : Filter.CrownPasses a.rules a.options.crown) (hcount : request.page.count = true)
    (caller : Caller) (s : Session) :
    (a.list caller request s).1 = (a.list caller request.showingAll s).1 := by
  have hquery : a.listQuery request = a.listQuery request.showingAll := by
    rw [listQuery_eq hvalid (v.compile_eq hcrown) rfl,
      listQuery_eq (validate_showingAll hvalid) (v.compile_eq hcrown) rfl]
    show (if request.page.count then _ else _) = if request.page.count then _ else _
    rw [if_pos hcount, if_pos hcount]
  unfold list
  rw [hquery]
  rfl

/-- **A whitelist only hides columns.**  With an accepted whitelist of columns, a page is of the
rows that the crowned filter matches, each of them once, sorted by the column that the page
asks for; each record is read from its stored row with the columns that are named; and without
the whitelist it is read from the whole stored row.  If no two of the rows are equal in the
column, they come in the same order.  A count does not depend on the whitelist. -/
theorem whitelist_hides (hvalid : request.validate a.rules a.pages = .ok v)
    (hfields : request.fields ≠ [])
    (hcolumns : ∀ field ∈ request.fields, field ∈ r.table.columns.names)
    (h : a.CanHide request t key) :
    request.showingAll.validate a.rules a.pages = .ok v ∧
    (request.page.count = true → ∀ caller s,
      (a.list caller request s).1 = (a.list caller request.showingAll s).1) ∧
    (request.page.count = false → ∀ caller s s', s.Serves a caller request t →
      s'.Serves a caller request.showingAll t → ∃ rows whole : List StoredRow,
        (∀ now, t.IsSorted now ((v.arranged a.options).asTest a.rules.fields) key
          (request.page.order == .descending) rows) ∧
        (∀ now, t.IsSorted now ((v.arranged a.options).asTest a.rules.fields) key
          (request.page.order == .descending) whole) ∧
        (whole.Pairwise (fun q r => (q.value key).order (r.value key) ≠ .eq) → rows = whole) ∧
        (a.list caller request s).1 = answerPage request.page
          (fun row => r.type.ofRow ((r.storedRow t.definition row).only request.fields)) rows ∧
        (a.list caller request.showingAll s').1 = answerPage request.page
          (fun row => r.type.ofRow (r.storedRow t.definition row)) whole) ∧
    ∀ row, (r.storedRow t.definition row).Hides
      ((r.storedRow t.definition row).only request.fields) request.fields := by
  refine ⟨validate_showingAll hvalid, list_counting hvalid h.crown,
    fun hcount caller s s' hs hs' => ?_, fun row => Row.hides_only _ _⟩
  have hempty : ¬ request.fields.isEmpty = true := mt List.isEmpty_iff.1 hfields
  -- Something is shown, with the whitelist and without it.
  have hshown : r.table.columns.shown request.fields ≠ [] := by
    intro hnone
    obtain ⟨field, rest, hcons⟩ := List.exists_cons_of_ne_nil hfields
    have hmem : field ∈ (r.table.columns.shown request.fields).map Column.name := by
      rw [Registry.names_shown, if_neg hempty, List.mem_filter, Registry.contains_iff]
      exact ⟨hcons ▸ List.mem_cons_self, hcolumns field (hcons ▸ List.mem_cons_self)⟩
    rw [hnone] at hmem
    cases hmem
  have hwhole : r.table.columns.shown [] ≠ [] := by
    obtain ⟨k, hk, -⟩ := List.mem_map.1 h.sort
    exact List.ne_nil_of_mem hk
  obtain ⟨rows, hrows, hlist⟩ := list_sorted hs.check h.names h.crown hvalid hcount hshown
    hs.table h.fits (h.sortsBy request.fields) h.indexed h.stored hs.selects
  obtain ⟨whole, hall, hlist'⟩ := list_sorted hs'.check h.names h.crown
    (validate_showingAll hvalid) hcount hwhole hs'.table h.fits (h.sortsBy []) h.indexed h.stored
    hs'.selects
  refine ⟨rows, whole, hrows, hall, fun hapart => ?_, ?_, ?_⟩
  · have hsymm := StoredTable.symm_order_ne key
    have hone (other : List StoredRow) (hother : ∀ row, row ∈ other → row ∈ whole) :
        ∀ q ∈ other, ∀ row ∈ other, (q.value key).order (row.value key) = .eq → q = row := by
      intro q hq row hrow he
      by_contra hne
      exact hapart.forall (hother q hq) (hother row hrow) hne he
    have hsame (row : StoredRow) (hrow : row ∈ rows) : row ∈ whole :=
      ((hall .epoch).mem row).2 (((hrows .epoch).mem row).1 hrow)
    exact ((hrows .epoch).isListed (hone rows hsame)).unique
      ((hall .epoch).isListed (hone whole fun _ hrow => hrow))
  · rw [hlist]
    refine congrArg (answerPage request.page · rows) (funext fun row => ?_)
    rw [Resource.ofRow, Resource.physical_shownRow h.titled.distinct hfields]
  · rw [hlist']
    refine congrArg (answerPage request.page · whole) (funext fun row => ?_)
    exact congrArg r.type.ofRow (Resource.physical_shownRow_nil h.titled.distinct)

end Access

/-! ### The regions of hosts -/

/-- A request for the region of the last host outside the west, named twice. -/
def lastRegion : ListRequest := { lastEastern with fields := ["region", "region"] }

/-- What the database reads of it. -/
def lastRegionStatement : SelectStatement where
  outputs := [.value (.column "region" 7) "region", .value (.column "region" 15) "region"]
  table := some "host"
  condition := some (isNotWest "region" 38)
  sorting := some ⟨.term (.column "id" 59), true⟩
  window := some (1, 0)

/-- What the database reads of the request for all columns. -/
def lastHostStatement : SelectStatement where
  outputs := [.value (.column "id" 7) "id", .value (.column "region" 11) "region"]
  table := some "host"
  condition := some (isNotWest "region" 34)
  sorting := some ⟨.term (.column "id" 55), true⟩
  window := some (1, 0)

theorem serves_lastRegion :
    (hostSession someHosts).Serves (hostsBy "region") hostCaller lastRegion
      (storedHosts someHosts) := by
  have hquery : (hostsBy "region").listQuery lastRegion =
      .ok ⟨"SELECT region, region FROM host WHERE region != :region ORDER BY id DESC LIMIT 1 OFFSET 0",
        easternClause.params⟩ :=
    Access.listQuery_eq (v := eastern) rfl compile_eastern rfl
  have hstatement : Statement.read
      "SELECT region, region FROM host WHERE region != ? ORDER BY id DESC LIMIT 1 OFFSET 0"
      [.text "west"] = .ok (.select lastRegionStatement) := rfl
  have htable : (hostSession someHosts).database.table "host" = .ok (storedHosts someHosts) := rfl
  exact ⟨rfl, rfl, Access.selectsExactly_of_read hquery rfl hstatement
    (Database.selectsExactly_of_perm rfl htable rfl (by cbv) (List.reverse_perm someHosts))⟩

theorem serves_lastHost :
    (hostSession someHosts).Serves (hostsBy "region") hostCaller lastRegion.showingAll
      (storedHosts someHosts) := by
  have hquery : (hostsBy "region").listQuery lastRegion.showingAll =
      .ok ⟨"SELECT id, region FROM host WHERE region != :region ORDER BY id DESC LIMIT 1 OFFSET 0",
        easternClause.params⟩ :=
    Access.listQuery_eq (v := eastern) rfl compile_eastern rfl
  have hstatement : Statement.read
      "SELECT id, region FROM host WHERE region != ? ORDER BY id DESC LIMIT 1 OFFSET 0"
      [.text "west"] = .ok (.select lastHostStatement) := rfl
  have htable : (hostSession someHosts).database.table "host" = .ok (storedHosts someHosts) := rfl
  exact ⟨rfl, rfl, Access.selectsExactly_of_read hquery rfl hstatement
    (Database.selectsExactly_of_perm rfl htable rfl (by cbv) (List.reverse_perm someHosts))⟩

theorem canHide_lastRegion :
    (hostsBy "region").CanHide lastRegion (storedHosts someHosts) (.named "id") where
  names := canPage_lastEastern.names
  crown := canPage_lastEastern.crown
  titled := ⟨by decide, fun c hc => .inl (by
    revert c
    decide)⟩
  declared := by
    unfold Registry.IsDeclaredBy
    decide
  fields := canPage_lastEastern.fits.fields
  sort := by decide
  resolves := rfl
  indexed := canPage_lastEastern.keyed.indexed
  stored := by decide

/-- The last host outside the west, and its region alone. -/
theorem lastRegion_hides :
    lastRegion.validate (hostsBy "region").rules (hostsBy "region").pages = .ok eastern ∧
      lastRegion.fields ≠ [] ∧
      (∀ field ∈ lastRegion.fields, field ∈ regionalHosts.table.columns.names) ∧
      (hostsBy "region").CanHide lastRegion (storedHosts someHosts) (.named "id") ∧
      ∃ rows : List StoredRow, rows.Nodup ∧
        ((hostsBy "region").list hostCaller lastRegion (hostSession someHosts)).1 =
          Access.answerPage lastRegion.page (fun row => regionalHosts.type.ofRow
            ((regionalHosts.storedRow (storedHosts someHosts).definition row).only
              ["region", "region"])) rows := by
  obtain ⟨-, -, hpage, -⟩ := Access.whitelist_hides (v := eastern) rfl (by decide) (by decide)
    canHide_lastRegion
  obtain ⟨rows, whole, hrows, -, -, hlist, -⟩ :=
    hpage rfl hostCaller _ _ serves_lastRegion serves_lastHost
  exact ⟨rfl, by decide, by decide, canHide_lastRegion, rows, (hrows .epoch).nodup, hlist⟩

/-! ### What a whitelist may change -/

/-- Hosts that can be filtered by their keys and by another field. -/
def hostsWith (field : String) : Access regionalHosts where
  rules := { fields := .ofList [("id", .string), (field, .string)] }

/-- A request for the keys of hosts of which a field is not `west`. -/
def keysBy (field : String) : ListRequest :=
  { firstBy field lastEastern.page.limit .ascending with fields := ["id"] }

/-- A field that is a keyword cannot be read, whatever is shown. -/
theorem keyword_unshown (caller : Caller) (s : Session) (listing : Listing regionalHosts.Item) :
    ((hostsWith "order").list caller (keysBy "order") s).1 ≠ .ok listing := by
  let v : ValidFilter (hostsWith "order").rules :=
    ⟨.rule ⟨"order", .notEqual, .single (.text "west")⟩, by decide⟩
  have hclause : v.compile (hostsWith "order").options = .ok
      ⟨"WHERE order != :order", .ofList [("order", .single (.text "west"))], false⟩ := by
    rw [v.compile_eq (by decide), v.compiled_unranked rfl]
    rfl
  exact Access.list_ne_ok (Access.listQuery_eq (v := v) rfl hclause rfl) rfl rfl caller listing

/-- A field that is no column of the table cannot be looked at, whatever is shown. -/
theorem unknownField_unshown (caller : Caller) (listing : Listing regionalHosts.Item) :
    ((hostsWith "colour").list caller (keysBy "colour") (hostSession someHosts)).1 ≠
      .ok listing := by
  let v : ValidFilter (hostsWith "colour").rules :=
    ⟨.rule ⟨"colour", .notEqual, .single (.text "west")⟩, by decide⟩
  have hclause : v.compile (hostsWith "colour").options = .ok
      ⟨"WHERE colour != :colour", .ofList [("colour", .single (.text "west"))], false⟩ := by
    rw [v.compile_eq (by decide), v.compiled_unranked rfl]
    rfl
  exact Access.list_ne_ok (Access.listQuery_eq (v := v) rfl hclause rfl) rfl rfl caller listing

/-- Hosts of the north that come after `b`, and the host `a`. -/
def northernOrFirst : Filter :=
  .group .and [.group .or [
    .group .and [.rule ⟨"id", .idGreater, .single (.text "b")⟩, northern],
    .rule ⟨"id", .equal, .single (.text "a")⟩], .rule ⟨"id", .idGreater, .single (.text "0")⟩]

/-- A request for them, sorted by region. -/
def byRegion (fields : List String) : ListRequest where
  filter := some northernOrFirst
  page := { limit := ⟨9, by decide⟩, sort := some "region" }
  fields := fields

/-- The filter of these requests. -/
def validNorthernOrFirst : ValidFilter (hostsWith "region").rules := ⟨northernOrFirst, by decide⟩

/-- The clause that it is compiled to. -/
def northernOrFirstClause : Clause where
  sql := "WHERE (((id > :id AND region = :region) OR id = :id_2) AND id > :id_3)"
  params := .ofList [("id", .single (.text "b")), ("region", .single (.text "north")),
    ("id_2", .single (.text "a")), ("id_3", .single (.text "0"))]
  matchesAll := false

theorem compile_northernOrFirst :
    validNorthernOrFirst.compile (hostsWith "region").options = .ok northernOrFirstClause := by
  rw [validNorthernOrFirst.compile_eq (by decide), validNorthernOrFirst.compiled_unranked rfl]
  decide +kernel

/-- The statement of a request that shows these columns. -/
def byRegionText (shown : String) : String :=
  "SELECT " ++ shown ++ " FROM host WHERE (((id > ? AND region = ?) OR id = ?) AND id > ?) " ++
    "ORDER BY region ASC LIMIT 9 OFFSET 0"

/-- What the database reads of it; the condition begins at a place. -/
def byRegionStatement (outputs : List Output) (place : Nat) : SelectStatement where
  outputs := outputs
  table := some "host"
  condition := some (.both (.either (.both
      (.compare .greater (.column "id" place) (.literal (.text "b")))
      (.compare .equal (.column "region" (place + 11)) (.literal (.text "north"))))
      (.compare .equal (.column "id" (place + 26)) (.literal (.text "a"))))
    (.compare .greater (.column "id" (place + 38)) (.literal (.text "0"))))
  sorting := some ⟨.term (.column "region" (place + 55)), false⟩
  window := some (9, 0)

/-- Two northern hosts. -/
def twoNortherns : List StoredRow := [hostRow 1 "c" "north", hostRow 2 "a" "north"]

set_option maxRecDepth 20000 in
/-- With all their columns the hosts come in the order of their keys. -/
theorem list_byRegion :
    ((hostsWith "region").list hostCaller (byRegion []) (hostSession twoNortherns)).1 =
      .ok { details := [("a", "north", ()), ("c", "north", ())] } := by
  have hvalid : (byRegion []).validate (hostsWith "region").rules (hostsWith "region").pages =
      .ok validNorthernOrFirst := rfl
  have hquery := Access.listQuery_eq hvalid compile_northernOrFirst rfl
  let statement := byRegionStatement
    [.value (.column "id" 7) "id", .value (.column "region" 11) "region"] 37
  have hread : Statement.read (byRegionText "id, region")
      [.text "b", .text "north", .text "a", .text "0"] = .ok (.select statement) := by
    simp only [Statement.read, byRegionText, String.toList_append]
    decide +kernel
  let db := (hostSession twoNortherns).database
  have hrun : db.run (Timestamp.epoch.addMicros 1) (.select statement) =
      .ok (⟨[[("id", .text "a"), ("region", .text "north")],
        [("id", .text "c"), ("region", .text "north")]], 0⟩, db) := by cbv
  rw [Access.list_run rfl hquery rfl hread rfl hrun]
  rfl

set_option maxRecDepth 20000 in
/-- With their keys, named often enough, they come in the order in which they are stored. -/
theorem list_byRegion_ids :
    ((hostsWith "region").list hostCaller (byRegion (List.replicate 31 "id"))
      (hostSession twoNortherns)).1 = .ok { details := [("c", "", ()), ("a", "", ())] } := by
  have hvalid : (byRegion (List.replicate 31 "id")).validate (hostsWith "region").rules
      (hostsWith "region").pages = .ok validNorthernOrFirst := rfl
  have hquery := Access.listQuery_eq hvalid compile_northernOrFirst rfl
  let statement := byRegionStatement
    ((List.range 31).map fun k => .value (.column "id" (7 + 4 * k)) "id") 149
  have hread : Statement.read (byRegionText (String.intercalate ", " (List.replicate 31 "id")))
      [.text "b", .text "north", .text "a", .text "0"] = .ok (.select statement) := by
    simp only [Statement.read, byRegionText, String.toList_append, String.toList_intercalate,
      List.map_replicate]
    decide +kernel
  let db := (hostSession twoNortherns).database
  have hrun : db.run (Timestamp.epoch.addMicros 1) (.select statement) =
      .ok (⟨[List.replicate 31 ("id", .text "c"), List.replicate 31 ("id", .text "a")], 0⟩, db) := by
    cbv
  rw [Access.list_run rfl hquery rfl hread rfl hrun]
  rfl

/-- **A request with an accepted filter may be refused, fail or be answered in another order for
its whitelist**: if a column of it is none of the fields that callers may name; if the crown
fails the check; if a field is a keyword, or no column; if rows are equal in the column that
they are sorted by. -/
theorem whitelist_limits :
    (∀ caller s, ((hostsBy "region").list caller { lastEastern with fields := ["id"] } s).1 =
      .error (.request (.unknownListField "id"))) ∧
    (∀ caller s, (miscrownedHosts.list caller lastRegion s).1 =
      .error (.request (.unknownField "colour"))) ∧
    (∀ field ∈ ["order", "colour"],
      ((keysBy field).validate (hostsWith field).rules (hostsWith field).pages).toOption.isSome =
        true) ∧
    (∀ caller s listing, ((hostsWith "order").list caller (keysBy "order") s).1 ≠ .ok listing) ∧
    (∀ caller listing, ((hostsWith "colour").list caller (keysBy "colour")
      (hostSession someHosts)).1 ≠ .ok listing) ∧
    (byRegion (List.replicate 31 "id")).validate (hostsWith "region").rules
      (hostsWith "region").pages = .ok validNorthernOrFirst ∧
    ((hostsWith "region").list hostCaller (byRegion []) (hostSession twoNortherns)).1 =
      .ok { details := [("a", "north", ()), ("c", "north", ())] } ∧
    ((hostsWith "region").list hostCaller (byRegion (List.replicate 31 "id"))
      (hostSession twoNortherns)).1 = .ok { details := [("c", "", ()), ("a", "", ())] } :=
  ⟨fun _ _ => rfl, fun _ _ => rfl, by decide, keyword_unshown, unknownField_unshown, rfl,
    list_byRegion, list_byRegion_ids⟩

end ResourceTable
