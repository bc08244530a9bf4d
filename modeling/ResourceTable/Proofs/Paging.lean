import ResourceTable.Proofs.PageRows

/-!
# Paging

Whoever asks for page after page of a table that does not change is told of each row that
the filter matches once, in the order of the primary key, and of as many rows as a count of
the same filter gives.

## Main definitions

* `piecesOf`: a list in pieces of one length.
* `ListRequest.startingAt`: the request for another page of the same rows.
* `Access.CanPage`: the rows of a table can be paged through.
* `Session.Serves`: a session that answers a request about a table.

## Main results

* `Access.pages_partition` — **the pages are the rows that match, each of them once.**
* `paging_fails` — what the names of an access and the keys of its rows have to be for that.
-/

namespace ResourceTable

open Sql

/-! ### Pieces of a list -/

section Pieces

variable {α : Type} {n : Nat} {l : List α}

/-- A list in pieces of so many members; the last piece may have fewer. -/
def piecesOf (n : Nat) (l : List α) : List (List α) :=
  (List.range ((l.length + n - 1) / n)).map fun k => (l.drop (k * n)).take n

theorem flatten_pieces (n : Nat) (l : List α) : ∀ m : Nat,
    ((List.range m).map fun k => (l.drop (k * n)).take n).flatten = l.take (m * n) := by
  intro m
  induction m with
  | zero => simp
  | succ m ih =>
    rw [List.range_succ, List.map_append, List.flatten_append, ih, Nat.succ_mul, List.take_add]
    simp

theorem lt_length_piecesOf_iff (hn : 0 < n) {k : Nat} :
    k < (piecesOf n l).length ↔ k * n < l.length := by
  rw [piecesOf, List.length_map, List.length_range, ← Nat.succ_le_iff, Nat.le_div_iff_mul_le hn,
    Nat.succ_mul]
  omega

/-- The pieces are the list. -/
theorem flatten_piecesOf (hn : 0 < n) (l : List α) : (piecesOf n l).flatten = l := by
  rw [piecesOf, flatten_pieces]
  refine List.take_of_length_le ?_
  have hlast := (lt_length_piecesOf_iff (l := l) hn (k := (l.length + n - 1) / n)).not
  rw [piecesOf, List.length_map, List.length_range] at hlast
  exact Nat.le_of_not_lt (hlast.1 (Nat.lt_irrefl _))

/-- A piece is where it is, and past the last one there is nothing. -/
theorem getD_piecesOf (hn : 0 < n) (l : List α) (k : Nat) :
    (piecesOf n l)[k]?.getD [] = (l.drop (k * n)).take n := by
  by_cases hk : k < (piecesOf n l).length
  · have hrange : k < (l.length + n - 1) / n := by
      rwa [piecesOf, List.length_map, List.length_range] at hk
    rw [piecesOf, List.getElem?_map, List.getElem?_range hrange]
    rfl
  · have hend := Nat.le_of_not_lt (mt (lt_length_piecesOf_iff hn).2 hk)
    rw [List.getElem?_eq_none (Nat.le_of_not_lt hk), List.drop_eq_nil_of_le hend, List.take_nil]
    rfl

/-- No piece is empty, and every piece but the last is full. -/
theorem length_piecesOf (hn : 0 < n) (l : List α) {k : Nat} (hk : k < (piecesOf n l).length) :
    0 < ((piecesOf n l)[k]?.getD []).length ∧
      (k + 1 < (piecesOf n l).length → ((piecesOf n l)[k]?.getD []).length = n) := by
  have hstart := (lt_length_piecesOf_iff hn).1 hk
  rw [getD_piecesOf hn, List.length_take, List.length_drop]
  refine ⟨by omega, fun hnext => ?_⟩
  have hend := (lt_length_piecesOf_iff hn).1 hnext
  rw [Nat.succ_mul] at hend
  omega

theorem exists_forall₂ {β : Type} {R : α → β → Prop} : ∀ {l : List α},
    (∀ x ∈ l, ∃ y, R x y) → ∃ ys, List.Forall₂ R l ys := by
  intro l
  induction l with
  | nil => exact fun _ => ⟨[], .nil⟩
  | cons x rest ih =>
    intro h
    obtain ⟨⟨y, hy⟩, hrest⟩ := List.forall_mem_cons.1 h
    obtain ⟨ys, hys⟩ := ih hrest
    exact ⟨y :: ys, .cons hy hys⟩

end Pieces

/-! ### Page after page -/

/-- The request for another page of the same rows. -/
def ListRequest.startingAt (request : ListRequest) (start : FixedInt .u32) : ListRequest :=
  { request with page := { request.page with start } }

section Requests

variable {r : Resource} {a : Access r} {request : ListRequest} {v : ValidFilter a.rules}

/-- A request for the rows that another one asks for is as acceptable, if its page and its fields
are. -/
theorem ListRequest.validate_alike {other : ListRequest}
    (hvalid : request.validate a.rules a.pages = .ok v) (hfilter : other.filter = request.filter)
    (hpage : other.page.check a.pages a.rules.fields = .ok ())
    (hfields : checkFields a.rules.fields other.fields = .ok ()) :
    other.validate a.rules a.pages = .ok v := by
  unfold validate at hvalid ⊢
  rw [hfilter]
  cases hf : request.filter with
  | none => rw [hf] at hvalid; cases hvalid
  | some filter =>
    rw [hf] at hvalid
    obtain ⟨w, hw, hvalid⟩ := Rule.bind_eq_ok hvalid
    obtain ⟨_, -, hvalid⟩ := Rule.bind_eq_ok hvalid
    obtain ⟨_, -, hvalid⟩ := Rule.bind_eq_ok hvalid
    cases hvalid
    simp only [hw, hpage, hfields, bind, Except.bind, pure, Except.pure]

/-- The rows of a table can be paged through: the names of the access are columns of the
table, the rows are ordered by the primary key, which tells them apart, and each of them can
be read. -/
structure Access.CanPage (a : Access r) (request : ListRequest) (t : StoredTable)
    (key : ColumnRef) : Prop where
  names : a.HasColumnNames
  crown : Filter.CrownPasses a.rules a.options.crown
  fits : a.Fits t.definition
  shown : r.table.columns.shown request.fields ≠ []
  ordered : request.OrdersByKey a t.definition key
  keyed : t.Keyed
  few : t.rows.length < 2 ^ 32
  decodable : ∀ row ∈ t.rows, ∃ item, r.ofRow (Row.ofResult
    (t.definition.shownRow (r.table.columns.shown request.fields) row)) = .ok item

/-- A session that answers a request about a table: the caller has not canceled, the rows of
the table are these, and the database finds those for which the condition is true. -/
structure Session.Serves (s : Session) (a : Access r) (caller : Caller) (request : ListRequest)
    (t : StoredTable) : Prop where
  check : s.signals.check caller = .ok ()
  table : s.database.table r.table.name = .ok t
  selects : a.SelectsExactly request s

/-- **Pages neither lose nor repeat rows and agree with the count.**  If the rows of a table
can be paged through, the pages from the first row on are records of the rows that the
crowned filter matches, each of them once, in the strict order of the primary key.  All of
these pages can be asked for; each is full but the last; past them a page is empty; and a
count of the same filter, whatever else its page asks for, gives the number of the rows. -/
theorem Access.pages_partition (hvalid : request.validate a.rules a.pages = .ok v)
    (hpage : request.page.count = false) {t : StoredTable} {key : ColumnRef}
    (h : a.CanPage request t key) :
    ∃ (listed : List StoredRow) (pages : List (List r.Item)),
      (∀ row, row ∈ listed ↔ row ∈ t.rows ∧ ∀ now,
        ((v.arranged a.options).asTest a.rules.fields).holds (t.definition.scope now row) =
          .ok true) ∧
      listed.Nodup ∧
      listed.Pairwise (StoredRow.Before key (request.page.order == .descending)) ∧
      List.Forall₂ (fun row item => r.ofRow (Row.ofResult (t.definition.shownRow
        (r.table.columns.shown request.fields) row)) = .ok item) listed pages.flatten ∧
      (∀ k < pages.length, IntType.u32.Holds (k * request.page.limit.val) ∧
        0 < (pages[k]?.getD []).length ∧
        (k + 1 < pages.length → (pages[k]?.getD []).length = request.page.limit.val.toNat)) ∧
      (∀ (k : Nat) (start : FixedInt .u32), start.val = k * request.page.limit.val →
        ∀ caller s, s.Serves a caller (request.startingAt start) t →
          (a.list caller (request.startingAt start) s).1 =
            .ok { details := pages[k]?.getD [] }) ∧
      ∀ counting : ListRequest, counting.page.count = true → counting.filter = request.filter →
        ListRequest.checkFields a.rules.fields counting.fields = .ok () →
          ∀ caller s, s.Serves a caller counting t →
            ∃ n, (a.list caller counting s).1 = .ok { count := some n } ∧
              n.val = listed.length := by
  obtain ⟨listed, hlisted⟩ : ∃ rows, t.IsListed .epoch
      ((v.arranged a.options).asTest a.rules.fields) key (request.page.order == .descending)
      rows :=
    StoredTable.exists_isListed h.keyed h.ordered.primary
  have honly : ((v.arranged a.options).asTest a.rules.fields).OnlyColumns fun _ => True :=
    h.names.onlyColumns h.crown fun _ _ => trivial
  have hany := hlisted.at_any_time honly
  -- Every row that is listed can be read.
  obtain ⟨items, hitems⟩ : ∃ items, List.Forall₂ (fun row item => r.ofRow (Row.ofResult
      (t.definition.shownRow (r.table.columns.shown request.fields) row)) = .ok item)
        listed items :=
    exists_forall₂ fun row hrow => h.decodable row ((hlisted.mem row).1 hrow).1
  obtain ⟨limit, hlimit⟩ := Int.eq_ofNat_of_zero_le request.page.limit.holds.1
  have hpos : 0 < limit := by
    have hpositive := limit_pos_of_validate hvalid hpage
    omega
  have hflat : (piecesOf limit items).flatten = items := flatten_piecesOf hpos items
  have hlength : items.length < 2 ^ 32 := by
    have hsub := (List.subperm_of_subset hlisted.nodup fun row hrow =>
      ((hlisted.mem row).1 hrow).1).length_le
    have hsame := hitems.length_eq
    have hfew := h.few
    omega
  refine ⟨listed, piecesOf limit items, fun row => ?_, hlisted.nodup, hlisted.ordered,
    hflat.symm ▸ hitems, fun k hk => ?_, fun k start hstart caller s hs => ?_,
    fun counting hcount hfilter hfields caller s hs => ?_⟩
  · refine ⟨fun hrow => ⟨((hlisted.mem row).1 hrow).1, fun now => (((hany now).mem row).1 hrow).2⟩,
      fun hrow => (hlisted.mem row).2 ⟨hrow.1, hrow.2 .epoch⟩⟩
  · obtain ⟨hfilled, hfull⟩ := length_piecesOf hpos items hk
    have hstart := (lt_length_piecesOf_iff hpos).1 hk
    rw [hlimit]
    exact ⟨⟨by show (0 : Int) ≤ k * limit; omega,
      by show (k * limit : Int) ≤ 2 ^ 32 - 1; omega⟩, hfilled, hfull⟩
  · have hagain : (request.startingAt start).validate a.rules a.pages = .ok v := hvalid
    have hkey : (request.startingAt start).OrdersByKey a t.definition key :=
      ⟨h.ordered.column, h.ordered.resolves, h.ordered.primary, h.ordered.own⟩
    have hfrom : (request.startingAt start).page.start.val.toNat = k * limit := by
      show start.val.toNat = k * limit
      rw [hstart, hlimit]
      exact Int.toNat_natCast (k * limit)
    have hmany : (request.startingAt start).page.limit.val.toNat = limit := by
      show request.page.limit.val.toNat = limit
      omega
    rw [list_page hs.check h.names h.crown hagain hpage h.shown hs.table h.fits hkey h.keyed
      hs.selects hlisted hitems, hfrom, hmany, getD_piecesOf hpos]
  · exact list_total hs.check h.names h.crown
      (ListRequest.validate_alike hvalid hfilter (if_pos hcount) hfields) hcount hs.table h.fits
      hs.selects hlisted (by have hfew := h.few; omega)

end Requests

/-! ### Hosts outside the west -/

/-- Hosts that can be filtered by one field. -/
def hostsBy (field : String) : Access regionalHosts where
  rules := { fields := .ofList [(field, .string)] }

/-- A request for hosts of which a field is not `west`. -/
def firstBy (field : String) (limit : FixedInt .u32) (order : Order) : ListRequest where
  filter := some (.rule ⟨field, .notEqual, .single (.text "west")⟩)
  page := { limit, order }

/-- One host outside the west, the last one first. -/
def lastEastern : ListRequest := firstBy "region" ⟨1, by decide⟩ .descending

/-- The number of the hosts outside the west. -/
def easternCount : ListRequest where
  filter := lastEastern.filter
  page := { count := true }

/-- The filter of these requests. -/
def eastern : ValidFilter (hostsBy "region").rules :=
  ⟨.rule ⟨"region", .notEqual, .single (.text "west")⟩, by decide⟩

/-- The clause that it is compiled to. -/
def easternClause : Clause where
  sql := "WHERE region != :region"
  params := .ofList [("region", .single (.text "west"))]
  matchesAll := false

theorem compile_eastern : eastern.compile (hostsBy "region").options = .ok easternClause := by
  rw [eastern.compile_eq (by decide), eastern.compiled_unranked rfl]
  rfl

/-- A condition that a column is not `west`, somewhere in a statement. -/
def isNotWest (column : String) (place : Nat) : Test :=
  .compare .notEqual (.column column place) (.literal (.text "west"))

/-- The statement of a request for the second of the hosts. -/
def secondText : String :=
  "SELECT id, region FROM host WHERE region != ? ORDER BY id DESC LIMIT 1 OFFSET 1"

/-- What the database reads of it. -/
def secondStatement : SelectStatement where
  outputs := [.value (.column "id" 7) "id", .value (.column "region" 11) "region"]
  table := some "host"
  condition := some (isNotWest "region" 34)
  sorting := some ⟨.term (.column "id" 55), true⟩
  window := some (1, 1)

theorem selectsExactly_lastEastern :
    (hostsBy "region").SelectsExactly (lastEastern.startingAt ⟨1, by decide⟩)
      (hostSession someHosts) := by
  have hquery : (hostsBy "region").listQuery (lastEastern.startingAt ⟨1, by decide⟩) =
      .ok ⟨"SELECT id, region FROM host WHERE region != :region ORDER BY id DESC LIMIT 1 OFFSET 1",
        easternClause.params⟩ :=
    Access.listQuery_eq (v := eastern) rfl compile_eastern rfl
  have hstatement : Statement.read secondText [.text "west"] = .ok (.select secondStatement) := rfl
  have htable : (hostSession someHosts).database.table "host" = .ok (storedHosts someHosts) := rfl
  exact Access.selectsExactly_of_read hquery rfl hstatement
    (Database.selectsExactly_of_perm rfl htable rfl (by cbv) (List.reverse_perm someHosts))

theorem selectsExactly_easternCount :
    (hostsBy "region").SelectsExactly easternCount (hostSession someHosts) := by
  have hquery : (hostsBy "region").listQuery easternCount =
      .ok ⟨"SELECT COUNT(*) FROM host WHERE region != :region", easternClause.params⟩ :=
    Access.listQuery_eq (v := eastern) rfl compile_eastern rfl
  have hstatement : Statement.read "SELECT COUNT(*) FROM host WHERE region != ?"
      [.text "west"] = .ok (.select (countStatement "host" (isNotWest "region" 32))) := rfl
  have htable : (hostSession someHosts).database.table "host" = .ok (storedHosts someHosts) := rfl
  exact Access.selectsExactly_of_read hquery rfl hstatement
    (Database.selectsExactly_of_found rfl htable rfl rfl)

theorem canPage_lastEastern :
    (hostsBy "region").CanPage lastEastern (storedHosts someHosts) (.named "id") where
  names :=
    { table := ⟨by decide, by decide⟩
      fields := by decide
      free := by decide
      names := by decide
      words := by decide }
  crown := by decide
  fits := ⟨by decide, by decide⟩
  shown := by decide
  ordered := ⟨by decide, rfl, rfl, by decide⟩
  keyed := by
    refine ⟨by decide, by decide, fun column hcolumn => ?_⟩
    cases hcolumn
    exact ⟨by decide, by decide⟩
  few := by decide
  decodable := List.forall_mem_cons.2 ⟨⟨("a", "north", ()), rfl⟩,
    List.forall_mem_cons.2 ⟨⟨("b", "south", ()), rfl⟩, nofun⟩⟩

/-- Two hosts outside the west: their pages have one host each, and their number is that of
the hosts on all pages. -/
theorem easternHosts_paged :
    lastEastern.validate (hostsBy "region").rules (hostsBy "region").pages = .ok eastern ∧
      lastEastern.page.count = false ∧
      (hostsBy "region").CanPage lastEastern (storedHosts someHosts) (.named "id") ∧
      ∃ pages : List (List regionalHosts.Item),
        (∀ k < pages.length, 0 < (pages[k]?.getD []).length) ∧
        ((hostsBy "region").list hostCaller (lastEastern.startingAt ⟨1, by decide⟩)
          (hostSession someHosts)).1 = .ok { details := pages[1]?.getD [] } ∧
        ∃ n, ((hostsBy "region").list hostCaller easternCount (hostSession someHosts)).1 =
          .ok { count := some n } ∧ n.val = pages.flatten.length := by
  obtain ⟨listed, pages, -, -, -, hitems, hfilled, hpages, htotal⟩ :=
    Access.pages_partition (v := eastern) rfl rfl canPage_lastEastern
  obtain ⟨n, hn, hval⟩ := htotal easternCount rfl rfl rfl hostCaller (hostSession someHosts)
    ⟨rfl, rfl, selectsExactly_easternCount⟩
  refine ⟨rfl, rfl, canPage_lastEastern, pages, fun k hk => (hfilled k hk).2.1,
    hpages 1 ⟨1, by decide⟩ rfl hostCaller _ ⟨rfl, rfl, selectsExactly_lastEastern⟩, n, hn, ?_⟩
  rw [hval, hitems.length_eq]

/-! ### What hinders paging -/

/-- Hosts that no rule of the crown can be checked for. -/
def miscrownedHosts : Access regionalHosts where
  rules := (hostsBy "region").rules
  options := { crown := some (.and, [.rule ⟨"colour", .equal, .single (.text "red")⟩]) }

/-- A field that is a keyword cannot be read. -/
theorem keyword_unlisted (caller : Caller) (s : Session) (listing : Listing regionalHosts.Item) :
    ((hostsBy "order").list caller (firstBy "order" ⟨1, by decide⟩ .ascending) s).1 ≠
      .ok listing := by
  let v : ValidFilter (hostsBy "order").rules :=
    ⟨.rule ⟨"order", .notEqual, .single (.text "west")⟩, by decide⟩
  have hclause : v.compile (hostsBy "order").options = .ok
      ⟨"WHERE order != :order", .ofList [("order", .single (.text "west"))], false⟩ := by
    rw [v.compile_eq (by decide), v.compiled_unranked rfl]
    rfl
  exact Access.list_ne_ok (Access.listQuery_eq (v := v) rfl hclause rfl) rfl rfl caller listing

/-- A field that is no column of the table cannot be looked at. -/
theorem unknownField_unlisted (caller : Caller) (listing : Listing regionalHosts.Item) :
    ((hostsBy "colour").list caller (firstBy "colour" ⟨1, by decide⟩ .ascending)
      (hostSession someHosts)).1 ≠ .ok listing := by
  let v : ValidFilter (hostsBy "colour").rules :=
    ⟨.rule ⟨"colour", .notEqual, .single (.text "west")⟩, by decide⟩
  have hclause : v.compile (hostsBy "colour").options = .ok
      ⟨"WHERE colour != :colour", .ofList [("colour", .single (.text "west"))], false⟩ := by
    rw [v.compile_eq (by decide), v.compiled_unranked rfl]
    rfl
  exact Access.list_ne_ok (Access.listQuery_eq (v := v) rfl hclause rfl) rfl rfl caller listing

/-- Hosts whose regions are shown under the name of the key, but for the case of letters. -/
def disguisedHosts : Resource where
  table := .ofColumns "host" (.ofColumns false [⟨"region", "ID", .string⟩, .plain "id" .string])
  type := regionalHosts.type

/-- All of them. -/
def disguisedAccess : Access disguisedHosts where
  rules := (hostsBy "region").rules

/-- What the database reads of a request for the first two of them. -/
def disguisedStatement : SelectStatement where
  outputs := [.value (.column "region" 7) "ID", .value (.column "id" 23) "id"]
  table := some "host"
  condition := some (isNotWest "region" 42)
  sorting := some ⟨.term (.column "id" 63), false⟩
  window := some (2, 0)

/-- They come in the order of their regions, not of their keys. -/
theorem shownKey_hidden :
    (disguisedAccess.list hostCaller (firstBy "region" ⟨2, by decide⟩ .ascending)
      (hostSession [hostRow 1 "a" "south", hostRow 2 "b" "north"])).1 =
        .ok { details := [("b", "north", ()), ("a", "south", ())] } := by
  have hvalid : (firstBy "region" ⟨2, by decide⟩ .ascending).validate disguisedAccess.rules
      disguisedAccess.pages = .ok eastern := rfl
  have hquery := Access.listQuery_eq (a := disguisedAccess) hvalid compile_eastern rfl
  have hread : Statement.read ("SELECT region AS \"ID\", id FROM host WHERE region != ? " ++
      "ORDER BY id ASC LIMIT 2 OFFSET 0") [.text "west"] = .ok (.select disguisedStatement) := rfl
  let db := (hostSession [hostRow 1 "a" "south", hostRow 2 "b" "north"]).database
  have hrun : db.run (Timestamp.epoch.addMicros 1) (.select disguisedStatement) =
      .ok (⟨[[("ID", .text "north"), ("id", .text "b")], [("ID", .text "south"), ("id", .text "a")]],
        0⟩, db) := by cbv
  rw [Access.list_run rfl hquery rfl hread rfl hrun]
  rfl

/-- The row of a host without a key. -/
def keylessRow (number : Int) (region : String) : StoredRow :=
  ⟨number, .ofList [("id", .null), ("region", .text region)]⟩

/-- What the database reads of a request for the first two hosts. -/
def firstStatement : SelectStatement where
  outputs := [.value (.column "id" 7) "id", .value (.column "region" 11) "region"]
  table := some "host"
  condition := some (isNotWest "region" 34)
  sorting := some ⟨.term (.column "id" 55), false⟩
  window := some (2, 0)

/-- Rows without keys are in no strict order. -/
theorem blankKeys_repeated :
    ((hostsBy "region").list hostCaller (firstBy "region" ⟨2, by decide⟩ .ascending)
      (hostSession [keylessRow 1 "north", keylessRow 2 "south"])).1 =
        .ok { details := [("", "north", ()), ("", "south", ())] } := by
  have hvalid : (firstBy "region" ⟨2, by decide⟩ .ascending).validate (hostsBy "region").rules
      (hostsBy "region").pages = .ok eastern := rfl
  have hquery := Access.listQuery_eq (a := hostsBy "region") hvalid compile_eastern rfl
  have hread : Statement.read
      "SELECT id, region FROM host WHERE region != ? ORDER BY id ASC LIMIT 2 OFFSET 0"
      [.text "west"] = .ok (.select firstStatement) := rfl
  let db := (hostSession [keylessRow 1 "north", keylessRow 2 "south"]).database
  have hrun : db.run (Timestamp.epoch.addMicros 1) (.select firstStatement) =
      .ok (⟨[[("id", .null), ("region", .text "north")],
        [("id", .null), ("region", .text "south")]], 0⟩, db) := by cbv
  rw [Access.list_run rfl hquery rfl hread rfl hrun]
  rfl

/-- **Pages of an accepted filter may be refused, fail or come in another order**: if the key
is none of the fields that callers may name, and the page names it; if the crown fails the
check; if a field is a keyword, or no column; if a column is shown as the key, but for the case of letters; if keys are
missing. -/
theorem paging_fails :
    (∀ field ∈ ["region", "order", "colour"],
      ((firstBy field ⟨1, by decide⟩ .ascending).validate (hostsBy field).rules
        (hostsBy field).pages).toOption.isSome = true) ∧
      (∀ caller s, ((hostsBy "region").list caller
        { lastEastern with page := { lastEastern.page with sort := some "id" } } s).1 =
          .error (.request (.unknownSort "id"))) ∧
      (∀ caller s, (miscrownedHosts.list caller lastEastern s).1 =
        .error (.request (.unknownField "colour"))) ∧
      (∀ caller s listing, ((hostsBy "order").list caller
        (firstBy "order" ⟨1, by decide⟩ .ascending) s).1 ≠ .ok listing) ∧
      (∀ caller listing, ((hostsBy "colour").list caller
        (firstBy "colour" ⟨1, by decide⟩ .ascending) (hostSession someHosts)).1 ≠ .ok listing) ∧
      (disguisedAccess.list hostCaller (firstBy "region" ⟨2, by decide⟩ .ascending)
        (hostSession [hostRow 1 "a" "south", hostRow 2 "b" "north"])).1 =
          .ok { details := [("b", "north", ()), ("a", "south", ())] } ∧
      ((hostsBy "region").list hostCaller (firstBy "region" ⟨2, by decide⟩ .ascending)
        (hostSession [keylessRow 1 "north", keylessRow 2 "south"])).1 =
          .ok { details := [("", "north", ()), ("", "south", ())] } :=
  ⟨by decide, fun _ _ => rfl, fun _ _ => rfl, keyword_unlisted, unknownField_unlisted, shownKey_hidden,
    blankKeys_repeated⟩

end ResourceTable
