import ResourceTable.Access
import ResourceTable.Proofs.Acceptance
import ResourceTable.Proofs.Compilation

/-!
# List requests that are accepted

Three parts decide what a known field is: a request is checked against the fields that
filters may name, its projection is made of the columns, and the sort of its page has to
be an identifier.  They agree on every request that names columns alone.  On paths into
documents they do not: a path is accepted, but left out of the projection, and refused as
a sort by the page.

## Main definitions

* `Registry.shown`: the columns that a request shows.
* `Page.sortOf`: the column that orders the rows of a page.

## Main results

* `names_shown` — what is shown are the fields that are columns, in their order.
* `listQuery_eq` — the statement of an accepted request, or why there is none.
* `accepted_request_built` — **a request that names columns is accepted only if its
  statement can be built, and shows every field that it names.**
-/

namespace ResourceTable

/-! ### What is shown -/

namespace Registry

variable {r : Registry} {fields : List String}

/-- The columns that a request for the fields shows: all of them, if it names none. -/
def shown (r : Registry) (fields : List String) : List Column :=
  if fields.isEmpty then r.columns else fields.filterMap r.column?

theorem column?_eq_some {name : String} {c : Column} (h : r.column? name = some c) :
    c ∈ r.columns ∧ c.name = name :=
  ⟨List.mem_of_find?_eq_some h, by simpa using List.find?_some h⟩

theorem contains_iff {name : String} : r.contains name = true ↔ name ∈ r.names := by
  rw [contains, column?, List.find?_isSome, names, List.mem_map]
  simp only [beq_iff_eq]

theorem projectionOf_eq :
    r.projectionOf fields = String.intercalate ", " ((r.shown fields).map Column.projected) := by
  unfold projectionOf shown
  split <;> rfl

theorem mem_columns_of_shown {c : Column} (h : c ∈ r.shown fields) : c ∈ r.columns := by
  unfold shown at h
  split at h
  · exact h
  · obtain ⟨name, -, hname⟩ := List.mem_filterMap.1 h
    exact (column?_eq_some hname).1

/-- What is shown are the fields that are columns, in the order in which they are named. -/
theorem names_shown :
    (r.shown fields).map Column.name =
      if fields.isEmpty then r.names else fields.filter r.contains := by
  unfold shown
  split
  · rfl
  · rw [List.map_filterMap]
    induction fields with
    | nil => rfl
    | cons field rest ih =>
      rw [List.filterMap_cons, List.filter_cons]
      have hrest : rest.filterMap (fun x => (r.column? x).map Column.name) =
          rest.filter r.contains := by
        cases rest with
        | nil => rfl
        | cons next rest => exact ih (by simp)
      cases hcolumn : r.column? field with
      | none => simpa [contains, hcolumn] using hrest
      | some c => simpa [contains, hcolumn, (column?_eq_some hcolumn).2] using hrest

end Registry

theorem Column.projected_ne_empty {c : Column} (h : c.name ≠ "") : c.projected ≠ "" := by
  have hchars : c.name.toList ≠ [] := fun hn => h (String.toList_inj.1 hn)
  unfold projected
  split
  · exact h
  · intro he
    have hlist := congrArg String.toList he
    simp only [String.toList_append, String.toList_empty, List.append_eq_nil_iff] at hlist
    exact hchars hlist.1.1.1

/-- Parts of which the first is not empty do not join to the empty text. -/
theorem intercalate_cons_ne_empty {separator part : String} (h : part ≠ "") (rest : List String) :
    String.intercalate separator (part :: rest) ≠ "" := by
  intro he
  cases rest with
  | nil => exact h (by simpa using he)
  | cons next rest =>
    have hlist := congrArg String.toList he
    rw [String.toList_intercalate] at hlist
    simp at hlist
    exact h hlist.1

/-! ### What is accepted -/

namespace Page

/-- The column that orders the rows of the page. -/
def sortOf (rules : PageRules) (p : Page) : String := p.sort?.getD rules.defaultSort

/-- The end of the statement of the page. -/
def ending (rules : PageRules) (p : Page) : String :=
  "ORDER BY " ++ p.sortOf rules ++ " " ++ p.order.keyword ++ " LIMIT " ++
    toString p.limit.val ++ " OFFSET " ++ toString p.start.val

theorem suffix_eq {rules : PageRules} {p : Page} (hcount : p.count = false) :
    p.suffix rules =
      if isIdentifier (p.sortOf rules).toList then .ok (p.ending rules)
      else .error (.sortNotColumn (p.sortOf rules)) := by
  rw [suffix, hcount, if_neg Bool.false_ne_true]
  rfl

theorem spaced_ending (rules : PageRules) (p : Page) :
    Selection.spaced (p.ending rules) = " " ++ p.ending rules := by
  refine if_neg fun hempty => ?_
  have hlist := congrArg String.toList (String.isEmpty_iff.1 hempty)
  simp [ending] at hlist

theorem contains_of_check {rules : PageRules} {fields : Schema} {p : Page}
    (h : p.check rules fields = .ok ()) (hcount : p.count = false) :
    ∀ sort ∈ p.sort?, fields.contains sort = true := by
  intro sort hsort
  unfold check at h
  rw [hcount, if_neg Bool.false_ne_true, hsort] at h
  split at h
  · cases h
  · split at h
    · cases h
    · dsimp only at h
      split at h
      · assumption
      · cases h

end Page

namespace ListRequest

variable {rules : FilterRules} {pages : PageRules} {request : ListRequest} {v : ValidFilter rules}

/-- What the acceptance of a request promises. -/
structure Accepted (rules : FilterRules) (pages : PageRules) (request : ListRequest) : Prop where
  /-- Its page asks for what it may. -/
  page : request.page.check pages rules.fields = .ok ()
  /-- The fields that it names are known. -/
  fields : ∀ name ∈ request.fields, rules.fields.contains name = true

/-- The fields and the sort of the request are no paths into documents. -/
structure NamesNoPath (request : ListRequest) : Prop where
  /-- The fields are none. -/
  fields : ∀ name ∈ request.fields, isDocumentPath name.toList = false
  /-- The sort is none. -/
  sort : ∀ name ∈ request.page.sort?, isDocumentPath name.toList = false

theorem accepted_of_validate (h : request.validate rules pages = .ok v) :
    request.Accepted rules pages := by
  unfold validate at h
  split at h
  · cases h
  · obtain ⟨w, -, h⟩ := Rule.bind_eq_ok h
    obtain ⟨_, hpage, h⟩ := Rule.bind_eq_ok h
    obtain ⟨_, hfields, -⟩ := Rule.bind_eq_ok h
    refine ⟨hpage, fun name hname => ?_⟩
    unfold checkFields at hfields
    split at hfields
    · cases hfields
    · next hnone => simpa using List.find?_eq_none.1 hnone name hname

end ListRequest

/-! ### What is built -/

namespace Access

variable {r : Resource} {a : Access r} {request : ListRequest} {v : ValidFilter a.rules}

/-- The statement of an accepted request.  A count has neither a projection nor an order;
any other is refused without a column to show, or with a sort that is no identifier. -/
theorem listQuery_eq (hvalid : request.validate a.rules a.pages = .ok v) {clause : Clause}
    (hclause : v.compile a.options = .ok clause) {shown : String}
    (hshown : shown = String.intercalate ", "
      ((r.table.columns.shown request.fields).map Column.projected)) :
    a.listQuery request =
      if request.page.count then
        .ok ⟨"SELECT COUNT(*) FROM " ++ r.table.name ++ " " ++ clause.sql, clause.params⟩
      else if shown = "" then .error (.nothingSelected r.table.name)
      else if isIdentifier (request.page.sortOf a.pages).toList then
        .ok ⟨"SELECT " ++ shown ++ " FROM " ++ r.table.name ++ " " ++ clause.sql ++ " " ++
          request.page.ending a.pages, clause.params⟩
      else .error (.sortNotColumn (request.page.sortOf a.pages)) := by
  rw [listQuery, hvalid]
  simp only [bind, Except.bind, hclause]
  unfold Selection.query Selection.projection Selection.suffix Selection.paged
  dsimp only
  rw [Registry.projectionOf_eq, ← hshown]
  cases hcount : request.page.count with
  | true => simp [bind, Except.bind, pure, Except.pure, Selection.spaced, String.append_assoc]
  | false =>
    rw [Page.suffix_eq hcount]
    -- The projection is checked before the order.
    by_cases hempty : shown = ""
    · simp [hempty, bind, Except.bind]
    · by_cases hsort : isIdentifier (request.page.sortOf a.pages).toList = true
      · simp [hempty, hsort, bind, Except.bind, pure, Except.pure, Page.spaced_ending,
          String.append_assoc]
      · simp [hempty, hsort, bind, Except.bind]

/-- A statement is built only for an accepted request, under a crown that passes the check.
Unless it is a count, there is a column to show. -/
theorem exists_accepted_of_listQuery {q : Query} (h : a.listQuery request = .ok q) :
    ∃ v, request.validate a.rules a.pages = .ok v ∧
      Filter.CrownPasses a.rules a.options.crown ∧
      (request.page.count = false → r.table.columns.shown request.fields ≠ []) := by
  obtain ⟨v, hvalid, hrest⟩ := Rule.bind_eq_ok h
  obtain ⟨clause, hclause, -⟩ := Rule.bind_eq_ok hrest
  refine ⟨v, hvalid, v.crownPasses_of_compile hclause, fun hcount hnone => ?_⟩
  have hquery := listQuery_eq hvalid hclause rfl
  rw [hcount, if_neg Bool.false_ne_true, hnone, List.map_nil, if_pos (by rfl), h] at hquery
  cases hquery

/-! ### Requests that name columns -/

/-- The fields of an access are those of its table: columns, whose names are identifiers,
and paths into documents.  The rows are ordered by a column, if nothing else is asked
for. -/
structure FieldsOfTable (a : Access r) : Prop where
  /-- The names of columns are identifiers. -/
  identifiers : ∀ c ∈ r.table.columns.columns, isIdentifier c.name.toList = true
  /-- A known field is a column or a path. -/
  known : ∀ name ∈ a.rules.fields.keys,
    r.table.columns.contains name = true ∨ isDocumentPath name.toList = true
  /-- Rows are ordered by a column. -/
  sort : r.table.columns.contains a.pages.defaultSort = true

variable (hfields : a.FieldsOfTable)
include hfields

/-- A known field that is no path is a column. -/
theorem FieldsOfTable.contains {name : String} (hname : a.rules.fields.contains name = true)
    (hpath : isDocumentPath name.toList = false) : r.table.columns.contains name = true := by
  refine (hfields.known name (NameMap.contains_iff_mem_keys.1 hname)).resolve_right fun h => ?_
  rw [hpath] at h
  cases h

/-- Every field that is named is shown. -/
theorem FieldsOfTable.names_shown (hnames : request.NamesNoPath)
    (haccepted : request.Accepted a.rules a.pages) :
    (r.table.columns.shown request.fields).map Column.name =
      if request.fields.isEmpty then r.table.columns.names else request.fields := by
  rw [Registry.names_shown, List.filter_eq_self.2 fun name hname =>
    hfields.contains (haccepted.fields name hname) (hnames.fields name hname)]

/-- The rows of a page are ordered by a column. -/
theorem FieldsOfTable.contains_sortOf (hnames : request.NamesNoPath)
    (haccepted : request.Accepted a.rules a.pages) (hcount : request.page.count = false) :
    r.table.columns.contains (request.page.sortOf a.pages) = true := by
  unfold Page.sortOf
  cases hs : request.page.sort? with
  | none => exact hfields.sort
  | some sort =>
    exact hfields.contains (Page.contains_of_check haccepted.page hcount sort hs)
      (hnames.sort sort hs)

/-- There is something to show, for there is a column to order the rows by. -/
theorem FieldsOfTable.shown_ne_empty (hnames : request.NamesNoPath)
    (haccepted : request.Accepted a.rules a.pages) :
    String.intercalate ", " ((r.table.columns.shown request.fields).map Column.projected) ≠
      "" := by
  have hlist := hfields.names_shown hnames haccepted
  cases hshown : r.table.columns.shown request.fields with
  | nil =>
    exfalso
    rw [hshown, List.map_nil] at hlist
    split at hlist
    · have hsort := Registry.contains_iff.1 hfields.sort
      rw [← hlist] at hsort
      cases hsort
    · next hne => exact hne (List.isEmpty_iff.2 hlist.symm)
  | cons c rest =>
    refine intercalate_cons_ne_empty (Column.projected_ne_empty fun hname => ?_) _
    have hidentifier := hfields.identifiers c
      (Registry.mem_columns_of_shown (hshown ▸ List.mem_cons_self))
    rw [hname] at hidentifier
    cases hidentifier

omit hfields in
/-- **A request that names columns is accepted only if its statement can be built.**  If
an accepted request names no path as a field or as its sort, its filter is compiled and
its statement built.  Unless it is a count, the statement shows one column for each field,
in their order, or all columns, and the rows are ordered by a column. -/
theorem accepted_request_built (a : Access r) (hfields : a.FieldsOfTable)
    (hcrown : Filter.CrownPasses a.rules a.options.crown) (request : ListRequest)
    (hnames : request.NamesNoPath) (v : ValidFilter a.rules)
    (hvalid : request.validate a.rules a.pages = .ok v) :
    ∃ clause q, v.compile a.options = .ok clause ∧ a.listQuery request = .ok q ∧
      q.params = clause.params ∧
      (request.page.count = true →
        q.sql = "SELECT COUNT(*) FROM " ++ r.table.name ++ " " ++ clause.sql) ∧
      (request.page.count = false → ∃ (columns : List Column) (sort : String),
        (∀ c ∈ columns, c ∈ r.table.columns.columns) ∧
        columns.map Column.name =
          (if request.fields.isEmpty then r.table.columns.names else request.fields) ∧
        sort = request.page.sort?.getD a.pages.defaultSort ∧ sort ∈ r.table.columns.names ∧
        q.sql = "SELECT " ++ String.intercalate ", " (columns.map Column.projected) ++
          " FROM " ++ r.table.name ++ " " ++ clause.sql ++ " " ++
          ("ORDER BY " ++ sort ++ " " ++ request.page.order.keyword ++
            " LIMIT " ++ toString request.page.limit.val ++
            " OFFSET " ++ toString request.page.start.val)) := by
  have haccepted := ListRequest.accepted_of_validate hvalid
  have hclause := v.compile_eq hcrown
  have hquery := listQuery_eq hvalid hclause rfl
  refine ⟨v.compiled a.options, ?_⟩
  cases hcount : request.page.count with
  | true =>
    rw [hcount, if_pos rfl] at hquery
    exact ⟨_, hclause, hquery, rfl, fun _ => rfl, nofun⟩
  | false =>
    have hsort := Registry.contains_iff.1 (hfields.contains_sortOf hnames haccepted hcount)
    have hidentifier : isIdentifier (request.page.sortOf a.pages).toList = true := by
      obtain ⟨c, hc, hname⟩ := List.mem_map.1 hsort
      exact hname ▸ hfields.identifiers c hc
    rw [hcount, if_neg Bool.false_ne_true, if_neg (hfields.shown_ne_empty hnames haccepted),
      if_pos hidentifier] at hquery
    refine ⟨_, hclause, hquery, rfl, nofun, fun _ => ?_⟩
    exact ⟨r.table.columns.shown request.fields, request.page.sortOf a.pages,
      fun c => Registry.mem_columns_of_shown, hfields.names_shown hnames haccepted, rfl, hsort,
      rfl⟩

end Access

/-! ### Networks and their owners -/

/-- Networks, in the document of which their owner is found. -/
def networks : Resource where
  table := (Table.ofColumns "subnet" (.ofColumns false
    [.plain "id" .string, ⟨"name", "spec.name", .string⟩, .plain "extension" .json])).withField
      "extension.vpc_id" .string
  type :=
    ⟨"Subnet", .cons "id" (some "id") (.scalar .string)
      (.cons "name" (some "name") (.scalar .string)
        (.cons "extension" (some "extension") (.scalar .json) .nil))⟩

/-- The networks, for callers who may name every field. -/
def openNetworks : Access networks := {}

/-- The filter by an owner. -/
def ownedFilter : ValidFilter openNetworks.rules where
  filter := .rule ⟨"extension.vpc_id", .jsonEqual, .single (.text "v")⟩
  passed := by decide

/-- A request for the names of the networks of an owner. -/
def networkNames : ListRequest where
  filter := some ownedFilter.filter
  page := { limit := ⟨10, by decide⟩, sort := some "name" }
  fields := ["name", "id"]

theorem fieldsOfTable_openNetworks : openNetworks.FieldsOfTable := by
  have hidentifiers : ∀ c ∈ networks.table.columns.columns,
      isIdentifier c.name.toList = true := by decide
  have hknown : ∀ name ∈ openNetworks.rules.fields.keys,
      networks.table.columns.contains name = true ∨ isDocumentPath name.toList = true := by decide
  exact ⟨hidentifiers, hknown, by decide⟩

theorem networkNames_built :
    openNetworks.FieldsOfTable ∧ networkNames.NamesNoPath ∧
      networkNames.validate openNetworks.rules openNetworks.pages = .ok ownedFilter ∧
      ∃ q, openNetworks.listQuery networkNames = .ok q := by
  have hnames : networkNames.NamesNoPath := by
    have hfields : ∀ name ∈ networkNames.fields, isDocumentPath name.toList = false := by decide
    have hsort : ∀ name ∈ networkNames.page.sort?, isDocumentPath name.toList = false := by decide
    exact ⟨hfields, hsort⟩
  obtain ⟨clause, q, -, hquery, -⟩ :=
    openNetworks.accepted_request_built fieldsOfTable_openNetworks (by decide) networkNames
      hnames ownedFilter rfl
  exact ⟨fieldsOfTable_openNetworks, hnames, rfl, q, hquery⟩

/-- A request for the owners of the networks. -/
def networkOwners : ListRequest where
  filter := some .everything
  page := { limit := ⟨10, by decide⟩ }
  fields := ["id", "extension.vpc_id"]

/-- A request for the networks in the order of their owners. -/
def networksByOwner : ListRequest where
  filter := some .everything
  page := { limit := ⟨10, by decide⟩, sort := some "extension.vpc_id" }

/-- Both requests are accepted.  The owners are left out of what is shown, and the order by
owners is refused after all. -/
theorem owners_lost :
    (∃ v, networkOwners.validate openNetworks.rules openNetworks.pages = .ok v) ∧
    openNetworks.listQuery networkOwners =
      .ok ⟨"SELECT id FROM subnet WHERE 1 = 1 ORDER BY id ASC LIMIT 10 OFFSET 0", .empty⟩ ∧
    (∃ v, networksByOwner.validate openNetworks.rules openNetworks.pages = .ok v) ∧
    openNetworks.listQuery networksByOwner = .error (.sortNotColumn "extension.vpc_id") :=
  ⟨⟨⟨.everything, rfl⟩, rfl⟩, by decide +kernel, ⟨⟨.everything, rfl⟩, rfl⟩, by decide +kernel⟩

end ResourceTable
