import ResourceTable.Proofs.CountPage
import ResourceTable.Proofs.CrownScope

/-!
# The rows that an update or a deletion touches

An update and a deletion touch the rows of their filter, which are those that a list
request for the same filter counts just before: the three statements are printed around one
clause, and the database reads the same condition in all of them.  An update gives these
rows the values of its assignments, a deletion drops them, and either leaves all other rows
as they were.  If it fails, it leaves the database as it was.

## Main definitions

* `Access.NamesColumns`: every name that is written into a statement names one column.
* `Access.ChangesExactly`: a statement changes the rows for which its condition is true.
* `Access.Shows`: the rows that a list request counts.
* `SetClause.Changes`, `SetClause.Rewrites`: what an update makes of a row, and of a table.

## Main results

* `Access.exists_shown` — the rows that a changing statement finds are shown.
* `Access.update_rewrites`, `Access.delete_drops` — what becomes of them.
* `Access.touches_what_is_shown` — **an update and a deletion touch exactly what is shown.**
-/

namespace ResourceTable

open Sql

/-! ### What is assigned -/

/-- What an update makes of a row: every column that is assigned to has the value that is
bound to it, as the database stores it, the column of the last update has the time, and all
other columns have the values that they had. -/
structure SetClause.Changes (set : SetClause) (d : TableDef) (now : Timestamp)
    (r changed : StoredRow) : Prop where
  assigned : ∀ column ∈ set.columns, ∃ v c, set.params.get? column = some (.single v) ∧
    v.toCell = .ok c ∧ changed.cell (d.spelled column) = d.stored column c
  stamped : changed.cell (d.spelled updatedAt) = d.stored updatedAt (.text now.stored)
  others : ∀ column, (∀ name ∈ updatedAt :: set.columns, sameName name column = false) →
    changed.cell column = r.cell column

/-- What an update makes of a table: some rows are changed, and all others are left as they
were. -/
structure SetClause.Rewrites (set : SetClause) (now : Timestamp) (t u : StoredTable)
    (rows : List StoredRow) : Prop where
  definition : u.definition = t.definition
  before : t.rows.Perm (rows ++ t.outside rows)
  after : ∃ changed, List.Forall₂ (set.Changes t.definition now) rows changed ∧
    u.rows.Perm (changed ++ t.outside rows)

section Assigned

variable {record : Record} {policy : UpdatePolicy} {set : SetClause} {flat : Flattened}

/-- The column of the last update is not written from a record. -/
theorem ne_updatedAt_of_written {entry : String × Leaf} (h : entry ∈ policy.written flat) :
    entry.1 ≠ updatedAt := by
  intro he
  have hwrites : policy.writes entry.1 entry.2 = true := (List.mem_filter.1 h).2
  unfold UpdatePolicy.writes at hwrites
  rw [if_pos (by rw [he]; rfl)] at hwrites
  cases hwrites

/-- What is assigned is a column of the table. -/
theorem mem_names_of_checkColumns {table : Table} (h : set.checkColumns table = .ok ()) :
    ∀ column ∈ set.columns, column ∈ table.columns.names := by
  intro column hcolumn
  unfold SetClause.checkColumns at h
  split at h
  · cases h
  · next hknown =>
    have hsome := List.find?_eq_none.1 hknown column hcolumn
    rw [Bool.not_eq_true', Bool.not_eq_false] at hsome
    exact Registry.contains_iff.1 hsome

/-- No column is assigned to twice, if names that differ name different columns. -/
theorem assignsApart_assignedTerms {names : List String}
    (happart : ∀ c ∈ updatedAt :: names, ∀ d ∈ updatedAt :: names, sameName c d = true → c = d)
    (hknown : ∀ entry ∈ policy.written flat, entry.1 ∈ names)
    (hnodup : ((policy.written flat).map Prod.fst).Nodup) :
    StoredTable.AssignsApart (assignedTerms (policy.written flat)) := by
  unfold StoredTable.AssignsApart assignedTerms
  rw [List.pairwise_append, List.pairwise_map]
  refine ⟨?_, List.pairwise_singleton _ _, ?_⟩
  · rw [List.Nodup, List.pairwise_map] at hnodup
    refine hnodup.imp_of_mem fun {a b} ha hb hne => ?_
    rw [← Bool.not_eq_true]
    intro hsame
    exact hne (happart a.1 (List.mem_cons_of_mem _ (hknown a ha)) b.1
      (List.mem_cons_of_mem _ (hknown b hb)) hsame)
  · intro a ha b hb
    obtain ⟨entry, hentry, rfl⟩ := List.mem_map.1 ha
    rw [List.mem_singleton.1 hb, ← Bool.not_eq_true]
    intro hsame
    exact ne_updatedAt_of_written hentry (happart entry.1
      (List.mem_cons_of_mem _ (hknown entry hentry)) updatedAt List.mem_cons_self hsame)

/-- A row that was given the values of the assignments is changed as the update says. -/
theorem SetClause.changes_of_given (hset : record.setClause policy = .ok set)
    (hflat : record.flatten = .ok flat)
    (hcells : ∀ entry ∈ policy.written flat, entry.2.value.toCell = .ok entry.2.value.cell)
    {d : TableDef} {now : Timestamp} {r changed : StoredRow}
    (h : StoredTable.Given d (d.scope now r) (assignedTerms (policy.written flat)) r changed) :
    set.Changes d now r changed := by
  obtain ⟨flat', hflat', hnodup, hcolumns, -, hparams⟩ := setClause_eq hset
  obtain rfl := Except.ok.inj (hflat.symm.trans hflat')
  constructor
  · intro column hcolumn
    rw [hcolumns] at hcolumn
    obtain ⟨entry, hentry, rfl⟩ := List.mem_map.1 hcolumn
    have hterm : (entry.1, Term.literal entry.2.value.cell) ∈
        assignedTerms (policy.written flat) :=
      List.mem_append_left _ (List.mem_map.2 ⟨entry, hentry, rfl⟩)
    obtain ⟨v, hv, hcell⟩ := h.assigned _ hterm
    obtain rfl := Except.ok.inj hv
    refine ⟨entry.2.value, entry.2.value.cell, ?_, hcells entry hentry, hcell⟩
    -- What is bound to a name is unique, since no name is written twice.
    have hkeys : (((policy.written flat).map fun entry =>
        (entry.1, Param.single entry.2.value)).map Prod.fst).Nodup := by
      rw [List.map_map]
      exact hnodup
    rw [hparams, NameMap.get?_ofList hkeys]
    exact NameMap.lookup_of_mem hkeys (List.mem_map.2 ⟨entry, hentry, rfl⟩)
  · have hterm : (updatedAt, Term.clock .now) ∈ assignedTerms (policy.written flat) :=
      List.mem_append_right _ (List.mem_singleton.2 rfl)
    obtain ⟨v, hv, hcell⟩ := h.assigned _ hterm
    obtain rfl := Except.ok.inj hv
    exact hcell
  · intro column hcolumn
    refine h.others column fun a ha => hcolumn a.1 ?_
    rcases List.mem_append.1 ha with ha | ha
    · obtain ⟨entry, hentry, rfl⟩ := List.mem_map.1 ha
      rw [hcolumns]
      exact List.mem_cons_of_mem _ (List.mem_map.2 ⟨entry, hentry, rfl⟩)
    · rw [List.mem_singleton.1 ha]
      exact List.mem_cons_self

end Assigned

/-! ### What is found -/

/-- Whatever a statement that changes rows finds in its table is what its condition is true
of. -/
def Sql.Database.ChangesExactly (db : Database) (now : Timestamp) : Statement → Prop
  | .update name _ (some c) | .delete name (some c) =>
    ∀ t rows, db.table name = .ok t → (t.changePlan (some c)).found t now none = .ok rows →
      ∀ r, r ∈ rows ↔ r ∈ t.rows ∧ c.holds (t.definition.scope now r) = .ok true
  | _ => True

/-- What was found is what the condition is true of. -/
theorem Sql.Database.changesExactly_of_found {db : Database} {now : Timestamp} {name : String}
    {t : StoredTable} {c : Test} (ht : db.table name = .ok t)
    (hfound : (t.changePlan (some c)).found t now none = .ok (t.rows.filter fun r =>
      decide (c.holds (t.definition.scope now r) = .ok true))) :
    db.ChangesExactly now (.delete name (some c)) ∧
      ∀ assignments, db.ChangesExactly now (.update name assignments (some c)) := by
  have hexact : ∀ u rows, db.table name = .ok u →
      (u.changePlan (some c)).found u now none = .ok rows →
        ∀ r, r ∈ rows ↔ r ∈ u.rows ∧ c.holds (u.definition.scope now r) = .ok true := by
    intro u rows hu hrows r
    obtain rfl := Except.ok.inj (ht.symm.trans hu)
    rw [← Except.ok.inj (hfound.symm.trans hrows), List.mem_filter, decide_eq_true_eq]
  exact ⟨hexact, fun _ => hexact⟩

/-- Of all tables of a database only that of a name is another one. -/
structure Sql.Database.Replaces (db after : Database) (name : String) (u : StoredTable) : Prop where
  table : after.table name = .ok u
  others : ∀ other, other ≠ name → after.table other = db.table other

theorem Sql.Database.replaces_withTable (db : Database) {name : String} {u : StoredTable}
    (h : u.definition.name = name) : db.Replaces (db.withTable u) name u := by
  exact ⟨by rw [← h, table_withTable], fun other hother => table_withTable_of_ne (h ▸ hother)⟩

namespace Access

variable {r : Resource} {a : Access r} {filter : Filter} {caller : Caller} {s : Session}

/-- The names that are written into statements are identifiers, and each of them names one
column, since names that differ do so not only in the case of letters. -/
structure NamesColumns (a : Access r) : Prop where
  table : isBareName r.table.name.toList = true
  columns : ∀ c ∈ r.table.columns.columns, isBareName c.name.toList = true
  apart : ∀ c ∈ updatedAt :: r.table.columns.names, ∀ d ∈ updatedAt :: r.table.columns.names,
    sameName c d = true → c = d
  fields : a.rules.HasFieldPaths

/-- The statement of a query changes the rows for which its condition is true, and no
others. -/
def ChangesExactly (query : Checked Query) (s : Session) : Prop :=
  ∀ q sql cells statement, query = .ok q → q.bound = .ok (sql, cells) →
    Statement.read sql cells = .ok statement →
      s.database.ChangesExactly (s.clock.addMicros 1) statement

/-- The rows that a list request for the count of a filter finds, and whose number it
reports. -/
structure Shows (a : Access r) (caller : Caller) (filter : Filter) (s : Session)
    (t : StoredTable) (rows : List StoredRow) : Prop where
  count : ∃ k, (a.list caller (countRequest filter) s).1 = .ok { count := some k } ∧
    k.val = rows.length
  found : ∃ q sql cells select, a.listQuery (countRequest filter) = .ok q ∧
    q.bound = .ok (sql, cells) ∧ Statement.read sql cells = .ok (.select select) ∧
    (select.plan t.definition).found t (s.clock.addMicros 1) none = .ok rows

/-- **The rows that a changing statement finds are shown**, in some order: the request for
their number has the same condition. -/
theorem exists_shown (hnames : a.NamesColumns) (hcheck : s.signals.check caller = .ok ())
    {v : ValidFilter a.rules} (hpasses : Filter.CrownPasses a.rules a.options.crown)
    (hclause : a.clause filter = .ok (v.compiled a.options))
    (hfree : Keyword.isReserved r.table.name = false) {c : Test}
    (hc : c.IsReadOf (v.clauseTokens a.options)) {t : StoredTable}
    (ht : s.database.table r.table.name = .ok t) (hw : t.WellNumbered)
    (hsmall : t.rows.length < 2 ^ 63) (hlist : a.SelectsExactly (countRequest filter) s)
    (hcondition : Database.checkCondition
      (t.definition.scope (s.clock.addMicros 1) (t.definition.blankRow 0)) (some c) = .ok ())
    {rows : List StoredRow}
    (hrows : (t.changePlan (some c)).found t (s.clock.addMicros 1) none = .ok rows)
    (hexact : ∀ row, row ∈ rows ↔
      row ∈ t.rows ∧ c.holds (t.definition.scope (s.clock.addMicros 1) row) = .ok true) :
    ∃ shown, a.Shows caller filter s t shown ∧ shown.Perm rows := by
  obtain ⟨sql, cells, u, hbound, hread, hcu⟩ :=
    exists_count_read hnames.fields hnames.table hpasses hfree hc rfl
  have hq := listQuery_count hclause
  obtain ⟨shown, hfound, hshown⟩ :=
    hlist _ sql cells _ hq hbound hread r.table.name t u rfl ht rfl
  -- A condition does not depend on its places.
  have hsame (row : StoredRow) : row ∈ shown ↔
      row ∈ t.rows ∧ c.holds (t.definition.scope (s.clock.addMicros 1) row) = .ok true := by
    rw [hshown row, Test.holds_iff_of_unplaced_eq hcu]
  have hlength : shown.length ≤ t.rows.length := by
    rw [(StoredTable.perm_outside_of_found hw hfound).length_eq, List.length_append]
    omega
  refine ⟨shown, ⟨?_, _, sql, cells, _, hq, hbound, hread, hfound⟩,
    StoredTable.perm_of_found hfound hrows hsame hexact⟩
  exact list_count hcheck rfl hq hbound hread ht hcu hcondition hfound (by omega)

/-! ### What becomes of it -/

/-- The execution of a query. -/
abbrev executing (caller : Caller) (query : Checked Query) : Action Session Nat := do
  Session.connection.execute caller (← demand query)

/-- A query that is executed fails and leaves the database as it was, or every step of it
succeeds. -/
theorem executing_cases (caller : Caller) (query : Checked Query) (s : Session) :
    (∃ e, (executing caller query s).1 = .error e ∧
      (executing caller query s).2.database = s.database) ∨
    ∃ q sql cells statement outcome, s.signals.check caller = .ok () ∧ query = .ok q ∧
      q.bound = .ok (sql, cells) ∧ Statement.read sql cells = .ok statement ∧
      s.database.prepare (s.clock.addMicros 1) statement = .ok () ∧
      s.database.run (s.clock.addMicros 1) statement =
        .ok (outcome, (executing caller query s).2.database) ∧
      (executing caller query s).1 = .ok outcome.affected := by
  unfold executing
  rw [Action.bind_run]
  cases query with
  | error e => exact .inl ⟨_, rfl, rfl⟩
  | ok q =>
    have hcases := Session.perform_cases "failed to execute statement" caller q s
    show (∃ e, (Session.connection.execute caller q s).1 = .error e ∧
      (Session.connection.execute caller q s).2.database = s.database) ∨
      ∃ q' sql cells statement outcome, _ ∧ _ ∧ _ ∧ _ ∧ _ ∧
        s.database.run (s.clock.addMicros 1) statement =
          .ok (outcome, (Session.connection.execute caller q s).2.database) ∧
        (Session.connection.execute caller q s).1 = .ok outcome.affected
    dsimp only [Session.connection]
    rw [Action.bind_run]
    -- To execute is to perform, and to give the number of rows.
    rcases hp : Session.perform "failed to execute statement" caller q s with ⟨e | outcome, after⟩
    · rw [hp] at hcases
      rcases hcases with ⟨_, -, h⟩ | ⟨_, _, _, _, -, -, -, -, -, h⟩
      · exact .inl ⟨e, rfl, h⟩
      · cases h
    · rw [hp] at hcases
      rcases hcases with ⟨_, h, -⟩ |
        ⟨sql, cells, statement, _, hcheck, hbound, hread, hprepare, hrun, h⟩
      · cases h
      · obtain rfl := Except.ok.inj h
        exact .inr ⟨q, sql, cells, statement, outcome, hcheck, rfl, hbound, hread, hprepare, hrun,
          rfl⟩

theorem executing_ok (hcheck : s.signals.check caller = .ok ()) {query : Checked Query} {q : Query}
    (hq : query = .ok q) {sql : String} {cells : List Cell} {statement : Statement}
    {outcome : Outcome} {db : Database} (hbound : q.bound = .ok (sql, cells))
    (hread : Statement.read sql cells = .ok statement)
    (hprepare : s.database.prepare (s.clock.addMicros 1) statement = .ok ())
    (hrun : s.database.run (s.clock.addMicros 1) statement = .ok (outcome, db)) :
    executing caller query s =
      (.ok outcome.affected, { s.afterIssue sql with database := db }) := by
  have hperform :=
    Session.perform_ok "failed to execute statement" caller hcheck hbound hread hprepare hrun
  unfold executing
  rw [Action.bind_run, hq]
  show Session.connection.execute caller q s = _
  dsimp only [Session.connection]
  rw [Action.bind_run, hperform]
  rfl

section Issued

variable {q : Query} {sql : String} {cells : List Cell} {name : String} {condition : Option Test}
  {t u : StoredTable} {n : Nat}

/-- An update of which every step succeeds. -/
theorem update_ok {patch : Record} {policy : UpdatePolicy} {assignments : List (String × Term)}
    (hcheck : s.signals.check caller = .ok ())
    (hquery : a.updateQuery filter patch policy = .ok q) (hbound : q.bound = .ok (sql, cells))
    (hread : Statement.read sql cells = .ok (.update name assignments condition))
    (hprepare : s.database.prepare (s.clock.addMicros 1)
      (.update name assignments condition) = .ok ())
    (ht : s.database.table name = .ok t)
    (hupdate : t.update (s.clock.addMicros 1) assignments condition = .ok (u, n)) :
    a.update caller filter patch policy s =
      (.ok n, { s.afterIssue sql with database := s.database.withTable u }) := by
  have hrun : s.database.run (s.clock.addMicros 1) (.update name assignments condition) =
      .ok ({ affected := n }, s.database.withTable u) := by
    rw [Database.run, ht, Test.ok_bind, hupdate]
    rfl
  have hbody : a.updateIn caller filter patch policy s = _ :=
    executing_ok hcheck hquery hbound hread hprepare hrun
  rw [update, Session.transaction_ok hcheck hbody]

/-- A deletion of which every step succeeds. -/
theorem deleteIn_ok (hcheck : s.signals.check caller = .ok ())
    (hquery : a.deleteQuery filter = .ok q) (hbound : q.bound = .ok (sql, cells))
    (hread : Statement.read sql cells = .ok (.delete name condition))
    (hprepare : s.database.prepare (s.clock.addMicros 1) (.delete name condition) = .ok ())
    (ht : s.database.table name = .ok t)
    (hdelete : t.delete (s.clock.addMicros 1) condition = .ok (u, n)) :
    a.deleteIn caller filter s =
      (.ok n, { s.afterIssue sql with database := s.database.withTable u }) := by
  have hrun : s.database.run (s.clock.addMicros 1) (.delete name condition) =
      .ok ({ affected := n }, s.database.withTable u) := by
    rw [Database.run, ht, Test.ok_bind, hdelete]
    rfl
  exact executing_ok hcheck hquery hbound hread hprepare hrun

end Issued

section Touched

variable {t : StoredTable} {n : Nat}

/-- **An update rewrites the rows that are shown**, and gives their number. -/
theorem update_rewrites (hnames : a.NamesColumns) (hname : t.definition.name = r.table.name)
    (ht : s.database.table r.table.name = .ok t) (hw : t.WellNumbered)
    (hsmall : t.rows.length < 2 ^ 63) (hlist : a.SelectsExactly (countRequest filter) s)
    {patch : Record} {policy : UpdatePolicy}
    (hexact : ChangesExactly (a.updateQuery filter patch policy) s)
    (h : (a.update caller filter patch policy s).1 = .ok n) :
    ∃ set rows u, patch.setClause policy = .ok set ∧ a.Shows caller filter s t rows ∧
      n = rows.length ∧
      s.database.Replaces (a.update caller filter patch policy s).2.database r.table.name u ∧
      set.Rewrites (s.clock.addMicros 1) t u rows := by
  have hbody : a.update caller filter patch policy s =
      executing caller (a.updateQuery filter patch policy) s := Session.transaction_of_ok h
  rw [hbody] at h ⊢
  rcases executing_cases caller (a.updateQuery filter patch policy) s with
    ⟨e, he, -⟩ | ⟨q, sql, cells, statement, outcome, hcheck, hq, hbound, hread, hprepare, hrun, hok⟩
  · rw [he] at h
    cases h
  · obtain ⟨clause, set, hclause, hset, hquery⟩ := updateQuery_eq_ok hq
    obtain ⟨v, hpasses, rfl⟩ := clause_eq hclause
    obtain ⟨hfree, flat, c, hflat, hcells, rfl, hc⟩ :=
      exists_update_read hnames.fields hnames.table hnames.columns hpasses hset hquery hbound hread
    have hcondition := Database.checkCondition_of_update ht hprepare
    -- The statement changes the table under its name, and no column twice.
    obtain ⟨t', ht', hrun⟩ := Test.bind_eq_ok hrun
    obtain rfl := Except.ok.inj (ht.symm.trans ht')
    obtain ⟨⟨u, affected⟩, hu, hrun⟩ := Test.bind_eq_ok hrun
    obtain ⟨rfl, hdatabase⟩ := Prod.mk.inj (Except.ok.inj hrun)
    obtain rfl := Except.ok.inj (hok.symm.trans h)
    obtain ⟨flat', hflat', hnodup, hcolumns, -, -⟩ := setClause_eq hset
    obtain rfl := Except.ok.inj (hflat.symm.trans hflat')
    have hknown : ∀ entry ∈ policy.written flat, entry.1 ∈ r.table.columns.names := by
      intro entry hentry
      refine mem_names_of_checkColumns (SetClause.query_eq_ok hquery).1 entry.1 ?_
      rw [hcolumns]
      exact List.mem_map.2 ⟨entry, hentry, rfl⟩
    obtain ⟨rows, hfound, hn, hrewrites⟩ := StoredTable.rewrites_of_update hw
      (assignsApart_assignedTerms hnames.apart hknown hnodup) hu
    -- It finds the rows that are shown, though it may come to them in another order.
    obtain ⟨shown, hshows, hperm⟩ := exists_shown hnames hcheck hpasses hclause hfree hc ht hw
      hsmall hlist hcondition hfound (hexact q sql cells _ hq hbound hread t rows ht hfound)
    obtain ⟨hdefinition, changed, hgiven, hafter⟩ := hrewrites.of_perm hperm
    obtain ⟨_, _, _, _, -, -, -, hshown⟩ := hshows.found
    refine ⟨set, shown, u, hset, hshows, ?_, ?_, hdefinition,
      StoredTable.perm_outside_of_found hw hshown, changed, ?_, hafter⟩
    · rw [hperm.length_eq]
      exact hn
    · rw [← hdatabase]
      exact Database.replaces_withTable _ (by rw [hdefinition, hname])
    · exact hgiven.imp fun row c hrow => SetClause.changes_of_given hset hflat hcells hrow

/-- **A deletion drops the rows that are shown**, and gives their number. -/
theorem delete_drops (hnames : a.NamesColumns) (hname : t.definition.name = r.table.name)
    (ht : s.database.table r.table.name = .ok t) (hw : t.WellNumbered)
    (hsmall : t.rows.length < 2 ^ 63) (hlist : a.SelectsExactly (countRequest filter) s)
    (hexact : ChangesExactly (a.deleteQuery filter) s)
    (h : (a.deleteIn caller filter s).1 = .ok n) :
    ∃ rows, a.Shows caller filter s t rows ∧ n = rows.length ∧
      t.rows.Perm (rows ++ t.outside rows) ∧
      s.database.Replaces (a.deleteIn caller filter s).2.database r.table.name
        { t with rows := t.outside rows } := by
  rcases executing_cases caller (a.deleteQuery filter) s with
    ⟨e, he, -⟩ | ⟨q, sql, cells, statement, outcome, hcheck, hq, hbound, hread, hprepare, hrun, hok⟩
  · cases he.symm.trans h
  · obtain ⟨clause, hclause, hquery⟩ := deleteQuery_eq_ok hq
    obtain ⟨v, hpasses, rfl⟩ := clause_eq hclause
    obtain ⟨hfree, c, rfl, hc⟩ :=
      exists_delete_read hnames.fields hnames.table hpasses hquery hbound hread
    have hcondition := Database.checkCondition_of_delete ht hprepare
    obtain ⟨t', ht', hrun⟩ := Test.bind_eq_ok hrun
    obtain rfl := Except.ok.inj (ht.symm.trans ht')
    obtain ⟨⟨u, affected⟩, hu, hrun⟩ := Test.bind_eq_ok hrun
    obtain ⟨rfl, hdatabase⟩ := Prod.mk.inj (Except.ok.inj hrun)
    obtain rfl := Except.ok.inj (hok.symm.trans h)
    obtain ⟨rows, hfound, hn, rfl⟩ := StoredTable.outside_of_delete hu
    obtain ⟨shown, hshows, hperm⟩ := exists_shown hnames hcheck hpasses hclause hfree hc ht hw
      hsmall hlist hcondition hfound (hexact q sql cells _ hq hbound hread t rows ht hfound)
    obtain ⟨_, _, _, _, -, -, -, hshown⟩ := hshows.found
    refine ⟨shown, hshows, ?_, StoredTable.perm_outside_of_found hw hshown, ?_⟩
    · rw [hperm.length_eq]
      exact hn
    · rw [StoredTable.outside_of_perm hperm]
      have hdatabase' : s.database.withTable { t with rows := t.outside rows } =
          (a.deleteIn caller filter s).2.database := hdatabase
      rw [← hdatabase']
      exact Database.replaces_withTable _ hname

/-- **An update and a deletion touch exactly what is shown.**  Where every name that is
written into statements names one column, and the database finds for each statement the
rows for which its condition is true, an update that succeeds rewrites the rows that a list
request counts, a deletion drops them, and both give their number.  An update or a deletion
that fails leaves the database as it was. -/
theorem touches_what_is_shown (a : Access r) (caller : Caller) (filter : Filter) (s : Session) :
    (a.NamesColumns → s.database.WellFormed → ∀ t : StoredTable,
      s.database.table r.table.name = .ok t → t.KeyNumbers → t.rows.length < 2 ^ 63 →
        a.SelectsExactly (countRequest filter) s →
          (∀ patch policy n, ChangesExactly (a.updateQuery filter patch policy) s →
            (a.update caller filter patch policy s).1 = .ok n →
              ∃ set rows u, patch.setClause policy = .ok set ∧ a.Shows caller filter s t rows ∧
                n = rows.length ∧
                s.database.Replaces (a.update caller filter patch policy s).2.database
                  r.table.name u ∧
                set.Rewrites (s.clock.addMicros 1) t u rows) ∧
          ∀ n, ChangesExactly (a.deleteQuery filter) s →
            (a.deleteIn caller filter s).1 = .ok n →
              ∃ rows, a.Shows caller filter s t rows ∧ n = rows.length ∧
                t.rows.Perm (rows ++ t.outside rows) ∧
                s.database.Replaces (a.deleteIn caller filter s).2.database r.table.name
                  { t with rows := t.outside rows }) ∧
    (∀ patch policy e, (a.update caller filter patch policy s).1 = .error e →
      (a.update caller filter patch policy s).2.database = s.database) ∧
    ∀ e, (a.deleteIn caller filter s).1 = .error e →
      (a.deleteIn caller filter s).2.database = s.database := by
  refine ⟨fun hnames hdb t ht hkey hsmall hlist => ?_, ?_, ?_⟩
  · have hname : t.definition.name = r.table.name := hdb.name _ t ht
    have hw : t.WellNumbered := ⟨(hdb.ordered _ t ht).nodup, hkey⟩
    refine ⟨?_, ?_⟩
    · intro patch policy n hexact h
      exact update_rewrites hnames hname ht hw hsmall hlist hexact h
    · intro n hexact h
      exact delete_drops hnames hname ht hw hsmall hlist hexact h
  · intro patch policy e h
    exact Session.transaction_error h
  · intro e h
    rcases executing_cases caller (a.deleteQuery filter) s with
      ⟨_, -, hkept⟩ | ⟨_, _, _, _, _, -, -, -, -, -, -, hok⟩
    · exact hkept
    · cases hok.symm.trans h

end Touched

end Access

/-! ### Hosts that move -/

/-- Hosts, their regions and the times of their last updates. -/
def datedHosts : Resource where
  table := .ofColumns "host" (.ofColumns false [.plain "id" .string, .plain "region" .string,
    .plain "updated_at" .time])
  type :=
    ⟨"Host", .cons "id" (some "id") (.scalar .string)
      (.cons "region" (some "region") (.scalar .string) .nil)⟩

/-- All hosts. -/
def movingHosts : Access datedHosts := {}

/-- The row of a host with the time of its last update. -/
def datedRow (number : Int) (id region time : String) : StoredRow :=
  ⟨number, .ofList [("id", .text id), ("region", .text region), ("updated_at", .text time)]⟩

/-- A host in the north and one in the south. -/
def storedDates : StoredTable where
  definition := ⟨"host", [⟨"id", .text, false⟩, ⟨"region", .text, true⟩,
    ⟨"updated_at", .text, true⟩], .column "id"⟩
  rows := [datedRow 1 "a" "north" "2024-01-01T00:00:00.000000Z",
    datedRow 2 "b" "south" "2024-01-02T00:00:00.000000Z"]

/-- A session whose database has them. -/
def datedSession : Session where
  database := Database.empty.withTable storedDates

/-- Hosts are to move to a region. -/
def movedTo (region : String) : Record where
  type := ⟨"Host", .cons "region" (some "region") (.scalar .string) .nil⟩
  content := (region, ())

/-- The clause of the filter for hosts in the north. -/
def northernClause : Clause where
  sql := "WHERE region = :region"
  params := .ofList [("region", .single (.text "north"))]
  matchesAll := false

theorem clause_northern : movingHosts.clause northern = .ok northernClause := by
  let v : ValidFilter movingHosts.rules := ⟨northern, by decide⟩
  have hvalid : northern.validate movingHosts.rules = .ok v := rfl
  rw [Access.clause_of_validate hvalid (by decide), v.compiled_unranked rfl]
  rfl

theorem namesColumns_movingHosts : movingHosts.NamesColumns where
  table := by decide
  columns := by decide
  apart := by decide
  fields := by decide

/-- The statement that moves them. -/
def westwardQuery : Query where
  sql := "UPDATE host SET region = :region, updated_at = now() WHERE region = :region_2"
  params := .ofList [("region", .single (.text "west")), ("region_2", .single (.text "north"))]

/-- The text in which it is issued. -/
def westwardText : String := "UPDATE host SET region = ?, updated_at = now() WHERE region = ?"

/-- A condition that a region is that of a text, somewhere in a statement. -/
def regionIs (place : Nat) (region : String) : Test :=
  .compare .equal (.column "region" place) (.literal (.text region))

/-- What the database reads of it. -/
def westwardStatement : Statement :=
  .update "host" [("region", .literal (.text "west")), ("updated_at", .clock .now)]
    (some (regionIs 53 "north"))

theorem westward_read :
    movingHosts.updateQuery northern (movedTo "west") {} = .ok westwardQuery ∧
      westwardQuery.bound = .ok (westwardText, [.text "west", .text "north"]) ∧
      Statement.read westwardText [.text "west", .text "north"] = .ok westwardStatement := by
  refine ⟨?_, rfl, by decide +kernel⟩
  rw [Access.updateQuery, clause_northern]
  rfl

/-- The statement that drops the hosts in the north. -/
def northernDeletion : Query where
  sql := "DELETE FROM host WHERE region = :region"
  params := .ofList [("region", .single (.text "north"))]

theorem northernDeletion_read :
    movingHosts.deleteQuery northern = .ok northernDeletion ∧
      northernDeletion.bound = .ok ("DELETE FROM host WHERE region = ?", [.text "north"]) ∧
      Statement.read "DELETE FROM host WHERE region = ?" [.text "north"] =
        .ok (.delete "host" (some (regionIs 23 "north"))) := by
  refine ⟨?_, rfl, rfl⟩
  rw [Access.deleteQuery, clause_northern]
  rfl

/-- The conditions of both statements find the same host. -/
theorem found_northern : ∀ place ∈ [23, 53],
    (storedDates.changePlan (some (regionIs place "north"))).found storedDates
      (Timestamp.epoch.addMicros 1) none = .ok (storedDates.rows.filter fun r =>
        decide ((regionIs place "north").holds
          (storedDates.definition.scope (Timestamp.epoch.addMicros 1) r) = .ok true)) := by
  decide +kernel

theorem changesExactly_westward :
    Access.ChangesExactly (movingHosts.updateQuery northern (movedTo "west") {}) datedSession := by
  obtain ⟨hquery, htext, hstatement⟩ := westward_read
  intro q sql cells statement hq hbound hread
  obtain rfl := Query.statement_unique hquery htext hstatement hq hbound hread
  exact (Database.changesExactly_of_found rfl (found_northern 53 (by decide))).2 _

theorem changesExactly_northernDeletion :
    Access.ChangesExactly (movingHosts.deleteQuery northern) datedSession := by
  obtain ⟨hquery, htext, hstatement⟩ := northernDeletion_read
  intro q sql cells statement hq hbound hread
  obtain rfl := Query.statement_unique hquery htext hstatement hq hbound hread
  exact (Database.changesExactly_of_found rfl (found_northern 23 (by decide))).1

/-- The statement that counts the hosts in the north. -/
def northernCount : Query where
  sql := "SELECT COUNT(*) FROM host WHERE region = :region"
  params := .ofList [("region", .single (.text "north"))]

theorem selectsExactly_northern :
    movingHosts.SelectsExactly (countRequest northern) datedSession := by
  have hquery : movingHosts.listQuery (countRequest northern) = .ok northernCount := by
    rw [Access.listQuery_count clause_northern]
    rfl
  have hstatement : Statement.read "SELECT COUNT(*) FROM host WHERE region = ?" [.text "north"] =
      .ok (.select (countStatement "host" (regionIs 32 "north"))) := rfl
  have htable : datedSession.database.table "host" = .ok storedDates := rfl
  exact Access.selectsExactly_of_read hquery rfl hstatement
    (Database.selectsExactly_of_found rfl htable rfl rfl)

/-- The hosts after the first one moved. -/
def movedDates : StoredTable where
  definition := storedDates.definition
  rows := [datedRow 1 "a" "west" "1970-01-01T00:00:00.000001Z",
    datedRow 2 "b" "south" "2024-01-02T00:00:00.000000Z"]

theorem update_westward :
    (movingHosts.update hostCaller northern (movedTo "west") {} datedSession).1 = .ok 1 := by
  obtain ⟨hquery, hbound, hread⟩ := westward_read
  have hupdate : storedDates.update (Timestamp.epoch.addMicros 1)
      [("region", .literal (.text "west")), ("updated_at", .clock .now)]
        (some (regionIs 53 "north")) = .ok (movedDates, 1) := rfl
  rw [Access.update_ok (s := datedSession) rfl hquery hbound hread rfl rfl hupdate]

theorem delete_northern : (movingHosts.deleteIn hostCaller northern datedSession).1 = .ok 1 := by
  obtain ⟨hquery, hbound, hread⟩ := northernDeletion_read
  have hdelete : storedDates.delete (Timestamp.epoch.addMicros 1)
      (some (regionIs 23 "north")) = .ok ({ storedDates with
        rows := [datedRow 2 "b" "south" "2024-01-02T00:00:00.000000Z"] }, 1) := rfl
  rw [Access.deleteIn_ok (s := datedSession) rfl hquery hbound hread rfl rfl hdelete]

/-- The host in the north is the one that is shown, that moves and that is dropped. -/
theorem northern_host_touched :
    movingHosts.NamesColumns ∧ datedSession.database.WellFormed ∧ storedDates.KeyNumbers ∧
      movingHosts.SelectsExactly (countRequest northern) datedSession ∧
      (movingHosts.update hostCaller northern (movedTo "west") {} datedSession).1 = .ok 1 ∧
      (∃ set rows u, (movedTo "west").setClause {} = .ok set ∧
        movingHosts.Shows hostCaller northern datedSession storedDates rows ∧ 1 = rows.length ∧
        datedSession.database.Replaces
          (movingHosts.update hostCaller northern (movedTo "west") {} datedSession).2.database
          "host" u ∧
        set.Rewrites (Timestamp.epoch.addMicros 1) storedDates u rows) ∧
      ∃ rows, movingHosts.Shows hostCaller northern datedSession storedDates rows ∧
        1 = rows.length ∧ storedDates.rows.Perm (rows ++ storedDates.outside rows) ∧
        datedSession.database.Replaces
          (movingHosts.deleteIn hostCaller northern datedSession).2.database "host"
          { storedDates with rows := storedDates.outside rows } := by
  have hdb : datedSession.database.WellFormed := Database.wellFormed_withTable (by decide)
  have hkey : storedDates.KeyNumbers := by
    intro column hcolumn
    cases hcolumn
  obtain ⟨htouches, -, -⟩ :=
    movingHosts.touches_what_is_shown hostCaller northern datedSession
  obtain ⟨hupdates, hdeletes⟩ := htouches namesColumns_movingHosts hdb storedDates rfl hkey
    (by decide) selectsExactly_northern
  exact ⟨namesColumns_movingHosts, hdb, hkey, selectsExactly_northern, update_westward,
    hupdates (movedTo "west") {} 1 changesExactly_westward update_westward,
    hdeletes 1 changesExactly_northernDeletion delete_northern⟩

/-! ### Names that are no columns -/

/-- Hosts that can be filtered by a field that is no identifier and has a placeholder in
it. -/
def openedHosts : Access datedHosts where
  rules := { fields := .ofList [("region = :region OR region", .string)] }

/-- A rule on that field. -/
def openedFilter : Filter := .rule ⟨"region = :region OR region", .equal, .single (.text "x")⟩

/-- Its clause has a placeholder to which it binds nothing. -/
def openedClause : Clause where
  sql := "WHERE region = :region OR region = :region____region_OR_region"
  params := .ofList [("region____region_OR_region", .single (.text "x"))]
  matchesAll := false

theorem clause_openedFilter : openedHosts.clause openedFilter = .ok openedClause := by
  let v : ValidFilter openedHosts.rules := ⟨openedFilter, by decide⟩
  have hvalid : openedFilter.validate openedHosts.rules = .ok v := rfl
  rw [Access.clause_of_validate hvalid (by decide), v.compiled_unranked rfl]
  rfl

/-- The update binds its own value to that placeholder. -/
def openedQuery : Query where
  sql := "UPDATE host SET region = :region, updated_at = now() " ++
    "WHERE region = :region OR region = :region____region_OR_region"
  params := .ofList [("region", .single (.text "south")),
    ("region____region_OR_region", .single (.text "x"))]

/-- What the database reads of it. -/
def openedStatement : Statement :=
  .update "host" [("region", .literal (.text "south")), ("updated_at", .clock .now)]
    (some (.either (regionIs 53 "south") (regionIs 67 "x")))

/-- So the host in the south is updated, and the request for the number of hosts fails. -/
theorem openedHosts_unshown :
    (openedHosts.update hostCaller openedFilter (movedTo "south") {} datedSession).1 = .ok 1 ∧
      ∀ listing, (openedHosts.list hostCaller (countRequest openedFilter) datedSession).1 ≠
        .ok listing := by
  constructor
  · have hquery : openedHosts.updateQuery openedFilter (movedTo "south") {} = .ok openedQuery := by
      rw [Access.updateQuery, clause_openedFilter]
      rfl
    have hbound : openedQuery.bound =
        .ok ("UPDATE host SET region = ?, updated_at = now() WHERE region = ? OR region = ?",
          [.text "south", .text "south", .text "x"]) := by decide +kernel
    have hread : Statement.read
        "UPDATE host SET region = ?, updated_at = now() WHERE region = ? OR region = ?"
          [.text "south", .text "south", .text "x"] = .ok openedStatement := by decide +kernel
    have hupdate : storedDates.update (Timestamp.epoch.addMicros 1)
        [("region", .literal (.text "south")), ("updated_at", .clock .now)]
          (some (.either (regionIs 53 "south") (regionIs 67 "x"))) =
            .ok ({ storedDates with
              rows := [datedRow 1 "a" "north" "2024-01-01T00:00:00.000000Z",
                datedRow 2 "b" "south" "1970-01-01T00:00:00.000001Z"] }, 1) := rfl
    rw [Access.update_ok (s := datedSession) rfl hquery hbound hread rfl rfl hupdate]
  · intro listing h
    obtain ⟨q, sql, cells, -, hq, hbound, -⟩ := Access.exists_prepared_of_list h
    obtain rfl := Except.ok.inj ((Access.listQuery_count clause_openedFilter).symm.trans hq)
    have hunbound : (Query.mk ("SELECT COUNT(*) FROM " ++ datedHosts.table.name ++ " " ++
        openedClause.sql) openedClause.params).bound =
          .error (.storage "no value bound for placeholder `:region`") := rfl
    cases hunbound.symm.trans hbound

/-- Hosts with two names for the column of the region, which the case of letters tells
apart. -/
def renamedHosts : Resource where
  table := .ofColumns "host" (.ofColumns false [.plain "id" .string, .plain "region" .string,
    .plain "REGION" .string, .plain "updated_at" .time])
  type := ⟨"Host", .cons "id" (some "id") (.scalar .string) .nil⟩

/-- All of them. -/
def renamedAccess : Access renamedHosts := {}

/-- A region under either name. -/
def twoRegions : Record where
  type := ⟨"Host", .cons "first" (some "REGION") (.scalar .string)
    (.cons "second" (some "region") (.scalar .string) .nil)⟩
  content := ("east", "west", ())

/-- What is assigned. -/
def twoAssignments : SetClause where
  sql := "SET REGION = :REGION, region = :region, updated_at = now()"
  params := .ofList [("REGION", .single (.text "east")), ("region", .single (.text "west"))]
  columns := ["REGION", "region"]

/-- The statement that assigns both. -/
def twoQuery : Query where
  sql := "UPDATE host SET REGION = :REGION, region = :region, updated_at = now() " ++
    "WHERE region = :region_2"
  params := .ofList [("REGION", .single (.text "east")), ("region", .single (.text "west")),
    ("region_2", .single (.text "north"))]

/-- What the database reads of it. -/
def twoStatement : Statement :=
  .update "host" [("REGION", .literal (.text "east")), ("region", .literal (.text "west")),
    ("updated_at", .clock .now)] (some (regionIs 65 "north"))

/-- The database keeps the last of the values for its column, so that the first one is
lost. -/
theorem twoRegions_lost :
    twoRegions.setClause {} = .ok twoAssignments ∧
      twoAssignments.params.get? "REGION" = some (.single (.text "east")) ∧
      (renamedAccess.update hostCaller northern twoRegions {} datedSession).1 = .ok 1 ∧
      ∀ u, (renamedAccess.update hostCaller northern twoRegions {} datedSession).2.database.table
        "host" = .ok u →
          ∀ row ∈ u.rows, row.cell (u.definition.spelled "REGION") ≠ .text "east" := by
  have hset : twoRegions.setClause {} = .ok twoAssignments := rfl
  have hquery : renamedAccess.updateQuery northern twoRegions {} = .ok twoQuery := by
    have hclause : renamedAccess.clause northern = .ok northernClause := by
      let v : ValidFilter renamedAccess.rules := ⟨northern, by decide⟩
      have hvalid : northern.validate renamedAccess.rules = .ok v := rfl
      rw [Access.clause_of_validate hvalid (by decide), v.compiled_unranked rfl]
      rfl
    rw [Access.updateQuery, hclause]
    rfl
  have hbound : twoQuery.bound =
      .ok ("UPDATE host SET REGION = ?, region = ?, updated_at = now() WHERE region = ?",
        [.text "east", .text "west", .text "north"]) := rfl
  have hread : Statement.read
      "UPDATE host SET REGION = ?, region = ?, updated_at = now() WHERE region = ?"
        [.text "east", .text "west", .text "north"] = .ok twoStatement := by decide +kernel
  have hupdate : storedDates.update (Timestamp.epoch.addMicros 1)
      [("REGION", .literal (.text "east")), ("region", .literal (.text "west")),
        ("updated_at", .clock .now)] (some (regionIs 65 "north")) = .ok (movedDates, 1) := rfl
  rw [Access.update_ok (s := datedSession) rfl hquery hbound hread rfl rfl hupdate]
  refine ⟨hset, rfl, rfl, fun u hu => ?_⟩
  have htable : (datedSession.database.withTable movedDates).table "host" = .ok movedDates :=
    Database.table_withTable movedDates
  obtain rfl := Except.ok.inj (htable.symm.trans hu)
  decide +kernel

end ResourceTable
