import ResourceTable.Proofs.CrownedStatement
import ResourceTable.Proofs.RowVisits
import ResourceTable.Proofs.SessionRun

/-!
# The scope of a crown

An access whose crown is a conjunction serves one tenant: its statements, whatever is asked
for, act within the crown.  A query gives the same whatever other rows there are, and every
statement leaves these exactly as they were.

## Main definitions

* `Database.WellFormed`: tables are kept under their names, with rows in order.
* `Database.SelectsExactly`: a query finds the rows for which its condition is true.
* `Database.Agree`: tables that have the same rows within a filter.
* `Access.Spares`: the rows outside the crown are left as they were.

## Main results

* `keeps_run` — a statement leaves the rows outside its filter as they were.
* `select_eq` — a query gives the same whatever rows are outside its filter.
* `Access.list_eq_of_select` — a list request gives what its statement selects.
* `Access.list_eq` — **what it gives does not depend on the rows outside the crown.**
* `Access.spares_execute` — **a statement that is executed spares the rows outside the crown.**
-/

namespace ResourceTable

open Sql

namespace Sql

/-- The rows of a table come in the order of their numbers, of which none occurs twice. -/
def StoredTable.Ordered (t : StoredTable) : Prop :=
  t.rows.Pairwise fun r s => r.number < s.number

instance (t : StoredTable) : Decidable t.Ordered :=
  inferInstanceAs (Decidable (t.rows.Pairwise _))

theorem StoredTable.Ordered.nodup {t : StoredTable} (h : t.Ordered) :
    (t.rows.map StoredRow.number).Nodup :=
  List.pairwise_map.2 (h.imp fun hlt => ne_of_lt hlt)

theorem StoredTable.Ordered.numbered {t : StoredTable} (h : t.Ordered) : t.Numbered :=
  fun _ hr _ hs he => List.inj_on_of_nodup_map h.nodup hr hs he

namespace Database

variable {db other : Database} {now : Timestamp} {fields : Schema} {name : String} {f : Filter}

/-- Tables are kept under their names, with rows in order. -/
structure WellFormed (db : Database) : Prop where
  name : ∀ name t, db.table name = .ok t → t.definition.name = name
  ordered : ∀ name t, db.table name = .ok t → t.Ordered

theorem table_withTable (t : StoredTable) : (db.withTable t).table t.definition.name = .ok t := by
  rw [table, withTable, NameMap.get?_insert_self]

theorem table_withTable_of_ne {t : StoredTable} (h : name ≠ t.definition.name) :
    (db.withTable t).table name = db.table name := by
  rw [table, withTable, NameMap.get?_insert, if_neg (Ne.symm h)]
  rfl

/-- **A statement leaves the rows outside its filter as they were.** -/
theorem keeps_run (hdb : db.WellFormed) {s : Statement} (hs : s.ActsOn fields name f)
    {t : StoredTable} (ht : db.table name = .ok t) {outcome : Outcome}
    (h : db.run now s = .ok (outcome, other)) :
    ∃ u, other.table name = .ok u ∧
      t.Keeps u fun r => ¬ f.HoldsIn fields (t.definition.scope now r) := by
  have hnumbered := (hdb.ordered name t ht).numbered
  have hname := hdb.name name t ht
  -- What the condition of the statement spares is all that the filter spares.
  have hchanged {condition : Test} (himplies : condition.Implies fields f) {u : StoredTable}
      (hkeeps : t.Keeps u fun q => q ∈ t.rows ∧ ¬ condition.Passes (t.definition.scope now q)) :
      ∃ v, (db.withTable u).table name = .ok v ∧
        t.Keeps v fun r => ¬ f.HoldsIn fields (t.definition.scope now r) := by
    refine ⟨u, ?_, hkeeps.definition, fun r hr hnot => ?_⟩
    · rw [← hname, ← hkeeps.definition]
      exact table_withTable u
    · exact hkeeps.rows r hr ⟨hr, fun hpass => hnot (himplies _ hpass)⟩
  cases s with
  | select s =>
    obtain ⟨rows, -, h⟩ := Test.bind_eq_ok h
    cases h
    exact ⟨t, ht, .refl t _⟩
  | insert s => exact hs.elim
  | createTable ifAbsent t => exact hs.elim
  | update table assignments condition =>
    obtain ⟨rfl, condition, rfl, himplies⟩ := hs
    obtain ⟨t', ht', h⟩ := Test.bind_eq_ok h
    obtain rfl := Except.ok.inj (ht.symm.trans ht')
    obtain ⟨⟨u, affected⟩, hu, h⟩ := Test.bind_eq_ok h
    cases h
    exact hchanged himplies (StoredTable.keeps_update hnumbered hu)
  | delete table condition =>
    obtain ⟨rfl, condition, rfl, himplies⟩ := hs
    obtain ⟨t', ht', h⟩ := Test.bind_eq_ok h
    obtain rfl := Except.ok.inj (ht.symm.trans ht')
    obtain ⟨⟨u, affected⟩, hu, h⟩ := Test.bind_eq_ok h
    cases h
    exact hchanged himplies (StoredTable.keeps_delete hnumbered hu)

/-- The only table of a database. -/
theorem eq_of_table_withTable {t u : StoredTable} (h : (empty.withTable t).table name = .ok u) :
    name = t.definition.name ∧ u = t := by
  have hget : (empty.withTable t).tables.get? name =
      if t.definition.name = name then some t else none := NameMap.get?_insert _ _ _ _
  rw [table, hget] at h
  by_cases hname : t.definition.name = name
  · rw [if_pos hname] at h
    exact ⟨hname.symm, (Except.ok.inj h).symm⟩
  · rw [if_neg hname] at h
    cases h

theorem wellFormed_withTable {t : StoredTable} (h : t.Ordered) :
    (empty.withTable t).WellFormed := by
  refine ⟨fun name u hu => ?_, fun name u hu => ?_⟩
  · obtain ⟨rfl, rfl⟩ := eq_of_table_withTable hu
    rfl
  · obtain ⟨rfl, rfl⟩ := eq_of_table_withTable hu
    exact h

/-! ### Queries -/

/-- A query finds the rows of its table for which its condition is true, and no others. -/
def SelectsExactly (db : Database) (now : Timestamp) (s : SelectStatement) : Prop :=
  ∀ name t condition, s.table = some name → db.table name = .ok t → s.condition = some condition →
    ∃ rows, (s.plan t.definition).found t now none = .ok rows ∧
      ∀ r, r ∈ rows ↔ r ∈ t.rows ∧ condition.holds (t.definition.scope now r) = .ok true

/-- What was found, in whatever order, is what the condition is true of. -/
theorem selectsExactly_of_perm {s : SelectStatement} {t : StoredTable} {condition : Test}
    {rows : List StoredRow} (hname : s.table = some name) (ht : db.table name = .ok t)
    (hcondition : s.condition = some condition)
    (hfound : (s.plan t.definition).found t now none = .ok rows)
    (hrows : rows.Perm (t.rows.filter fun r =>
      decide (condition.holds (t.definition.scope now r) = .ok true))) :
    db.SelectsExactly now s := by
  intro other u test hother hu htest
  obtain rfl := Option.some.inj (hname.symm.trans hother)
  obtain rfl := Except.ok.inj (ht.symm.trans hu)
  obtain rfl := Option.some.inj (hcondition.symm.trans htest)
  refine ⟨_, hfound, fun r => ?_⟩
  rw [hrows.mem_iff, List.mem_filter, decide_eq_true_eq]

theorem selectsExactly_of_found {s : SelectStatement} {t : StoredTable} {condition : Test}
    (hname : s.table = some name) (ht : db.table name = .ok t)
    (hcondition : s.condition = some condition)
    (hfound : (s.plan t.definition).found t now none = .ok (t.rows.filter fun r =>
      decide (condition.holds (t.definition.scope now r) = .ok true))) :
    db.SelectsExactly now s :=
  selectsExactly_of_perm hname ht hcondition hfound (.refl _)

/-- Two tables that agree on the rows for which a filter holds. -/
structure Agree (fields : Schema) (f : Filter) (now : Timestamp) (t u : StoredTable) : Prop where
  definition : t.definition = u.definition
  rows : ∀ r, f.HoldsIn fields (t.definition.scope now r) → (r ∈ t.rows ↔ r ∈ u.rows)

/-- What is left of tables that agree, once the other rows are left out, is the same. -/
theorem Agree.restrict_eq {t u : StoredTable} (h : Agree fields f now t u) (ht : t.Ordered)
    (hu : u.Ordered) :
    t.restrict (fun r => f.HoldsIn fields (t.definition.scope now r)) =
      u.restrict (fun r => f.HoldsIn fields (u.definition.scope now r)) := by
  obtain ⟨d, rows⟩ := t
  obtain ⟨e, others⟩ := u
  obtain rfl : d = e := h.definition
  refine congrArg (StoredTable.mk d) ?_
  have hordered : rows.Pairwise fun r s => r.number < s.number := ht
  have hordered' : others.Pairwise fun r s => r.number < s.number := hu
  have hirrefl : Std.Irrefl fun r s : StoredRow => r.number < s.number := ⟨fun r => lt_irrefl _⟩
  refine (hordered.filter _).eq_of_mem_iff (hordered'.filter _) fun {r} => ?_
  rw [List.mem_filter, List.mem_filter]
  exact and_congr_left fun hin => h.rows r (of_decide_eq_true hin)

/-- **A query gives the same whatever rows are outside its filter.** -/
theorem select_eq {s : SelectStatement} (hs : (Statement.select s).ActsOn fields name f)
    {t u : StoredTable} (ht : db.table name = .ok t) (hu : other.table name = .ok u)
    (hdb : db.WellFormed) (hother : other.WellFormed) (hagree : Agree fields f now t u)
    (hexact : db.SelectsExactly now s) (hexact' : other.SelectsExactly now s) :
    db.select now s = other.select now s := by
  obtain ⟨htable, condition, hcondition, himplies⟩ := hs
  obtain ⟨rows, hrows, hmem⟩ := hexact name t condition htable ht hcondition
  obtain ⟨rows', hrows', hmem'⟩ := hexact' name u condition htable hu hcondition
  have hleft := Plan.found_restrict (fun r => f.HoldsIn fields (t.definition.scope now r))
    (hdb.ordered name t ht).numbered hrows fun r hr =>
      decide_eq_true (himplies _ (Test.passes_of_holds ((hmem r).1 hr).2))
  have hright := Plan.found_restrict (fun r => f.HoldsIn fields (u.definition.scope now r))
    (hother.ordered name u hu).numbered hrows' fun r hr =>
      decide_eq_true (himplies _ (Test.passes_of_holds ((hmem' r).1 hr).2))
  have hrestrict := hagree.restrict_eq (hdb.ordered name t ht) (hother.ordered name u hu)
  unfold select
  rw [htable]
  dsimp only
  rw [ht, hu, Test.ok_bind, Test.ok_bind, hleft, hright, hrestrict, hagree.definition]

/-- A query is checked against the definition of its table alone. -/
theorem prepare_select_eq {s : SelectStatement} {t u : StoredTable} (hs : s.table = some name)
    (ht : db.table name = .ok t) (hu : other.table name = .ok u)
    (hdefinition : t.definition = u.definition) :
    db.prepare now (.select s) = other.prepare now (.select s) := by
  unfold prepare
  dsimp only
  rw [hs]
  dsimp only
  rw [ht, hu, Test.ok_bind, Test.ok_bind, hdefinition]

end Database

end Sql

/-! ### Accesses -/

namespace Access

variable {r : Resource} {a : Access r} {c : Filter} {cs : List Filter}

/-- The database finds for a list request the rows for which the condition of its
statement is true, and no others. -/
def SelectsExactly (a : Access r) (request : ListRequest) (s : Session) : Prop :=
  ∀ q sql cells select, a.listQuery request = .ok q → q.bound = .ok (sql, cells) →
    Statement.read sql cells = .ok (.select select) →
      s.database.SelectsExactly (s.clock.addMicros 1) select

theorem selectsExactly_of_read {request : ListRequest} {s : Session} {q : Query} {sql : String}
    {cells : List Cell} {select : SelectStatement} (hq : a.listQuery request = .ok q)
    (hbound : q.bound = .ok (sql, cells)) (hread : Statement.read sql cells = .ok (.select select))
    (h : s.database.SelectsExactly (s.clock.addMicros 1) select) : a.SelectsExactly request s := by
  intro q' sql' cells' select' hq' hbound' hread'
  cases Query.statement_unique hq hbound hread hq' hbound' hread'
  exact h

/-- What a list request gives depends on the database only through the definition of the table
and what its statement, which acts within the crown, selects. -/
theorem list_eq_of_select (hplain : a.IsPlain) (hcrown : a.options.crown = some (.and, c :: cs))
    (caller : Caller) (request : ListRequest) (s : Session) {db other : Database}
    {t u : StoredTable} (ht : db.table r.table.name = .ok t)
    (hu : other.table r.table.name = .ok u) (hdefinition : t.definition = u.definition)
    (hselect : ∀ q sql cells select, a.listQuery request = .ok q → q.bound = .ok (sql, cells) →
      Statement.read sql cells = .ok (.select select) →
        (Statement.select select).ActsOn a.rules.fields r.table.name (.group .and (c :: cs)) →
          db.select (s.clock.addMicros 1) select = other.select (s.clock.addMicros 1) select) :
    (a.list caller request { s with database := db }).1 =
      (a.list caller request { s with database := other }).1 := by
  have hdemand {α : Type} (c : Checked α) (s t : Session) :
      (demand c s).1 = (demand c t).1 := rfl
  -- After the statement only its rows are looked at, not the session.
  have hfinish (rows : List Row) (s t : Session) :
      ((do
        if request.page.count then return { count := some (← demand (countOf rows)) }
        else return { details := ← demand (rows.mapM r.ofRow) } :
          Action Session (Listing r.Item)) s).1 =
      ((do
        if request.page.count then return { count := some (← demand (countOf rows)) }
        else return { details := ← demand (rows.mapM r.ofRow) } :
          Action Session (Listing r.Item)) t).1 := by
    split
    · exact Action.fst_bind_congr (hdemand _ s t) fun _ _ _ => rfl
    · exact Action.fst_bind_congr (hdemand _ s t) fun _ _ _ => rfl
  unfold list
  rw [Action.bind_run, Action.bind_run]
  cases hq : a.listQuery request with
  | error e => rfl
  | ok q =>
    refine Action.fst_bind_congr ?_ hfinish
    refine Action.fst_bind_congr ?_ fun _ _ _ => rfl
    -- The statement is prepared and run alike.
    refine Session.perform_congr _ _ fun sql cells statement hbound hread => ?_
    obtain ⟨⟨select, rfl⟩, hacts⟩ := a.actsOn_list hplain hcrown hq hbound hread
    refine ⟨Database.prepare_select_eq hacts.1 ht hu hdefinition, ?_⟩
    unfold Database.run
    dsimp only
    rw [hselect q sql cells select hq hbound hread hacts]
    cases other.select (s.clock.addMicros 1) select <;> rfl

/-- What a list request gives does not depend on the rows outside the crown. -/
theorem list_eq (hplain : a.IsPlain) (hcrown : a.options.crown = some (.and, c :: cs))
    (caller : Caller) (request : ListRequest) (s : Session) {db other : Database}
    {t u : StoredTable} (ht : db.table r.table.name = .ok t)
    (hu : other.table r.table.name = .ok u) (hdb : db.WellFormed) (hother : other.WellFormed)
    (hagree : Database.Agree a.rules.fields (.group .and (c :: cs)) (s.clock.addMicros 1) t u)
    (hexact : a.SelectsExactly request { s with database := db })
    (hexact' : a.SelectsExactly request { s with database := other }) :
    (a.list caller request { s with database := db }).1 =
      (a.list caller request { s with database := other }).1 :=
  list_eq_of_select hplain hcrown caller request s ht hu hagree.definition
    fun q sql cells select hq hbound hread hacts =>
      Database.select_eq hacts ht hu hdb hother hagree (hexact q sql cells select hq hbound hread)
        (hexact' q sql cells select hq hbound hread)

/-- The rows of the table outside the crown are left as they were. -/
def Spares (a : Access r) (crown : Filter) (s after : Session) : Prop :=
  ∀ t, s.database.table r.table.name = .ok t →
    ∃ u, after.database.table r.table.name = .ok u ∧
      t.Keeps u fun row =>
        ¬ crown.HoldsIn a.rules.fields (t.definition.scope (s.clock.addMicros 1) row)

theorem spares_of_database_eq {crown : Filter} {s after : Session}
    (h : after.database = s.database) : a.Spares crown s after := by
  intro t ht
  exact ⟨t, by rw [h, ht], .refl t _⟩

/-- A statement that acts within the crown spares the other rows. -/
theorem spares_perform {crown : Filter} {context : String} {caller : Caller} {q : Query}
    {s : Session} (hdb : s.database.WellFormed)
    (hacts : ∀ sql cells statement, q.bound = .ok (sql, cells) →
      Statement.read sql cells = .ok statement →
        statement.ActsOn a.rules.fields r.table.name crown) :
    a.Spares crown s (Session.perform context caller q s).2 := by
  rcases Session.database_perform context caller q s with
    h | ⟨sql, cells, statement, outcome, hbound, hread, hrun⟩
  · exact spares_of_database_eq h
  · intro t ht
    exact Database.keeps_run hdb (hacts sql cells statement hbound hread) ht hrun

/-- A body that spares the other rows spares them as a transaction, whether or not it
fails. -/
theorem spares_transaction {α : Type} {crown : Filter} {caller : Caller}
    {body : Action Session α} {s : Session} (h : a.Spares crown s (body s).2) :
    a.Spares crown s (Session.transaction id caller body s).2 := by
  unfold Session.transaction
  cases s.signals.check caller with
  | error e => exact spares_of_database_eq rfl
  | ok u =>
    dsimp only [Session.atomically]
    rcases hbody : body s with ⟨_ | x, after⟩
    · exact spares_of_database_eq rfl
    · rw [hbody] at h
      exact h

/-- A query that is executed spares the other rows, if its statement acts within the
crown. -/
theorem spares_execute {crown : Filter} {caller : Caller} {query : Checked Query}
    {s : Session} (hdb : s.database.WellFormed)
    (hacts : ∀ q sql cells statement, query = .ok q → q.bound = .ok (sql, cells) →
      Statement.read sql cells = .ok statement →
        statement.ActsOn a.rules.fields r.table.name crown) :
    a.Spares crown s
      ((do Session.connection.execute caller (← demand query) : Action Session Nat) s).2 := by
  rw [Action.bind_run]
  cases query with
  | error e => exact spares_of_database_eq rfl
  | ok q =>
    have hperform :
        a.Spares crown s (Session.perform "failed to execute statement" caller q s).2 :=
      spares_perform hdb fun sql cells statement => hacts q sql cells statement rfl
    show a.Spares crown s (Session.connection.execute caller q s).2
    unfold Session.connection
    dsimp only
    rw [Action.bind_run]
    rcases hp : Session.perform "failed to execute statement" caller q s with ⟨_ | outcome, after⟩
    · rw [hp] at hperform
      exact hperform
    · rw [hp] at hperform
      exact hperform

end Access

/-! ### The hosts of a region -/

/-- Hosts and their regions. -/
def regionalHosts : Resource where
  table := .ofColumns "host" (.ofColumns false [.plain "id" .string, .plain "region" .string])
  type :=
    ⟨"Host", .cons "id" (some "id") (.scalar .string)
      (.cons "region" (some "region") (.scalar .string) .nil)⟩

/-- The rule that a host is in the north. -/
def northern : Filter := .rule ⟨"region", .equal, .single (.text "north")⟩

/-- The row of a host. -/
def hostRow (number : Int) (id region : String) : StoredRow :=
  ⟨number, .ofList [("id", .text id), ("region", .text region)]⟩

/-- The table of hosts. -/
def storedHosts (rows : List StoredRow) : StoredTable where
  definition := ⟨"host", [⟨"id", .text, false⟩, ⟨"region", .text, true⟩], .column "id"⟩
  rows := rows

/-- A session whose database has the hosts. -/
def hostSession (rows : List StoredRow) : Session where
  database := ⟨NameMap.empty.insert "host" (storedHosts rows)⟩

/-- Who asks for hosts. -/
def hostCaller : Caller := { token := ⟨0, []⟩ }

/-- A host in the north and one in the south. -/
def someHosts : List StoredRow := [hostRow 1 "a" "north", hostRow 2 "b" "south"]

end ResourceTable
