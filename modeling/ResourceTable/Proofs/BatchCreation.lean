import ResourceTable.Proofs.ExclusiveIdentifiers
import ResourceTable.Proofs.InsertReading
import ResourceTable.Proofs.RowInsertion

/-!
# Creating records

Records are created in a transaction of several statements: one advances the counter of the
table, and each record is inserted by one of its own.  The caller can cancel before any of
them, and any of them can fail.  Whatever happens, all records are created or the database
is as it was.

## Main definitions

* `Session.interrupted`, `Resource.createAmid`: a creation between whose statements callers
  cancel.
* `Session.Reached`: the sessions that operations lead to.
* `Table.Stores`: a row that holds a record.
* `Resource.Created`: what a creation that succeeds has done.

## Main results

* `gains_execute`, `gains_executeAll` — one insertion adds one row, and each of several adds
  one.
* `Access.create_all_or_none` — **records are created all or none.**
-/

namespace ResourceTable

open Sql

/-! ### Cancellation between statements -/

namespace Session

/-- The session after some tokens were canceled; which ones is decided by the number of
statements issued by then. -/
def canceling (cancels : Nat → List CancelToken) (s : Session) : Session :=
  { s with signals := (cancels s.issued.length).foldl Signals.cancel s.signals }

/-- The connection of a session in which tokens are canceled before statements. -/
def interrupted (cancels : Nat → List CancelToken) : Connection Session where
  query caller q := fun s => connection.query caller q (s.canceling cancels)
  execute caller q := fun s => connection.execute caller q (s.canceling cancels)

/-- What the clock shows after so many statements. -/
def clockAfter (s : Session) (k : Nat) : Timestamp := (fun t => t.addMicros 1)^[k] s.clock

theorem clockAfter_of_eq {s middle : Session} {n : Nat} (h : middle.clock = s.clockAfter n)
    (k : Nat) : middle.clockAfter k = s.clockAfter (k + n) := by
  rw [clockAfter, h, clockAfter, clockAfter, ← Function.iterate_add_apply]

end Session

/-- Executes statements one after the other, and gives the number of rows that they
changed. -/
def Connection.executeAll {σ : Type} (c : Connection σ) (caller : Caller) :
    List Query → Action σ Nat
  | [] => return 0
  | q :: rest => do
    let affected ← c.execute caller q
    return affected + (← c.executeAll caller rest)

theorem Access.executeAll_eq (caller : Caller) (queries : List Query) :
    executeAll caller queries = Session.connection.executeAll caller queries := by
  induction queries with
  | nil => rfl
  | cons q rest ih =>
    rw [executeAll, ih]
    rfl

namespace Resource

variable (r : Resource)

/-- Creates records, all or none, with identifiers from the database, while tokens are
canceled between the statements. -/
def createAmid (cancels : Nat → List CancelToken) (caller : Caller) (items : List r.Item) :
    Action Session (List String × List r.Item) :=
  Session.transaction id caller do
    let c := Session.interrupted cancels
    if items.isEmpty then throw (.request (.nothingToCreate r.table.name))
    let ids ←
      if r.insertsId then Identifiers.reserve c caller r.table.name items.length else pure []
    let items := r.identify ids items
    let _ ← c.executeAll caller (← Access.demand (r.table.insertQueries (items.map r.record)))
    return (ids, items)

variable {r}

/-- Creates records, all or none, with identifiers that are reserved in some way and statements
that are executed over some connection. -/
def createBy (r : Resource) (reserve : Action Session (List String)) (c : Connection Session)
    (caller : Caller) (items : List r.Item) : Action Session (List String × List r.Item) :=
  Session.transaction id caller do
    if items.isEmpty then throw (.request (.nothingToCreate r.table.name))
    let ids ← if r.insertsId then reserve else pure []
    let items := r.identify ids items
    let _ ← c.executeAll caller (← Access.demand (r.table.insertQueries (items.map r.record)))
    return (ids, items)

theorem create_eq_createBy (a : Access r) (caller : Caller) (items : List r.Item) :
    a.create caller items = r.createBy (a.ids.reserve caller r.table.name items.length)
      Session.connection caller items := by
  unfold createBy Access.create Access.createIn
  simp only [Access.executeAll_eq]

end Resource

/-! ### Rows of records -/

/-- What the insertion of a flattened record at a time gives a column. -/
def Column.cellAt (now : Timestamp) (flat : Flattened) (c : Column) : Cell :=
  if c.type = .time then .text now.stored else (c.valueIn flat).cell

theorem Column.value_given (now : Timestamp) (flat : Flattened) (c : Column) :
    (c.given flat).value (.bare now) = .ok (c.cellAt now flat) := by
  unfold given cellAt
  split <;> rfl

/-- A row that holds a flattened record as it was inserted at a time: every column that the
table inserts has what it was given, as the database stores it, and other columns have
nothing.  The key of the table can be the number of the row, if it was given nothing. -/
structure Table.Stores (t : Table) (d : TableDef) (now : Timestamp) (flat : Flattened)
    (row : StoredRow) : Prop where
  values : ∀ c ∈ t.columns.inserted, c.type ≠ .time → ∃ leaf, flat.get? c.name = some leaf ∧
    leaf.value.toCell = .ok (c.cellAt now flat)
  cells : ∀ c ∈ t.columns.inserted, row.cell (d.spelled c.name) = d.stored c.name (c.cellAt now flat) ∨
    c.cellAt now flat = .null ∧ d.key = .rowNumber (d.spelled c.name)
  others : ∀ column, (∀ c ∈ t.columns.inserted, sameName c.name column = false) →
    row.cell column = .null ∨ d.key = .rowNumber column

/-- A table to which one row was added for each of some records, in a session: the rows that
it had are as they were, and none of them has the key of a new one.  The clock has moved on by
at most one step for each record. -/
structure Table.Gains (t : Table) (s after : Session) (old new : StoredTable)
    (records : List Record) (rows : List StoredRow) : Prop where
  table : after.database.table t.name = .ok new
  definition : new.definition = old.definition
  perm : new.rows.Perm (old.rows ++ rows)
  stored : List.Forall₂ (fun record row => ∃ flat, ∃ k ≤ records.length,
    record.flatten = .ok flat ∧ t.Stores old.definition (s.clockAfter k) flat row) records rows
  apart : ∀ row ∈ rows, old.rival? row none = none
  ordered : old.Ordered → old.KeyNumbers → new.Ordered ∧ new.KeyNumbers
  columns : records ≠ [] → Database.has old.definition t.columns.insertedNames = .ok ()
  others : ∀ name ≠ t.name, after.database.table name = s.database.table name

/-- What a rival of a row was not among fewer rows. -/
theorem Sql.StoredTable.rival?_of_adding {t : StoredTable} {r row : StoredRow}
    {apart : Option Int} (h : (t.adding r).rival? row apart = none) :
    t.rival? row apart = none := by
  have hdefinition : (t.adding r).definition = t.definition := rfl
  unfold rival? at h ⊢
  rw [hdefinition] at h
  cases hkey : t.definition.key.name? with
  | none => rfl
  | some column =>
    rw [hkey] at h
    dsimp only at h ⊢
    split
    · rfl
    · next hnull =>
      rw [if_neg hnull] at h
      exact List.find?_eq_none.2 fun q hq =>
        List.find?_eq_none.1 h q (mem_place.2 (.inr hq))

section Insertions

variable {t : Table} {cancels : Nat → List CancelToken} {caller : Caller} {s : Session}
  {old : StoredTable}

theorem Table.Gains.nil (hold : s.database.table t.name = .ok old) : t.Gains s s old old [] [] where
  table := hold
  definition := rfl
  perm := by rw [List.append_nil]
  stored := .nil
  apart := List.forall_mem_nil _
  ordered := fun h hkeys => ⟨h, hkeys⟩
  columns := fun h => absurd rfl h
  others := fun _ _ => rfl

/-- Rows that are added one after the other are added. -/
theorem Table.Gains.append {middle after : Session} {between new : StoredTable}
    {first second : List Record} {rows more : List StoredRow}
    (hclock : ∃ k ≤ first.length, middle.clock = s.clockAfter k)
    (h : t.Gains s middle old between first rows)
    (hmore : t.Gains middle after between new second more)
    (hfresh : ∀ row, between.rival? row none = none → old.rival? row none = none) :
    t.Gains s after old new (first ++ second) (rows ++ more) where
  table := hmore.table
  definition := hmore.definition.trans h.definition
  perm := by
    rw [← List.append_assoc]
    exact hmore.perm.trans (h.perm.append_right more)
  stored := by
    obtain ⟨n, hfirst, hn⟩ := hclock
    refine List.rel_append (h.stored.imp fun record row hstored => ?_)
      (hmore.stored.imp fun record row hstored => ?_)
    · obtain ⟨flat, k, hk, hflat, hrow⟩ := hstored
      exact ⟨flat, k, hk.trans (List.sublist_append_left first second).length_le, hflat, hrow⟩
    · obtain ⟨flat, k, hk, hflat, hrow⟩ := hstored
      refine ⟨flat, k + n, by rw [List.length_append]; omega, hflat, ?_⟩
      rwa [h.definition, Session.clockAfter_of_eq hn] at hrow
  apart := List.forall_mem_append.2 ⟨h.apart, fun row hrow => hfresh row (hmore.apart row hrow)⟩
  ordered := fun hordered hkeys => (h.ordered hordered hkeys).elim hmore.ordered
  columns := fun hne => by
    cases first with
    | nil => exact h.definition ▸ hmore.columns hne
    | cons record rest => exact h.columns (List.cons_ne_nil _ _)
  others := fun name hname => (hmore.others name hname).trans (h.others name hname)

/-- A row that the insertion of a record fills holds the record. -/
theorem Table.stores_of_newRow (hw : t.IsWritable) (hne : t.columns.inserted ≠ [])
    {flat : Flattened} {now : Timestamp} {row : StoredRow}
    (hvalues : ∀ c ∈ t.columns.inserted, c.type ≠ .time → ∃ leaf, flat.get? c.name = some leaf ∧
      leaf.value.toCell = .ok (c.cellAt now flat))
    (h : old.newRow now t.columns.insertedNames (t.columns.inserted.map (Column.given flat)) =
      .ok row) : t.Stores old.definition now flat row := by
  have hzip : t.columns.insertedNames.zip (t.columns.inserted.map (Column.given flat)) =
      t.columns.inserted.map fun c => (c.name, c.given flat) := by
    rw [Registry.insertedNames, List.zip_map']
  have hcolumns : t.columns.insertedNames ≠ [] := fun he => hne (List.map_eq_nil_iff.1 he)
  have happart : StoredTable.AssignsApart
      (t.columns.inserted.map fun c => (c.name, c.given flat)) :=
    List.pairwise_map.2 (List.pairwise_map.1 hw.apart)
  obtain ⟨hassigned, hothers⟩ :=
    StoredTable.fills_of_newRow hcolumns (hzip ▸ happart) h
  rw [hzip] at hassigned hothers
  refine ⟨hvalues, fun c hc => ?_, fun column hcolumn => ?_⟩
  · obtain ⟨v, hv, hcell⟩ := hassigned _ (List.mem_map_of_mem hc)
    obtain rfl := Except.ok.inj ((c.value_given now flat).symm.trans hv)
    exact hcell
  · exact hothers column (List.forall_mem_map.2 hcolumn)

/-- An insertion that is executed is read as one, and run. -/
theorem run_of_execute (hw : t.IsWritable) (hne : t.columns.inserted ≠ []) {record : Record}
    {q : Query} (hq : t.insertQuery record = .ok q) {n : Nat}
    (h : ((Session.interrupted cancels).execute caller q s).1 = .ok n) :
    ∃ flat sql cells outcome, record.flatten = .ok flat ∧ q.bound = .ok (sql, cells) ∧
      s.database.prepare (s.clockAfter 1) (.insert (insertion t flat)) = .ok () ∧
      s.database.run (s.clockAfter 1) (.insert (insertion t flat)) =
        .ok (outcome, ((Session.interrupted cancels).execute caller q s).2.database) ∧
      ((Session.interrupted cancels).execute caller q s).2.clock = s.clockAfter 1 := by
  have hrun : (Session.interrupted cancels).execute caller q s =
      Session.connection.execute caller q (s.canceling cancels) := rfl
  rw [hrun, Session.execute_run] at h ⊢
  rcases Session.perform_cases "failed to execute statement" caller q (s.canceling cancels) with
    ⟨e, he, -⟩ | ⟨sql, cells, statement, outcome, hcheck, hbound, hread, hprepare, hruns, -⟩
  · rw [he] at h
    cases h
  · obtain ⟨flat, hflat, -⟩ := exists_of_insertQuery hq
    obtain rfl := read_insertQuery hw hne hq hflat hbound hread
    have hperform := Session.perform_ok "failed to execute statement" caller hcheck hbound hread
      hprepare hruns
    refine ⟨flat, sql, cells, outcome, hflat, hbound, hprepare, hruns, ?_⟩
    rw [hperform]
    rfl

/-- An insertion is executed only if there is its table. -/
theorem exists_table_of_execute (hw : t.IsWritable) (hne : t.columns.inserted ≠ [])
    {record : Record} {q : Query} (hq : t.insertQuery record = .ok q) {n : Nat}
    (h : ((Session.interrupted cancels).execute caller q s).1 = .ok n) :
    ∃ old, s.database.table t.name = .ok old := by
  obtain ⟨flat, -, -, -, -, -, hprepare, -, -⟩ := run_of_execute hw hne hq h
  obtain ⟨old, hold, -⟩ := Test.bind_eq_ok hprepare
  exact ⟨old, hold⟩

/-- **One insertion adds one row.** -/
theorem gains_execute (hw : t.IsWritable) (hne : t.columns.inserted ≠ []) {record : Record}
    {q : Query} (hq : t.insertQuery record = .ok q) (hold : s.database.table t.name = .ok old)
    (hname : old.definition.name = t.name) {n : Nat}
    (h : ((Session.interrupted cancels).execute caller q s).1 = .ok n) :
    ∃ new row, t.Gains s ((Session.interrupted cancels).execute caller q s).2 old new [record]
        [row] ∧
      ((Session.interrupted cancels).execute caller q s).2.clock = s.clockAfter 1 ∧
      ∀ row, new.rival? row none = none → old.rival? row none = none := by
  obtain ⟨flat, sql, cells, outcome, hflat, hbound, hprepare, hruns, hclock⟩ :=
    run_of_execute hw hne hq h
  -- What the statement is checked against, and run to, is the table.
  obtain ⟨old', hold', hprepare⟩ := Test.bind_eq_ok hprepare
  obtain rfl : old = old' := Except.ok.inj (hold.symm.trans hold')
  obtain ⟨_, hhas, -⟩ := Test.bind_eq_ok hprepare
  obtain ⟨old', hold', hruns⟩ := Test.bind_eq_ok hruns
  obtain rfl : old = old' := Except.ok.inj (hold.symm.trans hold')
  obtain ⟨⟨new, row⟩, hinsert, hruns⟩ := Test.bind_eq_ok hruns
  obtain ⟨-, hdatabase⟩ := Prod.mk.inj (Except.ok.inj hruns)
  obtain ⟨hnew, hrival, rfl⟩ := StoredTable.steps_of_insert rfl hinsert
  have hstores : t.Stores old.definition (s.clockAfter 1) flat row := by
    refine Table.stores_of_newRow hw hne (fun c hc htime => ?_) hnew
    obtain ⟨flat', hflat', -, hvalues⟩ := exists_of_insertQuery hq
    cases hflat.symm.trans hflat'
    obtain ⟨leaf, hleaf, -⟩ := hvalues c hc htime
    have hvalue : c.valueIn flat = leaf.value := by
      rw [Column.valueIn, hleaf]
      rfl
    refine ⟨leaf, hleaf, ?_⟩
    rw [Column.cellAt, if_neg htime, ← hvalue]
    exact toCell_of_insertQuery hw hq hflat hbound hc htime
  refine ⟨old.adding row, row, ?_, hclock, fun _ => StoredTable.rival?_of_adding⟩
  constructor
  · rw [← hdatabase, ← hname]
    exact Database.table_withTable (old.adding row)
  · rfl
  · exact (StoredTable.perm_place row old.rows).trans
      (List.perm_append_singleton row old.rows).symm
  · exact .cons ⟨flat, 1, le_rfl, hflat, hstores⟩ .nil
  · exact List.forall_mem_singleton.2 hrival
  · exact fun hordered hkeys => StoredTable.ordered_adding_new hordered hkeys
      (fun he => hne (List.map_eq_nil_iff.1 he)) hnew hrival
  · exact fun _ => hhas
  · intro name hne
    rw [← hdatabase]
    exact Database.table_withTable_of_ne (hname ▸ hne)

/-- What a step of an action that succeeds leaves to the next one. -/
theorem Action.bind_eq_ok {σ α β : Type} {x : Action σ α} {f : α → Action σ β} {s : σ} {b : β}
    (h : ((x >>= f) s).1 = .ok b) : ∃ a after, x s = (.ok a, after) ∧ (x >>= f) s = f a after := by
  rw [bind_run] at h ⊢
  rcases hx : x s with ⟨_ | a, after⟩
  · rw [hx] at h
    cases h
  · exact ⟨a, after, rfl, rfl⟩

/-- Insertions are executed only if there is their table. -/
theorem exists_table_of_executeAll (hw : t.IsWritable) (hne : t.columns.inserted ≠ [])
    {records : List Record} {queries : List Query} (hrecords : records ≠ [])
    (hqueries : records.mapM t.insertQuery = .ok queries) {n : Nat}
    (h : ((Session.interrupted cancels).executeAll caller queries s).1 = .ok n) :
    ∃ old, s.database.table t.name = .ok old := by
  obtain ⟨record, rest, rfl⟩ := List.exists_cons_of_ne_nil hrecords
  rw [List.mapM_cons] at hqueries
  obtain ⟨q, hq, hqueries⟩ := Rule.bind_eq_ok hqueries
  obtain ⟨more, -, hqueries⟩ := Rule.bind_eq_ok hqueries
  cases hqueries
  obtain ⟨a, middle, hexecute, -⟩ := Action.bind_eq_ok h
  exact exists_table_of_execute hw hne hq (congrArg Prod.fst hexecute)

/-- **Each of several insertions adds one row.** -/
theorem gains_executeAll (hw : t.IsWritable) (hne : t.columns.inserted ≠ []) :
    ∀ {records : List Record} {queries : List Query} {s : Session} {old : StoredTable} {n : Nat},
      records.mapM t.insertQuery = .ok queries → s.database.table t.name = .ok old →
        old.definition.name = t.name →
          (((Session.interrupted cancels).executeAll caller queries) s).1 = .ok n →
            ∃ new rows, t.Gains s ((Session.interrupted cancels).executeAll caller queries s).2
              old new records rows := by
  intro records
  induction records with
  | nil =>
    intro queries s old n hqueries hold _ h
    cases hqueries
    exact ⟨old, [], .nil hold⟩
  | cons record rest ih =>
    intro queries s old n hqueries hold hname h
    rw [List.mapM_cons] at hqueries
    obtain ⟨q, hq, hqueries⟩ := Rule.bind_eq_ok hqueries
    obtain ⟨more, hmore, hqueries⟩ := Rule.bind_eq_ok hqueries
    cases hqueries
    obtain ⟨a, middle, hexecute, hrun⟩ := Action.bind_eq_ok h
    rw [Connection.executeAll] at h ⊢
    rw [hrun] at h ⊢
    obtain ⟨b, after, hexecuteAll, hrun⟩ := Action.bind_eq_ok h
    rw [hrun]
    have hok : ((Session.interrupted cancels).execute caller q s).1 = .ok a := by rw [hexecute]
    have hoks : ((Session.interrupted cancels).executeAll caller more middle).1 = .ok b := by
      rw [hexecuteAll]
    obtain ⟨between, row, hgains, hclock, hfresh⟩ := gains_execute hw hne hq hold hname hok
    rw [hexecute] at hgains hclock
    obtain ⟨new, rows, hgained⟩ :=
      ih hmore hgains.table (hgains.definition.symm ▸ hname) hoks
    rw [hexecuteAll] at hgained
    exact ⟨new, row :: rows, hgains.append ⟨1, le_rfl, hclock⟩ hgained hfresh⟩

/-- **Insertions that are executed add one row each**, to a table that is there. -/
theorem exists_gains (hw : t.IsWritable) (hne : t.columns.inserted ≠ []) {records : List Record}
    {queries : List Query} (hrecords : records ≠ [])
    (hqueries : records.mapM t.insertQuery = .ok queries)
    (hname : ∀ old, s.database.table t.name = .ok old → old.definition.name = t.name) {n : Nat}
    {after : Session}
    (h : (Session.interrupted cancels).executeAll caller queries s = (.ok n, after)) :
    ∃ old new rows, s.database.table t.name = .ok old ∧ t.Gains s after old new records rows := by
  have hok := congrArg Prod.fst h
  obtain ⟨old, hold⟩ := exists_table_of_executeAll hw hne hrecords hqueries hok
  obtain ⟨new, rows, hgains⟩ := gains_executeAll hw hne hqueries hold (hname old hold) hok
  rw [h] at hgains
  exact ⟨old, new, rows, hold, hgains⟩

end Insertions

/-! ### Sessions that operations lead to -/

/-- Tables are kept under their names, with rows in the order of their numbers, and every
row has its number in the key that is to number the rows. -/
structure Sql.Database.Sound (db : Database) : Prop extends WellFormed db where
  keys : ∀ name t, db.table name = .ok t → t.KeyNumbers

/-- **A sound database stays sound if one table is replaced** by another one of its name. -/
theorem Sql.Database.Sound.of_replaced {db after : Database} (h : db.Sound) {t : StoredTable}
    (ht : after.table t.definition.name = .ok t) (hordered : t.Ordered) (hkeys : t.KeyNumbers)
    (hothers : ∀ name ≠ t.definition.name, after.table name = db.table name) : after.Sound := by
  have htable {name : String} {u : StoredTable} (hu : after.table name = .ok u) :
      name = t.definition.name ∧ u = t ∨ db.table name = .ok u := by
    by_cases hname : name = t.definition.name
    · subst hname
      exact .inl ⟨rfl, Except.ok.inj (hu.symm.trans ht)⟩
    · exact .inr ((hothers name hname).symm.trans hu)
  refine ⟨⟨fun name u hu => ?_, fun name u hu => ?_⟩, fun name u hu => ?_⟩
  · rcases htable hu with ⟨rfl, rfl⟩ | hu
    · rfl
    · exact h.name name u hu
  · rcases htable hu with ⟨rfl, rfl⟩ | hu
    · exact hordered
    · exact h.ordered name u hu
  · rcases htable hu with ⟨rfl, rfl⟩ | hu
    · exact hkeys
    · exact h.keys name u hu

/-- A sound database stays sound if a table gains rows. -/
theorem Table.Gains.sound {t : Table} {s after : Session} {old new : StoredTable}
    {records : List Record} {rows : List StoredRow} (h : t.Gains s after old new records rows)
    (hdb : s.database.Sound) (hold : s.database.table t.name = .ok old) :
    after.database.Sound := by
  obtain ⟨hordered, hkeys⟩ := h.ordered (hdb.ordered _ _ hold) (hdb.keys _ _ hold)
  have hname : new.definition.name = t.name := by
    rw [h.definition]
    exact hdb.name _ _ hold
  exact hdb.of_replaced (hname.symm ▸ h.table) hordered hkeys (hname.symm ▸ h.others)

/-- The sessions that operations lead to from one with unused counters: the counters advance
with each batch of identifiers, and operations on other tables leave them as they are. -/
inductive Session.Reached : Session → Prop
  /-- The beginning. -/
  | start {s : Session} (hdb : s.database.Sound) (hunused : IdSource.database.Unused s) : s.Reached
  /-- A batch of identifiers was asked for. -/
  | reserve {s : Session} (h : s.Reached) (caller : Caller) (kind : String) (n : Nat) :
      (IdSource.database.reserve caller kind n s).2.Reached
  /-- Something was done to other tables. -/
  | elsewhere {s after : Session} (h : s.Reached) (hdb : after.database.Sound)
      (hcounters : after.database.table "id_generator" = s.database.table "id_generator") :
      after.Reached

/-- A table of counters is sound. -/
theorem Identifiers.Counts.keyNumbers {t : StoredTable} {level : String → Nat}
    (h : Identifiers.Counts t level) : t.KeyNumbers := by
  intro column hkey
  rw [h.definition] at hkey
  cases hkey

/-- **The database stays sound when identifiers are reserved**, wherever their counters are. -/
theorem IdSource.sound_reserve {src : IdSource} {s : Session} {level : String → Nat}
    (hdb : s.database.Sound) (hlevel : src.Counts s level) (caller : Caller) (kind : String)
    (n : Nat) : (src.reserve caller kind n s).2.database.Sound := by
  obtain ⟨after, hrun, hafter, -, hothers⟩ := reserve_run hlevel caller kind n
  cases src with
  | memory => exact hdb
  | database =>
    rw [hrun]
    obtain ⟨u, hu, hcounts⟩ := hafter
    have hname : u.definition.name = "id_generator" := by
      rw [hcounts.definition]
      rfl
    exact hdb.of_replaced (hname.symm ▸ hu) hcounts.ordered hcounts.keyNumbers
      (hname.symm ▸ hothers)

/-- **In every session that operations lead to, the database is sound and the counters
count.** -/
theorem Session.Reached.sound {s : Session} (h : s.Reached) :
    s.database.Sound ∧ ∃ level, IdSource.database.Counts s level := by
  induction h with
  | start hdb hunused => exact ⟨hdb, _, IdSource.counts_of_unused hunused⟩
  | elsewhere h hdb hcounters ih =>
    obtain ⟨-, level, t, ht, hlevel⟩ := ih
    exact ⟨hdb, level, t, hcounters.trans ht, hlevel⟩
  | @reserve s h caller kind n ih =>
    obtain ⟨hdb, level, hlevel⟩ := ih
    have hsound := IdSource.sound_reserve hdb hlevel caller kind n
    obtain ⟨after, hrun, hafter, -, -⟩ := IdSource.reserve_run hlevel caller kind n
    rw [hrun] at hsound ⊢
    exact ⟨hsound, _, hafter⟩

/-- A session in which tokens were canceled is one that operations lead to. -/
theorem Session.Reached.canceling {s : Session} (h : s.Reached)
    (cancels : Nat → List CancelToken) : (s.canceling cancels).Reached :=
  .elsewhere h h.sound.1 rfl

/-! ### Creations -/

/-- Records are inserted with the identifiers that they are given. -/
structure Resource.GivesId (r : Resource) : Prop where
  inserted : ∃ c ∈ r.table.columns.inserted, c.name = "id" ∧ c.type ≠ .time
  given : ∀ (id : String) (item : r.Item) flat, (r.record (r.setId id item)).flatten = .ok flat →
    ∃ leaf, flat.get? "id" = some leaf ∧ leaf.value = .text id

/-- A row that holds a record with an identifier, as it was inserted in a session. -/
def Resource.Carries (r : Resource) (s : Session) (d : TableDef) (item : r.Item) (id : String)
    (row : StoredRow) : Prop :=
  ∃ flat k, (r.record item).flatten = .ok flat ∧
    (∃ leaf, flat.get? "id" = some leaf ∧ leaf.value = .text id) ∧
    r.table.Stores d (s.clockAfter k) flat row ∧
    row.cell (d.spelled "id") = d.stored "id" (.text id)

namespace Session

variable {s : Session} {cancels : Nat → List CancelToken} {caller : Caller} {kind : String} {n : Nat}

/-- The clock moves on by at most one step with a statement. -/
theorem clock_perform (context : String) (caller : Caller) (q : Query) (s : Session) :
    ∃ k ≤ 1, (perform context caller q s).2.clock = s.clockAfter k := by
  rw [perform_run]
  split
  · exact ⟨0, zero_le_one, rfl⟩
  · split
    · exact ⟨0, zero_le_one, rfl⟩
    · dsimp only
      split
      · exact ⟨1, le_rfl, rfl⟩
      · split <;> exact ⟨1, le_rfl, rfl⟩

/-- So it does when identifiers are reserved, wherever their counters are. -/
theorem clock_reserve (src : IdSource) (s : Session) (caller : Caller) (kind : String) (n : Nat) :
    ∃ k ≤ 1, (src.reserve caller kind n s).2.clock = s.clockAfter k := by
  cases src with
  | memory => exact ⟨0, zero_le_one, rfl⟩
  | database =>
    unfold IdSource.reserve Identifiers.reserve
    dsimp only
    rw [Action.bind_run, Action.lift_run]
    cases Identifiers.checkBatch n with
    | error e => exact ⟨0, zero_le_one, rfl⟩
    | ok _ =>
      dsimp only
      rw [Action.bind_run, Action.adapt_run, query_run]
      obtain ⟨k, hle, hk⟩ :=
        clock_perform "failed to fetch row" caller (Identifiers.advance kind n) s
      rcases hperform : perform "failed to fetch row" caller (Identifiers.advance kind n) s with
        ⟨_ | outcome, after⟩
      · rw [hperform] at hk
        exact ⟨k, hle, hk⟩
      · rw [hperform] at hk
        dsimp only [Except.map, Except.mapError]
        rw [Action.bind_run, Action.lift_run]
        cases Identifiers.counterOf kind (outcome.rows.map Row.ofResult) with
        | error e => exact ⟨k, hle, hk⟩
        | ok counter =>
          dsimp only
          rw [Action.lift_run]
          exact ⟨k, hle, hk⟩

/-- Identifiers that are reserved while tokens are canceled are reserved after that. -/
theorem reserve_interrupted {ids : List String}
    (h : (Identifiers.reserve (interrupted cancels) caller kind n s).1 = .ok ids) :
    Identifiers.reserve (interrupted cancels) caller kind n s =
      IdSource.database.reserve caller kind n (s.canceling cancels) := by
  unfold IdSource.reserve
  unfold Identifiers.reserve at h ⊢
  dsimp only
  rw [Action.bind_run, Action.lift_run] at h ⊢
  rw [Action.bind_run, Action.lift_run]
  cases hcheck : Identifiers.checkBatch n with
  | error e =>
    rw [hcheck] at h
    cases h
  | ok _ => rfl

end Session

theorem Access.eq_ok_of_demand {σ α : Type} {c : Checked α} {s after : σ} {a : α}
    (h : (Access.demand c : Action σ α) s = (.ok a, after)) : c = .ok a ∧ s = after := by
  cases c with
  | error e => cases h
  | ok b =>
    cases h
    exact ⟨rfl, rfl⟩

namespace Resource

variable {r : Resource}

theorem length_identify : ∀ {ids : List String} {items : List r.Item},
    (r.identify ids items).length = items.length := by
  intro ids
  induction ids with
  | nil => exact fun {items} => rfl
  | cons id rest ih =>
    intro items
    cases items with
    | nil => rfl
    | cons item more => exact congrArg Nat.succ ih

theorem identify_eq : ∀ {ids : List String} {items : List r.Item}, ids.length = items.length →
    r.identify ids items = (ids.zip items).map fun p => r.setId p.1 p.2 := by
  intro ids
  induction ids with
  | nil =>
    intro items h
    obtain rfl := List.length_eq_zero_iff.1 h.symm
    rfl
  | cons id rest ih =>
    intro items h
    obtain ⟨item, more, rfl⟩ := List.exists_cons_of_length_eq_add_one h.symm
    exact congrArg (r.setId id item :: ·) (ih (Nat.succ.inj h))

theorem map_identify_ne_nil {ids : List String} {items : List r.Item} (h : items ≠ []) :
    (r.identify ids items).map r.record ≠ [] := by
  rw [← List.length_pos_iff, List.length_map, length_identify]
  exact List.length_pos_iff.2 h

theorem GivesId.inserted_ne_nil (hr : r.GivesId) : r.table.columns.inserted ≠ [] := by
  obtain ⟨c, hc, -⟩ := hr.inserted
  exact List.ne_nil_of_mem hc

theorem GivesId.insertsId (hr : r.GivesId) : r.insertsId = true := by
  obtain ⟨c, hc, hid, -⟩ := hr.inserted
  unfold Resource.insertsId
  rw [List.contains_iff_mem]
  exact List.mem_map.2 ⟨c, hc, hid⟩

/-- The column of identifiers is given the identifier. -/
theorem GivesId.exists_cellAt (hr : r.GivesId) {id : String} {item : r.Item} {flat : Flattened}
    (hflat : (r.record (r.setId id item)).flatten = .ok flat) :
    ∃ c ∈ r.table.columns.inserted, c.name = "id" ∧ ∀ now, c.cellAt now flat = .text id := by
  obtain ⟨c, hc, hid, htime⟩ := hr.inserted
  obtain ⟨leaf, hleaf, hvalue⟩ := hr.given id item flat hflat
  refine ⟨c, hc, hid, fun now => ?_⟩
  rw [Column.cellAt, if_neg htime, Column.valueIn, hid, hleaf, Option.map_some, Option.getD_some,
    hvalue]
  rfl

/-- The steps of a creation that succeeds. -/
theorem steps_of_createBy (hr : r.GivesId) {reserve : Action Session (List String)}
    {c : Connection Session} {caller : Caller} {items : List r.Item} {s : Session}
    {ids : List String} {stored : List r.Item}
    (h : (r.createBy reserve c caller items s).1 = .ok (ids, stored)) :
    items ≠ [] ∧ stored = r.identify ids items ∧
    ∃ middle queries n, reserve s = (.ok ids, middle) ∧
      (stored.map r.record).mapM r.table.insertQuery = .ok queries ∧
      c.executeAll caller queries middle = (.ok n, (r.createBy reserve c caller items s).2) := by
  have hrun := Session.transaction_of_ok h
  unfold createBy at h ⊢
  rw [hrun] at h ⊢
  clear hrun
  have hinserts := hr.insertsId
  cases items with
  | nil => cases h
  | cons item more =>
    simp only [List.isEmpty_cons, Bool.false_eq_true, if_false, hinserts, if_true] at h ⊢
    obtain ⟨reserved, middle, hreserve, hrest⟩ := Action.bind_eq_ok h
    rw [hrest] at h ⊢
    obtain ⟨queries, same, hqueries, hrest⟩ := Action.bind_eq_ok h
    rw [hrest] at h ⊢
    obtain ⟨n, after, hexecute, hrest⟩ := Action.bind_eq_ok h
    rw [hrest] at h ⊢
    cases h
    obtain ⟨hall, rfl⟩ := Access.eq_ok_of_demand hqueries
    exact ⟨List.cons_ne_nil _ _, rfl, middle, queries, n, hreserve, hall, hexecute⟩

/-- The steps of a creation that succeeds while tokens are canceled. -/
theorem steps_of_createAmid (hr : r.GivesId) {cancels : Nat → List CancelToken} {caller : Caller}
    {items : List r.Item} {s : Session} {ids : List String} {stored : List r.Item}
    (h : (r.createAmid cancels caller items s).1 = .ok (ids, stored)) :
    items ≠ [] ∧ stored = r.identify ids items ∧
    ∃ middle queries n, IdSource.database.reserve caller r.table.name items.length
        (s.canceling cancels) = (.ok ids, middle) ∧
      (stored.map r.record).mapM r.table.insertQuery = .ok queries ∧
      (Session.interrupted cancels).executeAll caller queries middle =
        (.ok n, (r.createAmid cancels caller items s).2) := by
  obtain ⟨hitems, hstored, middle, queries, n, hreserve, hsteps⟩ := steps_of_createBy hr h
  refine ⟨hitems, hstored, middle, queries, n, ?_, hsteps⟩
  rw [← hreserve]
  exact (Session.reserve_interrupted (congrArg Prod.fst hreserve)).symm

/-- The table of counters has no column `id`. -/
theorem name_ne_of_has (hr : r.GivesId) {db : Database} {level : String → Nat}
    {u : StoredTable} (hu : db.table "id_generator" = .ok u) (hcounts : Identifiers.Counts u level)
    {old : StoredTable} (hold : db.table r.table.name = .ok old)
    (h : Database.has old.definition r.table.columns.insertedNames = .ok ()) :
    r.table.name ≠ "id_generator" := by
  intro hname
  rw [hname] at hold
  obtain rfl : u = old := Except.ok.inj (hu.symm.trans hold)
  obtain ⟨c, hc, hid, -⟩ := hr.inserted
  unfold Database.has at h
  split at h
  · cases h
  · next hnone =>
    refine List.find?_eq_none.1 hnone "id" (List.mem_map.2 ⟨c, hc, hid⟩) ?_
    rw [hcounts.definition]
    decide

/-- A creation that succeeds reserves identifiers and then inserts its records, into another
table than that of the counters. -/
theorem gains_of_createAmid (hr : r.GivesId) (hw : r.table.IsWritable)
    {cancels : Nat → List CancelToken} {caller : Caller} {items : List r.Item} {s : Session}
    (hs : s.Reached) {ids : List String} {stored : List r.Item}
    (h : (r.createAmid cancels caller items s).1 = .ok (ids, stored)) :
    stored = r.identify ids items ∧ r.table.name ≠ "id_generator" ∧
    ∃ middle old new rows,
      IdSource.database.reserve caller r.table.name items.length (s.canceling cancels) =
        (.ok ids, middle) ∧ middle.Reached ∧ middle.database.table r.table.name = .ok old ∧
      r.table.Gains middle (r.createAmid cancels caller items s).2 old new
        (stored.map r.record) rows := by
  obtain ⟨hitems, rfl, middle, queries, n, hreserve, hqueries, hexecute⟩ :=
    steps_of_createAmid hr h
  have hmiddle : middle.Reached := by
    have hreserved := (hs.canceling cancels).reserve caller r.table.name items.length
    rwa [hreserve] at hreserved
  obtain ⟨hsound, level, u, hu, hcounts⟩ := hmiddle.sound
  have hrecords : (r.identify ids items).map r.record ≠ [] := map_identify_ne_nil hitems
  obtain ⟨old, new, rows, hold, hgains⟩ :=
    exists_gains hw hr.inserted_ne_nil hrecords hqueries (hsound.name _) hexecute
  exact ⟨rfl, name_ne_of_has hr hu hcounts hold (hgains.columns hrecords), middle, old, new, rows,
    hreserve, hmiddle, hold, hgains⟩

/-- A creation of an access that succeeds inserts its records with a batch of identifiers,
wherever the counters of these are. -/
theorem gains_of_create (hr : r.GivesId) (hw : r.table.IsWritable) {a : Access r}
    {caller : Caller} {items : List r.Item} {s : Session} {level : String → Nat}
    (hdb : s.database.Sound) (hlevel : a.ids.Counts s level) {ids : List String}
    {stored : List r.Item} (h : (a.create caller items s).1 = .ok (ids, stored)) :
    stored = r.identify ids items ∧ Identifiers.IsBatch items.length ids ∧
    ∃ middle old new rows, (∃ k ≤ 1, middle.clock = s.clockAfter k) ∧
      s.database.table r.table.name = .ok old ∧
      r.table.Gains middle (a.create caller items s).2 old new (stored.map r.record) rows := by
  rw [create_eq_createBy] at h ⊢
  obtain ⟨hitems, rfl, middle, queries, n, hreserve, hqueries, hexecute⟩ := steps_of_createBy hr h
  have hsound := IdSource.sound_reserve hdb hlevel caller r.table.name items.length
  have hclock := Session.clock_reserve a.ids s caller r.table.name items.length
  rw [hreserve] at hsound hclock
  have hrecords : (r.identify ids items).map r.record ≠ [] := map_identify_ne_nil hitems
  -- Nobody cancels between the statements.
  have hexecute : (Session.interrupted fun _ => []).executeAll caller queries middle =
      (.ok n, _) := hexecute
  obtain ⟨old, new, rows, hold, hgains⟩ :=
    exists_gains hw hr.inserted_ne_nil hrecords hqueries (hsound.name _) hexecute
  obtain ⟨after, hrun, hafter, -, hothers⟩ :=
    IdSource.reserve_run hlevel caller r.table.name items.length
  obtain ⟨htally, rfl⟩ := Prod.mk.inj (hreserve.symm.trans hrun)
  obtain ⟨-, hpos, hgreatest, hids⟩ := IdSource.tally_eq_ok htally.symm
  refine ⟨rfl, ?_, middle, old, new, rows, hclock, ?_, hgains⟩
  · rw [hids]
    exact Identifiers.isBatch_texts (by omega) (by omega)
  · -- The table of the records is not the one that identifiers are reserved in.
    cases hsource : a.ids with
    | memory =>
      rw [hsource] at hreserve
      obtain ⟨-, hmiddle⟩ := Prod.mk.inj hreserve
      rw [← hold, ← hmiddle]
    | database =>
      rw [hsource] at hafter
      obtain ⟨u, hu, hcounts⟩ := hafter
      rw [← hold]
      exact (hothers _ (name_ne_of_has hr hu hcounts hold (hgains.columns hrecords))).symm

end Resource

/-- **A creation leads to a session that operations lead to.** -/
theorem Session.Reached.createAmid {s : Session} (hs : s.Reached) {r : Resource} (hr : r.GivesId)
    (hw : r.table.IsWritable) (cancels : Nat → List CancelToken) (caller : Caller)
    (items : List r.Item) : (r.createAmid cancels caller items s).2.Reached := by
  cases h : (r.createAmid cancels caller items s).1 with
  | error e =>
    have hdatabase : (r.createAmid cancels caller items s).2.database = s.database :=
      Session.transaction_error h
    exact .elsewhere hs (hdatabase ▸ hs.sound.1) (by rw [hdatabase])
  | ok p =>
    obtain ⟨-, hname, middle, old, new, rows, -, hmiddle, hold, hgains⟩ :=
      Resource.gains_of_createAmid hr hw hs h
    exact .elsewhere hmiddle (hgains.sound hmiddle.sound.1 hold)
      (hgains.others _ (Ne.symm hname))

theorem sound_empty : Database.empty.Sound := by
  have hnone {name : String} {t : StoredTable} : Database.empty.table name ≠ .ok t := nofun
  exact ⟨⟨fun _ _ h => absurd h hnone, fun _ _ h => absurd h hnone⟩, fun _ _ h => absurd h hnone⟩

end ResourceTable
