import ResourceTable.Proofs.PageRows
import ResourceTable.Proofs.RecordReading

/-!
# Rows by their columns

The database gives rows under titles, and records are read from rows by columns.  If the
titles of a table are pairwise distinct, the row that a record is read from has exactly the
values of the columns that are shown, in whatever order and however often they are named.

## Main definitions

* `Row.only`: a row with some columns only.
* `Resource.storedRow`: what is stored of a record, by columns.

## Main results

* `Fields.fetch_congr` — a record depends on its own columns only.
* `Resource.physical_shownRow` — **a row that is shown is a stored row with the columns that
  are named.**
-/

namespace ResourceTable

open Sql

/-! ### Rows with some columns only -/

/-- A row with some columns only. -/
def Row.only (row : Row) (fields : List String) : Row :=
  ⟨row.entries.filter fun entry => fields.contains entry.1, row.sorted.filter _⟩

section Only

variable {row other : Row} {fields : List String} {name column : String}

theorem Row.get?_only (row : Row) (fields : List String) (name : String) :
    (row.only fields).get? name = if name ∈ fields then row.get? name else none := by
  show NameMap.lookup name (row.entries.filter fun entry => fields.contains entry.1) =
    if name ∈ fields then NameMap.lookup name row.entries else none
  induction row.entries with
  | nil => rw [List.filter_nil, NameMap.lookup, ite_self]
  | cons entry rest ih =>
    obtain ⟨key, value⟩ := entry
    by_cases hkey : key = name
    · subst hkey
      by_cases hmem : key ∈ fields
      · rw [List.filter_cons, if_pos (List.contains_iff_mem.2 hmem), if_pos hmem,
          NameMap.lookup, NameMap.lookup, if_pos rfl, if_pos rfl]
      · rw [List.filter_cons, if_neg (mt List.contains_iff_mem.1 hmem), ih, if_neg hmem,
          if_neg hmem]
    · rw [NameMap.lookup, if_neg hkey, ← ih, List.filter_cons]
      split
      · rw [NameMap.lookup, if_neg hkey]
      · rfl

theorem Row.hasValue_only (row : Row) (fields : List String) (name : String) :
    (row.only fields).hasValue name = (fields.contains name && row.hasValue name) := by
  rw [hasValue, get?_only, hasValue]
  by_cases hmem : name ∈ fields
  · rw [if_pos hmem, List.contains_iff_mem.2 hmem, Bool.true_and]
  · rw [if_neg hmem, Bool.eq_false_iff.2 (mt List.contains_iff_mem.1 hmem), Bool.false_and]
    rfl

/-! ### What a record depends on -/

theorem Row.fetchWith_congr {α : Type} (h : row.get? column = other.get? column)
    (expected : String) (blank : α) (convert : Value → Option α) :
    row.fetchWith column expected blank convert = other.fetchWith column expected blank convert := by
  unfold fetchWith
  rw [h]

theorem Row.fetchJson_congr (h : row.get? column = other.get? column) :
    row.fetchJson column = other.fetchJson column := by
  unfold fetchJson
  rw [h]

/-- A field depends on its own column only. -/
theorem ScalarType.fetch_congr (s : ScalarType) (h : row.get? column = other.get? column) :
    s.fetch row column = s.fetch other column := by
  cases s with
  | timestamp =>
    show row.fetchTimestamp column = other.fetchTimestamp column
    unfold Row.fetchTimestamp
    rw [h, Row.fetchWith_congr h]
  | json => exact Row.fetchJson_congr h
  | document t =>
    show row.fetchDocument column t = other.fetchDocument column t
    unfold Row.fetchDocument
    rw [Row.fetchJson_congr h]
  | _ => exact Row.fetchWith_congr h _ _ _

/-- A column that is not there gives the content of a field that was never set. -/
theorem ScalarType.fetch_of_none (s : ScalarType) (h : row.get? column = none) :
    s.fetch row column = .ok s.blank := by
  have hempty : row.get? column = (NameMap.empty : Row).get? column := h
  rw [s.fetch_congr hempty]
  cases s <;> rfl

theorem present_congr {columns : List String}
    (h : ∀ c ∈ columns, row.get? c = other.get? c) :
    columns.any row.hasValue = columns.any other.hasValue := by
  rw [Bool.eq_iff_iff, List.any_eq_true, List.any_eq_true]
  refine exists_congr fun c => and_congr_right fun hc => ?_
  rw [Row.hasValue, Row.hasValue, h c hc]

mutual

theorem FieldType.fetch_congr (column : String) : ∀ t : FieldType,
    (∀ c ∈ t.columns column, row.get? c = other.get? c) → t.fetch row column = t.fetch other column
  | .scalar s, h => s.fetch_congr (h column (List.mem_singleton_self column))
  | .optional t, h => by
    have hcolumns : ∀ c ∈ t.columns column, row.get? c = other.get? c := h
    rw [FieldType.fetch, FieldType.fetch, t.present_eq_any, t.present_eq_any,
      present_congr hcolumns, t.fetch_congr column hcolumns]
  | .record _ fields, h => fields.fetch_congr h

/-- **A record depends on its own columns only.** -/
theorem Fields.fetch_congr : ∀ fields : Fields,
    (∀ c ∈ fields.columns, row.get? c = other.get? c) → fields.fetch row = fields.fetch other
  | .nil, _ => rfl
  | .cons name column t rest, h => by
    rw [Fields.fetch, Fields.fetch,
      t.fetch_congr (column.getD name) fun c hc => h c (List.mem_append_left _ hc),
      rest.fetch_congr fun c hc => h c (List.mem_append_right _ hc)]

end

end Only

/-! ### Rows under titles -/

/-- A map of names with what a function gives for them, each of them once or more often. -/
theorem NameMap.get?_ofList_map {α : Type} (f : String → α) (names : List String) (name : String) :
    (NameMap.ofList (names.map fun n => (n, f n))).get? name =
      if name ∈ names then some (f name) else none := by
  have hfold : ∀ (names : List String) (m : NameMap α),
      ((names.map fun n => (n, f n)).foldl (fun m entry => m.insert entry.1 entry.2) m).get? name =
        if name ∈ names then some (f name) else m.get? name := by
    intro names
    induction names with
    | nil => exact fun m => (if_neg List.not_mem_nil).symm
    | cons first rest ih =>
      intro m
      rw [List.map_cons, List.foldl_cons, ih, get?_insert]
      by_cases hrest : name ∈ rest
      · rw [if_pos hrest, if_pos (List.mem_cons_of_mem _ hrest)]
      · by_cases hfirst : first = name
        · rw [if_neg hrest, if_pos hfirst, hfirst, if_pos List.mem_cons_self]
        · rw [if_neg hrest, if_neg hfirst, if_neg]
          exact fun hmem => (List.mem_cons.1 hmem).elim (fun he => hfirst he.symm) hrest
  exact hfold names .empty

/-- A title stands for its column, if titles are pairwise distinct. -/
theorem Registry.nameOfTitle?_title {columns : Registry}
    (htitles : (columns.columns.map Column.title).Nodup) {c : Column} (hc : c ∈ columns.columns) :
    columns.nameOfTitle? c.title = some c.name := by
  unfold nameOfTitle?
  obtain ⟨other, hother⟩ := Option.isSome_iff_exists.1
    (List.find?_isSome.2 ⟨c, hc, beq_iff_eq.2 rfl⟩ :
      (columns.columns.find? fun other => other.title == c.title).isSome = true)
  rw [hother]
  have htitle := List.find?_some (p := fun other : Column => other.title == c.title) hother
  have hsame : other = c := List.inj_on_of_nodup_map htitles (List.mem_of_find?_eq_some hother) hc
    (beq_iff_eq.1 htitle)
  rw [hsame]
  rfl

/-! ### Tables that have the columns of a registry -/

/-- The database has the columns of a registry, under the names that the registry gives
them. -/
def Registry.IsDeclaredBy (r : Registry) (d : TableDef) : Prop :=
  ∀ c ∈ r.columns, (d.column? c.name).map ColumnDef.name = some c.name

namespace Registry

variable {r : Registry} {d : TableDef} {c k : Column}

theorem IsDeclaredBy.resolves (h : r.IsDeclaredBy d) (hc : c ∈ r.columns) :
    (d.resolve c.name).isSome = true := by
  obtain ⟨column, hcolumn, -⟩ := Option.map_eq_some_iff.1 (h c hc)
  rw [TableDef.resolve, hcolumn]
  dsimp only
  split <;> rfl

/-- Columns whose names the database takes for the same are the same. -/
theorem IsDeclaredBy.name_eq (h : r.IsDeclaredBy d) (hc : c ∈ r.columns) (hk : k ∈ r.columns)
    (hsame : sameName c.name k.name = true) : c.name = k.name := by
  have hcolumn : d.column? c.name = d.column? k.name := by
    have hupper : Keyword.upper c.name = Keyword.upper k.name := beq_iff_eq.1 hsame
    unfold TableDef.column? sameName
    rw [hupper]
  have hname := h c hc
  rw [hcolumn, h k hk] at hname
  exact (Option.some.inj hname).symm

end Registry

namespace Resource

variable {r : Resource} {d : TableDef} {row : StoredRow}

/-- What is stored of a record: the value of every column, by the name of the column. -/
def storedRow (r : Resource) (d : TableDef) (row : StoredRow) : Row :=
  .ofList (r.table.columns.columns.map fun c => (c.name, Value.ofCell (d.valueOf row c.name)))

theorem get?_storedRow (r : Resource) (d : TableDef) (row : StoredRow) (name : String) :
    (r.storedRow d row).get? name =
      if name ∈ r.table.columns.names then some (Value.ofCell (d.valueOf row name)) else none := by
  have hentries : (r.table.columns.columns.map fun c =>
      (c.name, Value.ofCell (d.valueOf row c.name))) =
      r.table.columns.names.map fun n => (n, Value.ofCell (d.valueOf row n)) := by
    rw [Registry.names, List.map_map]
    rfl
  rw [storedRow, hentries]
  exact NameMap.get?_ofList_map (fun n => Value.ofCell (d.valueOf row n)) _ name

/-- What is found by columns in a row that is shown under titles. -/
theorem get?_physical_shownRow (htitles : (r.table.columns.columns.map Column.title).Nodup)
    {cs : List Column} (hcs : ∀ c ∈ cs, c ∈ r.table.columns.columns) (name : String) :
    (r.physical (Row.ofResult (d.shownRow cs row))).get? name =
      if name ∈ cs.map Column.name then some (Value.ofCell (d.valueOf row name)) else none := by
  -- The column that a title stands for, and what there is under it.
  let nameOf (title : String) : String := (r.table.columns.nameOfTitle? title).getD title
  have hname : ∀ c ∈ cs, nameOf c.title = c.name := fun c hc => by
    show (r.table.columns.nameOfTitle? c.title).getD c.title = c.name
    rw [Registry.nameOfTitle?_title htitles (hcs c hc)]
    rfl
  let given (title : String) : Value := Value.ofCell (d.valueOf row (nameOf title))
  have hshown : Row.ofResult (d.shownRow cs row) =
      .ofList ((cs.map Column.title).map fun title => (title, given title)) := by
    rw [Row.ofResult, TableDef.shownRow, List.map_map, List.map_map]
    refine congrArg NameMap.ofList (List.map_congr_left fun c hc => ?_)
    show (c.title, Value.ofCell (d.valueOf row c.name)) =
      (c.title, Value.ofCell (d.valueOf row (nameOf c.title)))
    rw [hname c hc]
  have hget := NameMap.get?_ofList_map given (cs.map Column.title)
  rw [← hshown] at hget
  have hmem (entry : String × Value) : entry ∈ (Row.ofResult (d.shownRow cs row)).entries ↔
      entry.1 ∈ cs.map Column.title ∧ entry.2 = given entry.1 := by
    obtain ⟨title, value⟩ := entry
    rw [← NameMap.get?_eq_some_iff, hget]
    split
    · next htitle => simp only [Option.some.injEq, htitle, true_and, eq_comm]
    · next htitle => simp only [reduceCtorEq, htitle, false_and]
  have hentries : ((Row.ofResult (d.shownRow cs row)).entries.map fun entry =>
      ((r.table.columns.nameOfTitle? entry.1).getD entry.1, entry.2)) =
      ((Row.ofResult (d.shownRow cs row)).entries.map fun entry => nameOf entry.1).map
        fun n => (n, Value.ofCell (d.valueOf row n)) := by
    rw [List.map_map]
    exact List.map_congr_left fun entry hentry =>
      congrArg (Prod.mk (nameOf entry.1)) ((hmem entry).1 hentry).2
  rw [physical, hentries, NameMap.get?_ofList_map fun n => Value.ofCell (d.valueOf row n)]
  refine if_congr ?_ rfl rfl
  constructor
  · intro h
    obtain ⟨entry, hentry, rfl⟩ := List.mem_map.1 h
    obtain ⟨c, hc, htitle⟩ := List.mem_map.1 ((hmem entry).1 hentry).1
    rw [← htitle, hname c hc]
    exact List.mem_map_of_mem hc
  · intro h
    obtain ⟨c, hc, rfl⟩ := List.mem_map.1 h
    exact List.mem_map.2 ⟨(c.title, given c.title),
      (hmem _).2 ⟨List.mem_map_of_mem hc, rfl⟩, hname c hc⟩

/-- **A row that is shown is a stored row with the columns that are named**, in whatever order
and however often they are named. -/
theorem physical_shownRow (htitles : (r.table.columns.columns.map Column.title).Nodup)
    {fields : List String} (hfields : fields ≠ []) :
    r.physical (Row.ofResult (d.shownRow (r.table.columns.shown fields) row)) =
      (r.storedRow d row).only fields := by
  have hempty : ¬ fields.isEmpty = true := mt List.isEmpty_iff.1 hfields
  refine NameMap.ext_get? fun name => ?_
  rw [get?_physical_shownRow htitles fun c => Registry.mem_columns_of_shown,
    Row.get?_only, get?_storedRow, Registry.names_shown, if_neg hempty, ← ite_and]
  refine if_congr ?_ rfl rfl
  rw [List.mem_filter, Registry.contains_iff]

/-- If none is named, it is the stored row. -/
theorem physical_shownRow_nil (htitles : (r.table.columns.columns.map Column.title).Nodup) :
    r.physical (Row.ofResult (d.shownRow (r.table.columns.shown []) row)) = r.storedRow d row := by
  refine NameMap.ext_get? fun name => ?_
  rw [get?_physical_shownRow htitles fun c => Registry.mem_columns_of_shown, get?_storedRow]
  rfl

end Resource

end ResourceTable
