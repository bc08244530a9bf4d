import ResourceTable.NameMap

/-!
# Columns and registries

A table's registry lists its columns in order.  A column has a physical name, a
title under which rows show it, and a logical type that filter values are checked
against.  From the registry come the projections of a `SELECT` and the column list
and sources of an `INSERT`.

## Main definitions

* `ColumnType`, `Column`.
* `Column.qualify`: columns of a nested record, with their titles under its name.
* `Registry`: the columns of a table, each physical name once.
* `Registry.ofLists`: the registry of several lists, in which a later column of
  the same name replaces the earlier one where it stands.

## Main results

* `names_place`: placing a column keeps the names, or adds its own at the end.
-/

namespace ResourceTable

/-- The logical type of a column. -/
inductive ColumnType
  /-- Text. -/
  | string
  /-- Integers and fractional numbers. -/
  | numeric
  /-- Truth values. -/
  | boolean
  /-- Timestamps, stored as UTC text. -/
  | time
  /-- JSON documents. -/
  | json
  deriving DecidableEq, Repr, Inhabited

namespace ColumnType

/-- The name of the type. -/
def name : ColumnType → String
  | string => "string"
  | numeric => "numeric"
  | boolean => "boolean"
  | time => "time"
  | json => "json"

/-- Every type. -/
def all : List ColumnType := [string, numeric, boolean, time, json]

/-- The type of a name. -/
def ofName? (name : String) : Option ColumnType := all.find? (·.name == name)

@[simp] theorem ofName?_name (t : ColumnType) : ofName? t.name = some t := by
  cases t <;> decide

end ColumnType

/-- A storable column. -/
structure Column where
  /-- The physical name. -/
  name : String
  /-- The name under which rows show the column. -/
  title : String
  /-- The logical type. -/
  type : ColumnType
  deriving DecidableEq, Repr, Inhabited

/-- The types of named fields. -/
abbrev Schema := NameMap ColumnType

namespace Column

/-- A column shown under its own name. -/
def plain (name : String) (type : ColumnType) : Column := ⟨name, name, type⟩

/-- The columns of several lists, with titles under `group` unless that is
empty. -/
def qualify (group : String) (lists : List (List Column)) : List Column :=
  lists.flatten.map fun c =>
    if group.isEmpty then c else { c with title := group ++ "." ++ c.title }

/-- The column as a projection names it. -/
def projected (c : Column) : String :=
  if c.title = c.name then c.name else c.name ++ " AS \"" ++ c.title ++ "\""

/-- What an `INSERT` stores in the column: a clock reading in a time column, else
the value bound to the column's name. -/
def source (c : Column) : String :=
  if c.type = .time then "now()" else ":" ++ c.name

/-- Puts a column where a column of its name stands, or at the end. -/
def place (c : Column) : List Column → List Column
  | [] => [c]
  | d :: rest => if d.name = c.name then c :: rest else d :: place c rest

theorem names_place (c : Column) (l : List Column) :
    (c.place l).map name =
      if c.name ∈ l.map name then l.map name else l.map name ++ [c.name] := by
  induction l with
  | nil => rfl
  | cons d rest ih =>
    by_cases h : d.name = c.name
    · simp [place, h]
    · have h' : ¬ c.name = d.name := fun e => h e.symm
      simp only [place, h, if_false, List.map_cons, ih, List.mem_cons, h', false_or]
      split <;> rfl

theorem nodup_names_place (c : Column) {l : List Column} (h : (l.map name).Nodup) :
    ((c.place l).map name).Nodup := by
  rw [names_place]
  split
  · exact h
  · rename_i hnot
    refine List.nodup_append.2 ⟨h, by simp, fun x hx y hy => ?_⟩
    rintro rfl
    exact hnot (List.mem_singleton.1 hy ▸ hx)

end Column

/-- The columns of a table. -/
structure Registry where
  /-- The columns in order. -/
  columns : List Column
  /-- Whether the database assigns the primary key, so that an `INSERT` leaves
  `id` out. -/
  assignsId : Bool
  /-- Every physical name occurs once. -/
  nodup : (columns.map Column.name).Nodup
  deriving DecidableEq

namespace Registry

/-- The registry of the columns of several lists. -/
def ofColumns (assignsId : Bool) (cs : List Column) : Registry :=
  cs.foldl (fun r c => ⟨c.place r.columns, r.assignsId, c.nodup_names_place r.nodup⟩)
    ⟨[], assignsId, .nil⟩

/-- The registry of the columns of several lists. -/
def ofLists (assignsId : Bool) (lists : List (List Column)) : Registry :=
  ofColumns assignsId lists.flatten

/-- The physical names in order. -/
def names (r : Registry) : List String := r.columns.map Column.name

/-- The column of a physical name. -/
def column? (r : Registry) (name : String) : Option Column :=
  r.columns.find? (·.name == name)

/-- Whether the name is that of a column. -/
def contains (r : Registry) (name : String) : Bool := (r.column? name).isSome

/-- The types of the columns. -/
def types (r : Registry) : Schema := .ofList (r.columns.map fun c => (c.name, c.type))

/-- The types of the columns, some of them left out. -/
def typesWithout (r : Registry) (names : List String) : Schema :=
  names.foldl NameMap.erase r.types

/-! ### Inserting -/

/-- The columns that an `INSERT` writes, in order. -/
def inserted (r : Registry) : List Column :=
  r.columns.filter fun c => !(r.assignsId && c.name == "id")

/-- The physical names that an `INSERT` writes, in order. -/
def insertedNames (r : Registry) : List String := r.inserted.map Column.name

/-- The column list of an `INSERT`: `id, name, memo`. -/
def insertList (r : Registry) : String := String.intercalate ", " r.insertedNames

/-- The sources of an `INSERT`: `:id, :name, now()`. -/
def insertSources (r : Registry) : String :=
  String.intercalate ", " (r.inserted.map Column.source)

/-! ### Selecting -/

/-- The projection of every column: `id, name AS "spec.name"`. -/
def projection (r : Registry) : String :=
  String.intercalate ", " (r.columns.map Column.projected)

/-- The projection of the named columns, names of no column left out; no names at
all stand for every column. -/
def projectionOf (r : Registry) (fields : List String) : String :=
  if fields.isEmpty then r.projection
  else String.intercalate ", " ((fields.filterMap r.column?).map Column.projected)

/-- The projection of every column but the named ones. -/
def projectionWithout (r : Registry) (names : List String) : String :=
  String.intercalate ", "
    ((r.columns.filter fun c => !names.contains c.name).map Column.projected)

/-- The physical name of the first column shown under a title. -/
def nameOfTitle? (r : Registry) (title : String) : Option String :=
  (r.columns.find? (·.title == title)).map Column.name

end Registry

end ResourceTable
