import ResourceTable.NameMap
import ResourceTable.Placeholder
import ResourceTable.Value

/-!
# Queries

A query is SQL text with named placeholders and what is bound to each name: a
single value, or a list that stands for as many values as it has.

## Main definitions

* `Param`, `Params`, `Query`.
* `freshName`: a name that is not in use.
-/

namespace ResourceTable

/-- What is bound to a placeholder. -/
inductive Param
  /-- A single value. -/
  | single (v : Value)
  /-- A list of values, one after the other. -/
  | list (vs : List Value)
  deriving DecidableEq, Inhabited

namespace Param

/-- The values in order. -/
def values : Param → List Value
  | single v => [v]
  | list vs => vs

end Param

/-- What is bound to the placeholders, by name. -/
abbrev Params := NameMap Param

/-- A statement with named placeholders. -/
structure Query where
  /-- The text. -/
  sql : String
  /-- What is bound to its placeholders. -/
  params : Params := .empty
  deriving DecidableEq

namespace Query

/-- The query with one more value bound. -/
def bind (q : Query) (name : String) (v : Value) : Query :=
  { q with params := q.params.insert name (.single v) }

/-- The names of the placeholders in order. -/
def placeholders (q : Query) : List String := Placeholder.names q.sql

end Query

/-! ### Fresh names -/

/-- A name with a number. -/
def numberedName (base : String) (n : Nat) : String := base ++ "_" ++ toString n

/-- The name itself if it is not in use, else the name with the least number from 2
on that makes it unused.  Among one more candidates than names in use, one is
unused. -/
def freshName (base : String) (used : List String) : String :=
  if used.contains base then
    match (List.range' 2 (used.length + 1)).find? fun n => !used.contains (numberedName base n) with
    | some n => numberedName base n
    | none => base
  else base

end ResourceTable
