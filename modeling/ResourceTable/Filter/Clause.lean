import ResourceTable.Filter.Condition

/-!
# `WHERE` clauses

A valid filter compiles to the text of a `WHERE` clause and what is bound to its
placeholders.  A table can crown every filter with rules of its own: the crown
rules hold together, and are joined to the caller's filter by a connective.

## Main definitions

* `CompileOptions`: priority fields, reserved names and the crown.
* `ValidFilter.crowned`: the filter with its crown.
* `Clause`, `ValidFilter.compile`.
* `Clause.avoiding`: the clause with other names for its placeholders.
-/

namespace ResourceTable

/-- How filters are compiled. -/
structure CompileOptions where
  /-- Fields whose rules come first in every group, in this order. -/
  priority : List String := []
  /-- Names that the surrounding statement uses. -/
  reserved : List String := []
  /-- Rules that are joined to every filter, and how. -/
  crown : Option (Connective × List Filter) := none
  deriving DecidableEq

/-- A compiled filter. -/
structure Clause where
  /-- `WHERE` and the condition. -/
  sql : String
  /-- What is bound to the placeholders. -/
  params : Params
  /-- Whether the condition holds of every row by its shape. -/
  matchesAll : Bool
  deriving DecidableEq

namespace ValidFilter

variable {rules : FilterRules}

/-- The filter with its crown: the crown alone if the filter has no rules, and the
filter alone if the crown has none.  Crown rules pass the same check. -/
def crowned (v : ValidFilter rules) (options : CompileOptions) : Checked Filter :=
  match options.crown with
  | some (op, c :: cs) => do
    Filter.checkAll rules (c :: cs)
    let crown := Filter.group .and (c :: cs)
    return if v.filter.isEmpty then crown else .group op [v.filter, crown]
  | _ => .ok v.filter

/-- The `WHERE` clause of a filter. -/
def compile (v : ValidFilter rules) (options : CompileOptions) : Checked Clause := do
  let filter ← v.crowned options
  let (condition, naming) ←
    (filter.prioritize options.priority).lower rules.fields (.start options.reserved)
  return ⟨"WHERE " ++ condition.text, naming.params, filter.matchesAll⟩

end ValidFilter

namespace Clause

/-- Other names for those that are taken, in order, each different from every name
in use. -/
def renames (taken : List String) : List String → List String → List (String × String)
  | _, [] => []
  | used, name :: rest =>
    if taken.contains name then
      let fresh := freshName name used
      (name, fresh) :: renames taken (fresh :: used) rest
    else renames taken used rest

/-- The clause with other names for the placeholders whose names are taken. -/
def avoiding (c : Clause) (taken : List String) : Clause :=
  let changes := renames taken (taken ++ c.params.keys) c.params.keys
  if changes.isEmpty then c
  else
    { c with
      sql := Placeholder.substitute (fun name => (changes.lookup name).map (":" ++ ·)) c.sql
      params := .ofList
        (c.params.entries.map fun entry => ((changes.lookup entry.1).getD entry.1, entry.2)) }

end Clause

end ResourceTable
