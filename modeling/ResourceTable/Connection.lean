import ResourceTable.Binding
import ResourceTable.Cancellation

/-!
# Connections

A connection executes queries for callers.  What it acts on is a state of its own,
which also keeps what was done before a failure.

## Main definitions

* `Action σ α`: changes a state `σ` and gives an `α` or fails.
* `Connection σ`.
-/

namespace ResourceTable

/-- Something that changes a state and gives a result or fails; the state is changed
in either case. -/
abbrev Action (σ : Type) (α : Type) := ExceptT Failure (StateM σ) α

/-- What executes queries. -/
structure Connection (σ : Type) where
  /-- Executes a query and gives its rows. -/
  query : Caller → Query → Action σ (List Row)
  /-- Executes a query and gives the number of rows that it changed. -/
  execute : Caller → Query → Action σ Nat

end ResourceTable
