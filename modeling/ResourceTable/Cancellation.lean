import ResourceTable.Failure

/-!
# Callers and cancellation

An operation is done for a caller, who can cancel it through a token.  A token can
have children: canceling a token cancels its children, and theirs, but not the
other way round.

## Main definitions

* `CancelToken`, `Signals`: tokens, and which of them were canceled.
* `Signals.fresh`, `Signals.child`, `Signals.cancel`, `Signals.isCanceled`.
* `Caller`, `Signals.check`.
-/

namespace ResourceTable

/-- A cancellation token. -/
structure CancelToken where
  /-- The number of the token. -/
  number : Nat
  /-- The numbers of the tokens that it descends from. -/
  ancestors : List Nat
  deriving DecidableEq, Repr, Inhabited

/-- The tokens given out and the tokens canceled. -/
structure Signals where
  /-- The number of tokens given out. -/
  count : Nat := 0
  /-- The numbers of the canceled tokens. -/
  canceled : List Nat := []
  deriving DecidableEq, Repr, Inhabited

namespace Signals

/-- A token of its own. -/
def fresh (s : Signals) : CancelToken × Signals := (⟨s.count, []⟩, { s with count := s.count + 1 })

/-- A child of a token. -/
def child (s : Signals) (parent : CancelToken) : CancelToken × Signals :=
  (⟨s.count, parent.number :: parent.ancestors⟩, { s with count := s.count + 1 })

/-- Cancels a token. -/
def cancel (s : Signals) (t : CancelToken) : Signals :=
  { s with canceled := t.number :: s.canceled }

/-- Whether a token, or one that it descends from, was canceled. -/
def isCanceled (s : Signals) (t : CancelToken) : Bool :=
  (t.number :: t.ancestors).any s.canceled.contains

end Signals

/-- Who an operation is done for. -/
structure Caller where
  /-- The identifier of the request. -/
  request : String := ""
  /-- The token that cancels it. -/
  token : CancelToken
  deriving DecidableEq, Repr, Inhabited

namespace Signals

/-- The caller did not cancel. -/
def check (s : Signals) (c : Caller) : Except Failure Unit :=
  if s.isCanceled c.token then .error .canceled else .ok ()

end Signals

end ResourceTable
