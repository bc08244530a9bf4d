import ResourceTable.Error

/-!
# Failed operations

An operation on stored data fails because of the request, because identifiers have
run out, because of the storage, or because it was canceled.  Each way has a stable
code and a message.

## Main definitions

* `Failure`, with `Failure.code` and `Failure.message`.
* `Report`, `Report.failure`: what a cause becomes after it passed through several
  operations, each of which said what it was about.
-/

namespace ResourceTable

/-- Why an operation failed. -/
inductive Failure
  /-- The request is wrong. -/
  | request (e : RequestError)
  /-- Identifiers of a kind cannot be allocated. -/
  | exhausted (kind reason : String)
  /-- The storage failed. -/
  | storage (text : String)
  /-- The caller canceled the operation. -/
  | canceled
  deriving DecidableEq

namespace Failure

/-- The stable code. -/
def code : Failure → String
  | request e => e.code
  | exhausted _ _ => "allocation_exhausted"
  | storage _ => "storage_error"
  | canceled => "canceled"

/-- The message. -/
def message : Failure → String
  | request e => e.message
  | exhausted kind reason => "allocation exhausted for " ++ kind ++ ": " ++ reason
  | storage text => "storage error: " ++ text
  | canceled => "operation canceled"

/-- What callers are told. -/
def toJson (f : Failure) : Json :=
  .object [("error", .string f.code), ("message", .string f.message)]

end Failure

/-- The cause of a failure. -/
inductive Cause
  /-- A failure. -/
  | failure (f : Failure)
  /-- A wrong request. -/
  | request (e : RequestError)
  /-- Something else, in words. -/
  | text (s : String)
  deriving DecidableEq

/-- A cause and what the operations that it passed through were about, innermost
first. -/
structure Report where
  /-- The cause. -/
  cause : Cause
  /-- What the operations were about. -/
  contexts : List String := []
  deriving DecidableEq

namespace Report

/-- The report after one more operation. -/
def during (r : Report) (context : String) : Report :=
  { r with contexts := r.contexts ++ [context] }

/-- The failure that is reported: one that has a kind keeps it, and anything else is
a failure of the storage, with all contexts in its text. -/
def failure (r : Report) : Failure :=
  match r.cause with
  | .failure f => f
  | .request e => .request e
  | .text s => .storage (String.intercalate ": " (r.contexts.reverse ++ [s]))

end Report

end ResourceTable
