import ResourceTable.Sql.Evaluation

/-!
# Looking up names

The names in a statement are looked up before it is executed.  A column that is not
there ends this, but among the arguments of a function it only ends the arguments: what
comes after the function may be wrong as well, and of several faults the last one
counts.  Comparisons, lists and connectives are not looked into after a fault.

Numbers without a value are found only after all names.

## Main definitions

* `Lookup`: how far the looking up has come.
* `Term.lookUp`, `Test.lookUp`.
* `Term.oversized?`, `Test.oversized?`.
-/

namespace ResourceTable.Sql

/-- How far the looking up of names has come. -/
structure Lookup where
  /-- The last fault found. -/
  fault : Option Fault := none
  /-- Whether it goes on. -/
  goesOn : Bool := true
  deriving DecidableEq, Repr

namespace Lookup

/-- A fault that ends the looking up. -/
def stopped (f : Fault) : Lookup := ⟨some f, false⟩

/-- Goes on only if there is no fault. -/
def checked (l : Lookup) : Lookup := { l with goesOn := l.fault.isNone }

/-- Goes on with another part, if it goes on. -/
def andThen (l : Lookup) (part : Lookup → Lookup) : Lookup := if l.goesOn then part l else l

/-- Goes on after some parts even if one of them ended the looking up. -/
def within (l : Lookup) (parts : Lookup → Lookup) : Lookup := { parts l with goesOn := true }

/-- The column of a name, which stands at an offset. -/
def column (name : String) (offset : Nat) (slot : Option Slot) (l : Lookup) : Lookup :=
  if slot.isSome then l else stopped (.noSuchColumn name (some offset))

/-- There is no fault. -/
def result (l : Lookup) : Except Fault Unit :=
  match l.fault with
  | some f => .error f
  | none => .ok ()

end Lookup

namespace Term

/-- Looks up the names in a term. -/
def lookUp (s : Scope) : Term → Lookup → Lookup
  | .literal _, l | .oversized _ _, l | .fixed _ _, l => l.checked
  | .column name offset, l => l.column name offset (s.column? name)
  | .member row name offset, l => l.column (row ++ "." ++ name) offset (s.member? row name)
  | .clock _, l => l
  | .misused function offset, _ => ⟨some (.wrongArguments function offset), true⟩
  | .lower a, l => l.within (a.lookUp s)
  | .negated a, l => l.checked.andThen (a.lookUp s)
  | .plus a b, l | .minus a b, l => (l.checked.andThen (a.lookUp s)).andThen (b.lookUp s)
  | .part a b, l | .partKind a b, l | .partLength a b, l =>
    l.within fun l => (a.lookUp s l).andThen (b.lookUp s)

/-- The names in the term are there. -/
def checkNames (s : Scope) (t : Term) : Except Fault Unit := (t.lookUp s {}).result

/-- The first number of the term that has no value. -/
def oversized? : Term → Option Fault
  | .oversized written offset => some (.hexTooBig written offset)
  | .lower a | .negated a => a.oversized?
  | .plus a b | .minus a b | .part a b | .partKind a b | .partLength a b =>
    a.oversized?.or b.oversized?
  | _ => none

end Term

namespace Test

/-- Looks up the names in a test. -/
def lookUp (s : Scope) : Test → Lookup → Lookup
  | .compare _ a b, l => (l.checked.andThen (a.lookUp s)).andThen (b.lookUp s)
  | .among _ a items, l =>
    items.foldl (fun l item => l.andThen (item.lookUp s)) (l.checked.andThen (a.lookUp s))
  | .fits _ a pattern, l => l.within fun l => (pattern.lookUp s l).andThen (a.lookUp s)
  | .missing _ a, l => l.within (a.lookUp s)
  | .someElement document path test, l =>
    let origin (l : Lookup) : Lookup :=
      if document.isElementColumn then l else document.lookUp s l
    ((l.checked.andThen origin).checked.andThen (path.lookUp s)).checked.andThen fun l =>
      (test.lookUp (s.withColumn "value" .null) l).checked
  | .both a b, l | .either a b, l => (l.checked.andThen (a.lookUp s)).andThen (b.lookUp s)

/-- The names in the test are there. -/
def checkNames (s : Scope) (t : Test) : Except Fault Unit := (t.lookUp s {}).result

/-- The first number of the test that has no value. -/
def oversized? : Test → Option Fault
  | .compare _ a b | .fits _ a b => a.oversized?.or b.oversized?
  | .among _ a items => a.oversized?.or (items.findSome? Term.oversized?)
  | .missing _ a => a.oversized?
  | .someElement document path test =>
    (document.oversized?.or path.oversized?).or test.oversized?
  | .both a b | .either a b => a.oversized?.or b.oversized?

end Test

end ResourceTable.Sql
