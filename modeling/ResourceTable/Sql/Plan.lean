import ResourceTable.Sql.Route

/-!
# Plans

A plan says in which order rows are visited and which tests they have to pass, first
to last.  Tests that are the same for all rows come before any row; the tests that
limit a route come first, then those that the index answers, and last those that seek
elements of its documents.  The ranges of a choice are passed one after the other; a row
that was met in one range is not put to the tests that all ranges share again.

## Main definitions

* `Pass`, `Plan`: what is done.
* `Visit`: a row with its tests.
* `Plan.ofCondition`: the plan for a condition.
* `Plan.found`: the rows that a plan finds.
-/

namespace ResourceTable.Sql

/-- One pass over the rows of a table. -/
structure Pass where
  /-- Whether the rows are visited in the order of the key. -/
  byKey : Bool
  /-- Whether they are visited from the last to the first. -/
  fromEnd : Bool
  /-- The tests that a row has to pass to be met. -/
  tests : List Test
  /-- The tests that a row has to pass when it is met for the first time. -/
  further : List Test := []
  deriving DecidableEq

/-- A row on its way through a pass. -/
structure Visit where
  /-- The row. -/
  row : StoredRow
  /-- The tests that it has to pass to be met. -/
  tests : List Test
  /-- The tests that it has to pass when it is met for the first time. -/
  further : List Test

/-- How the rows that pass a condition are found. -/
structure Plan where
  /-- The tests that are the same for all rows. -/
  constants : List Test
  /-- The passes, one after the other. -/
  passes : List Pass
  /-- Whether the rows come in the order asked for. -/
  ordered : Bool
  deriving DecidableEq

namespace Plan

/-! ### Making plans -/

/-- Some tests in the order in which a row is put to them. -/
def staged (t : TableDef) (byKey : Bool) (parts : List Conjunct) : List Test :=
  let (late, early) := parts.partition fun c => c.test.seeksOwnElements t
  let inKey (c : Conjunct) : Bool := byKey && c.within (.number :: t.keyRef?.toList)
  let (first, second) := early.partition inKey
  (first ++ second ++ late).map Conjunct.test

/-- The parts of a condition as they are written. -/
def written (parts : List Conjunct) : List Conjunct := parts.filter fun c => c.parent.isNone

/-- The parts of a condition that go with every range of a choice: what limits a column,
and other choices that seek no elements. -/
def shared (choice : Conjunct) (parts : List Conjunct) : List Test :=
  (written parts).filterMap fun c =>
    if c.path != choice.path && (c.handle.isSome || c.isPlainChoice) then some c.test else none

/-- The passes of a route, for choices nested at most so deep.  Every range of a choice
is a condition of its own, and the rows that it gives are put to the other tests. -/
def passesOf (t : TableDef) (w : Wish) : Nat → List Conjunct → Route.Taken → List Pass
  | 0, parts, taken =>
    [{ byKey := false, fromEnd := taken.fromEnd, tests := staged t false (written parts) }]
  | fuel + 1, parts, taken =>
    match taken.route.choice with
    | none =>
      let drivers := taken.route.drivers.map Conjunct.test
      [{ byKey := taken.route.byKey
         fromEnd := taken.fromEnd
         tests := drivers ++ staged t taken.route.byKey (written parts) }]
    | some choice =>
      let others := staged t false ((written parts).filter fun c => c.path != choice.path)
      choice.test.disjuncts.flatMap fun arm =>
        let inner := Conjunct.all t [] (arm.conjuncts ++ shared choice parts)
        let wish : Wish := { columns := w.columns }
        let taken := (Route.cheapest t wish inner (Route.all t wish fuel inner)).getD Route.plain
        (passesOf t w fuel inner taken).map fun p =>
          { p with tests := p.tests ++ p.further, further := others }

/-- The plan for some tests that all have to hold. -/
def ofTests (t : TableDef) (w : Wish) (tests : List Test) : Plan :=
  let fuel := tests.foldl (fun n test => n + test.size) 1
  let parts := Conjunct.all t [] tests
  let taken := Route.choose t w fuel parts
  { constants := tests.filter (Test.isConstant t)
    passes := passesOf t w fuel parts taken
    ordered := taken.ordered }

/-- The plan for a condition.  If no row is changed, values that the condition gives to
columns stand for these. -/
def ofCondition (t : TableDef) (w : Wish) (condition : Option Test) : Plan :=
  let tests := (condition.map Test.conjuncts).getD []
  ofTests t w (if w.changes then tests else Test.settled t tests)

/-! ### Following plans -/

/-- The rows in the order of a pass. -/
def visited (t : StoredTable) (p : Pass) : List StoredRow :=
  let rows :=
    match p.byKey, t.definition.keyRef? with
    | true, some key =>
      t.rows.mergeSort fun r s => (r.value key).order (s.value key) != .gt
    | _, _ => t.rows
  if p.fromEnd then rows.reverse else rows

/-- The rows that a plan visits. -/
def visits (t : StoredTable) (plan : Plan) : List Visit :=
  plan.passes.flatMap fun p => (visited t p).map (⟨·, p.tests, p.further⟩)

/-- The rows that pass their tests, every row once, at most so many of them. -/
def gather (scope : StoredRow → Scope) :
    Option Nat → List Int → List Visit → Except Fault (List StoredRow)
  | some 0, _, _ | _, _, [] => .ok []
  | most, met, v :: rest => do
    if ← Test.allHold (scope v.row) v.tests then
      if met.contains v.row.number then gather scope most met rest
      else if ← Test.allHold (scope v.row) v.further then
        return v.row :: (← gather scope (most.map (· - 1)) (v.row.number :: met) rest)
      else gather scope most (v.row.number :: met) rest
    else gather scope most met rest

/-- The rows that a plan finds, at most so many of them. -/
def found (plan : Plan) (t : StoredTable) (now : Timestamp) (most : Option Nat) :
    Except Fault (List StoredRow) := do
  if ← Test.allHold (.bare now) plan.constants then
    gather (t.definition.scope now) most [] (plan.visits t)
  else return []

end Plan

end ResourceTable.Sql
