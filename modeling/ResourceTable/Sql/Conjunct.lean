import ResourceTable.Sql.Table

/-!
# The parts of a condition

A condition is taken apart into the tests that all have to hold.  Such a test can
limit the rows that are looked at if it compares a column with given values; and the
values that it fixes can stand for the column in the other tests.

## Main definitions

* `Test.conjuncts`, `Test.disjuncts`: the parts of a test.
* `Handle`: what a test says about a column.
* `Conjunct`, `Conjunct.ofTest`: the parts of a condition with their handles.
* `Test.settled`: the parts with fixed columns replaced.
-/

namespace ResourceTable.Sql

/-! ### Columns -/

namespace Term

/-- The columns that the term names. -/
def columns (t : TableDef) : Term → List ColumnRef
  | .column name _ => (t.resolve name).toList
  | .member _ name _ => (t.resolve name).toList
  | .literal _ | .oversized _ _ | .fixed _ _ | .clock _ | .misused _ _ => []
  | .lower a | .negated a => a.columns t
  | .plus a b | .minus a b | .part a b | .partKind a b | .partLength a b =>
    a.columns t ++ b.columns t

/-- The term with the values of some columns in their places. -/
def replace (value? : String → Option Term) : Term → Term
  | .column name offset => (value? name).getD (.column name offset)
  | .lower a => .lower (a.replace value?)
  | .negated a => .negated (a.replace value?)
  | .plus a b => .plus (a.replace value?) (b.replace value?)
  | .minus a b => .minus (a.replace value?) (b.replace value?)
  | .part a b => .part (a.replace value?) (b.replace value?)
  | .partKind a b => .partKind (a.replace value?) (b.replace value?)
  | .partLength a b => .partLength (a.replace value?) (b.replace value?)
  | t => t

/-- Whether the term is a value. -/
def isLiteral : Term → Bool
  | .literal _ => true
  | _ => false

end Term

namespace Test

/-- The columns that the test names; of a test of elements, those that the document is
taken from. -/
def columns (t : TableDef) : Test → List ColumnRef
  | .compare _ a b | .fits _ a b => a.columns t ++ b.columns t
  | .among _ a items => a.columns t ++ items.flatMap (Term.columns t)
  | .missing _ a => a.columns t
  | .someElement document path _ =>
    (if document.isElementColumn then [] else document.columns t) ++ path.columns t
  | .both a b | .either a b => a.columns t ++ b.columns t

/-- Whether the test looks at elements that depend on the row. -/
def seeksOwnElements (t : TableDef) : Test → Bool
  | .someElement document path test => !((someElement document path test).columns t).isEmpty
  | .both a b | .either a b => a.seeksOwnElements t || b.seeksOwnElements t
  | _ => false

/-- The test with the values of some columns in their places; tests of elements stay as
they are. -/
def replace (value? : String → Option Term) : Test → Test
  | .compare op a b => .compare op (a.replace value?) (b.replace value?)
  | .fits kind a b => .fits kind (a.replace value?) (b.replace value?)
  | .among negated a items =>
    .among negated (a.replace value?) (items.map (Term.replace value?))
  | .missing negated a => .missing negated (a.replace value?)
  | .someElement document path test => .someElement document path test
  | .both a b => .both (a.replace value?) (b.replace value?)
  | .either a b => .either (a.replace value?) (b.replace value?)

/-! ### Parts -/

/-- The tests that all have to hold. -/
def conjuncts : Test → List Test
  | .both a b => a.conjuncts ++ b.conjuncts
  | t => [t]

/-- The tests one of which has to hold. -/
def disjuncts : Test → List Test
  | .either a b => a.disjuncts ++ b.disjuncts
  | t => [t]

/-- The number of tests in the test. -/
def size : Test → Nat
  | .both a b | .either a b => a.size + b.size + 1
  | .someElement _ _ test => test.size + 1
  | _ => 1

/-- Whether the test is the same for all rows. -/
def isConstant (t : TableDef) (test : Test) : Bool :=
  (test.columns t).isEmpty && !test.seeksElements

/-! ### Fixed columns -/

/-- The column that the test gives a value. -/
def fixes? (t : TableDef) : Test → Option (ColumnRef × Term)
  | .compare .equal (.column name _) (.literal c) | .compare .equal (.literal c) (.column name _) =>
    (t.resolve name).map fun column => (column, .fixed (t.affinity column) c)
  | _ => none

/-- The columns that some tests give values: of every column the first, with the
position of the test. -/
def fixed (t : TableDef) (tests : List Test) : List (ColumnRef × Term × Nat) :=
  tests.zipIdx.foldl (fun known (test, i) =>
    match test.fixes? t with
    | some (column, value) =>
      if known.any fun k => k.1 == column then known else known ++ [(column, value, i)]
    | none => known) []

/-- The tests, with the values of fixed columns in the places of these columns, but for
the tests that fix them. -/
def settled (t : TableDef) (tests : List Test) : List Test :=
  let known := fixed t tests
  tests.zipIdx.map fun (test, i) =>
    test.replace fun name => do
      let column ← t.resolve name
      let (_, value, _) ← known.find? fun k => k.1 == column && k.2.2 != i
      return value

end Test

/-! ### Handles -/

/-- How the values of a column are limited. -/
inductive Limit
  /-- To one value. -/
  | one
  /-- To so many values. -/
  | some (n : Nat)
  /-- From below. -/
  | below
  /-- From above. -/
  | above
  deriving DecidableEq, Repr

/-- What a test says about a column. -/
structure Handle where
  /-- The column. -/
  column : ColumnRef
  /-- How its values are limited. -/
  limit : Limit
  deriving DecidableEq, Repr

namespace Test

/-- What the test says about a column, if it compares one with values. -/
def handle? (t : TableDef) : Test → Option Handle
  | .compare op (.column name _) (.literal _) => do
    let column ← t.resolve name
    match op with
    | .equal => return ⟨column, .one⟩
    | .less | .lessOrEqual => return ⟨column, .above⟩
    | .greater | .greaterOrEqual => return ⟨column, .below⟩
    | .notEqual => failure
  | .among false (.column name _) items =>
    if items.all Term.isLiteral then (t.resolve name).map (⟨·, .some items.length⟩) else none
  | _ => none

/-- The column and the value that are compared for equality. -/
def equation? (t : TableDef) : Test → Option (ColumnRef × Term × Term)
  | .compare .equal (.column name offset) (.literal c) =>
    (t.resolve name).map (·, .column name offset, .literal c)
  | _ => none

/-- A choice between values of one column, as a test of a list. -/
def asList? (t : TableDef) (test : Test) : Option Test := do
  let equations ← test.disjuncts.mapM (equation? t)
  match equations with
  | [] | [_] => failure
  | (column, a, b) :: rest =>
    if rest.all fun e => e.1 == column then
      return .among false a (b :: rest.map fun e => e.2.2)
    else failure

end Test

/-! ### Conjuncts -/

/-- A part of a condition. -/
structure Conjunct where
  /-- Its place in the condition. -/
  path : List Nat
  /-- The place of the part that it says the same as, if it was made from one. -/
  parent : Option (List Nat)
  /-- The test. -/
  test : Test
  /-- What it says about a column. -/
  handle : Option Handle
  /-- The columns that it names. -/
  columns : List ColumnRef
  deriving DecidableEq

namespace Conjunct

/-- A part of a condition, from its test. -/
def ofTest (t : TableDef) (path : List Nat) (parent : Option (List Nat)) (test : Test) :
    Conjunct :=
  ⟨path, parent, test, test.handle? t, test.columns t⟩

/-- The parts of a condition with some tests, and the lists that choices between values
say the same as. -/
def all (t : TableDef) (path : List Nat) (tests : List Test) : List Conjunct :=
  let parts := tests.zipIdx.map fun (test, i) => ofTest t (i :: path) none test
  parts ++ parts.filterMap fun c =>
    (c.test.asList? t).map (ofTest t (tests.length :: c.path) (some c.path))

/-- The parts of the tests one of which has to hold. -/
def arms (t : TableDef) (c : Conjunct) : List (List Conjunct) :=
  match c.test with
  | .either _ _ =>
    c.test.disjuncts.zipIdx.map fun (test, i) => all t (i :: c.path) test.conjuncts
  | _ => []

/-- Whether the part is a choice that seeks no elements. -/
def isPlainChoice (c : Conjunct) : Bool :=
  match c.test with
  | .either _ _ => !c.test.seeksElements
  | _ => false

/-- Whether the part limits a column to one value. -/
def isEquation (c : Conjunct) : Bool := c.handle.any fun h => h.limit == .one

/-- Whether the part limits the column. -/
def handles (c : Conjunct) (column : ColumnRef) : Bool := c.handle.any fun h => h.column == column

/-- Whether the part names no other columns. -/
def within (c : Conjunct) (columns : List ColumnRef) : Bool :=
  c.columns.all fun column => columns.contains column

end Conjunct

end ResourceTable.Sql
