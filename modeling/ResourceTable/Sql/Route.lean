import ResourceTable.Sql.Conjunct
import ResourceTable.Sql.Estimate

/-!
# Routes to rows

The rows of a table are reached by their numbers or, if the key is another column,
through the index of the key; parts of the condition limit what is looked at.  A
choice between limited ranges can be taken range by range.  Of all routes the one
with the least estimated cost is taken, where an order that the rows have to be
brought into adds to the cost.

## Main definitions

* `Route`: a way to reach rows, with its estimates.
* `Wish`: what a statement needs of the rows.
* `Route.all`: the routes that a condition allows, without those that another one
  dominates.
* `Route.choose`: the route that is taken.
-/

namespace ResourceTable.Sql

/-- A way to reach rows. -/
structure Route where
  /-- Whether it leads through the index of the key. -/
  byKey : Bool
  /-- Whether the index holds all columns that are needed. -/
  covering : Bool := false
  /-- The parts of the condition that limit what is looked at. -/
  drivers : List Conjunct := []
  /-- The choice whose ranges are taken one by one. -/
  choice : Option Conjunct := none
  /-- The rank of the order of the rows; zero if the order is of no use. -/
  rank : Nat := 0
  /-- The estimated cost. -/
  cost : Estimate
  /-- The estimated number of rows. -/
  rows : Estimate

/-- What the rows are ordered by. -/
inductive Wish.Key
  /-- A column. -/
  | column (c : ColumnRef)
  /-- Something else. -/
  | other
  deriving DecidableEq

/-- An order that rows have to be brought into. -/
structure Wish.Order where
  /-- What decides. -/
  key : Wish.Key
  /-- Whether the greatest value comes first. -/
  descending : Bool
  /-- The number of columns that are given of every row. -/
  outputs : Nat
  /-- The most rows given. -/
  limit : Option Nat

/-- What a statement needs of the rows. -/
structure Wish where
  /-- The columns that are looked at. -/
  columns : List ColumnRef
  /-- The order. -/
  order : Option Wish.Order := none
  /-- Whether the rows are changed or dropped. -/
  changes : Bool := false

namespace Wish

/-- Whether the order is that of a column. -/
def ordersBy (w : Wish) (column : ColumnRef) : Bool :=
  w.order.any fun o => o.key == .column column

/-- Whether the key and the number of a row are all that is needed. -/
def isCovered (t : TableDef) (w : Wish) : Bool :=
  w.columns.all fun c => c == .number || some c == t.keyRef?

end Wish

namespace Route

/-! ### Estimates -/

/-- Whether a part of the condition is accounted for by the drivers. -/
def accountsFor (r : Route) (c : Conjunct) : Bool :=
  r.drivers.any fun d => d.path == c.path || d.parent == some c.path

/-- Every further part of the condition leaves fewer rows. -/
def thinned (own : List Conjunct) (r : Route) : Route :=
  let further := own.filter fun c =>
    c.parent.isNone && !c.columns.isEmpty && !r.accountsFor c
  let most := Estimate.tableRows - (if further.any Conjunct.isEquation then 20 else 0)
  { r with rows := min (r.rows - further.length) most }

/-- The cost of visiting so many entries of the table or the index. -/
def visits (t : TableDef) (byKey : Bool) (rows : Estimate) : Estimate :=
  if byKey then rows + 1 + 15 * t.keySize / t.rowSize else rows + 16

/-- Looking at all rows. -/
def scan (t : TableDef) (w : Wish) (own : List Conjunct) (byKey : Bool) : Option Route :=
  let covering := byKey && w.isCovered t
  let rank :=
    if w.ordersBy .number || (byKey && t.keyRef?.any w.ordersBy) then (if byKey then 2 else 1)
    else 0
  let cheaper := covering && t.keySize < t.rowSize && !w.changes
  let inKey := own.takeWhile fun c => c.within (.number :: t.keyRef?.toList)
  let lookups := inKey.foldl (fun (n : Estimate) c => n - (if c.isEquation then 20 else 1))
    (visits t false .tableRows)
  let visiting := visits t byKey .tableRows
  let cost := if byKey && !covering then Estimate.plus visiting lookups else visiting
  if byKey && rank = 0 && !cheaper then none
  else some (thinned own { byKey, covering, rank, cost, rows := .tableRows })

/-- Looking at the rows within limits, which are so many at so many places. -/
def search (t : TableDef) (w : Wish) (own : List Conjunct) (byKey : Bool)
    (drivers : List Conjunct) (rows places : Estimate) : Route :=
  let covering := byKey && w.isCovered t
  let rank :=
    if w.ordersBy .number || (byKey && t.keyRef?.any w.ordersBy) then (if byKey then 2 else 1)
    else 0
  let finding := Estimate.plus .descent (visits t byKey rows)
  let cost := if byKey && !covering then Estimate.plus finding (rows + 16) else finding
  thinned own { byKey, covering, drivers, rank, cost := cost + places, rows := rows + places }

/-- The rows that one limit leaves, and those that two leave. -/
def limitedRows (both : Bool) : Estimate := if both then 140 else 180

/-- The searches that parts of the condition allow, own ones and those around. -/
def searches (t : TableDef) (w : Wish) (own around : List Conjunct) (byKey : Bool) :
    List Route :=
  let column := if byKey then t.keyRef? else some .number
  let usable := (own ++ around).filter fun c => column.any c.handles
  let above := usable.filter fun c => c.handle.any fun h => h.limit == .above
  usable.flatMap fun c =>
    match c.handle.map Handle.limit with
    | some .one => [search t w own byKey [c] 0 0]
    | some (.some n) => [search t w own byKey [c] 0 (.ofNat n)]
    | some .above => [search t w own byKey [c] (limitedRows false) 0]
    | some .below =>
      search t w own byKey [c] (limitedRows false) 0 ::
        above.map fun d => search t w own byKey [c, d] (limitedRows true) 0
    | none => []

/-! ### Dominated routes -/

/-- Whether a route uses fewer of the same drivers and is no worse. -/
def isPartOf (r s : Route) : Bool :=
  r.drivers.length < s.drivers.length && !(s.cost < r.cost && s.rows < r.rows) &&
    (r.drivers.all fun d => s.drivers.any fun e => e.path == d.path) &&
    (!r.covering || s.covering)

/-- The estimates of a route through the index, brought in line with those of another
one: with more drivers, a route is no dearer and leaves fewer rows. -/
def inLine (s r : Route) : Route :=
  if !r.byKey || !s.byKey then r
  else if s.isPartOf r then { r with cost := min s.cost r.cost, rows := min (s.rows - 1) r.rows }
  else if r.isPartOf s then { r with cost := max s.cost r.cost, rows := max (s.rows + 1) r.rows }
  else r

/-- Whether a route of the same order is as cheap as another and leaves as few rows. -/
def dominates (r s : Route) : Bool := r.rank == s.rank && r.cost ≤ s.cost && r.rows ≤ s.rows

/-- Puts a route among others, unless one of them dominates it; those that it
dominates go. -/
def putAmong (r : Route) : List Route → List Route
  | [] => [r]
  | s :: rest =>
    if s.dominates r then s :: rest
    else if r.dominates s then r :: rest.filter fun s => !r.dominates s
    else s :: putAmong r rest

/-- Adds a route to others. -/
def add (routes : List Route) (r : Route) : List Route :=
  putAmong (routes.foldl (fun r s => inLine s r) r) routes

/-! ### Choices -/

/-- The least cost of some routes that do not look at all rows, and their least number
of rows. -/
def least (routes : List Route) : Option (Estimate × Estimate) :=
  (routes.filter fun r => !r.drivers.isEmpty || r.choice.isSome).foldl (fun best r =>
    match best with
    | none => some (r.cost, r.rows)
    | some (cost, rows) =>
      if r.cost ≤ cost then some (r.cost, min r.rows rows) else some (cost, rows)) none

/-- Whether every range of a choice limits a column. -/
def isChoice (t : TableDef) (c : Conjunct) : Bool :=
  let arms := c.arms t
  !arms.isEmpty && arms.all fun arm => arm.any fun d => d.handle.isSome

/-- The ways of reaching rows that the routes are chosen from: by number and, if the
key is another column, through its index. -/
def sides (t : TableDef) : List Bool := if t.keyRef?.isSome then [false, true] else [false]

/-- The routes that take the ranges of a choice one by one, for choices nested at most
so deep. -/
def choices (t : TableDef) (w : Wish) : Nat → List Conjunct → List Conjunct → List Route
  | 0, _, _ => []
  | fuel + 1, own, around =>
    (own.filter (isChoice t)).filterMap fun c => do
      let costs ← (c.arms t).mapM fun arm =>
        let outside := own ++ around
        least ((sides t).flatMap (searches t w arm outside) ++ choices t w fuel arm outside)
      let first ← costs.head?
      let (cost, rows) := costs.tail.foldl
        (fun (sum : Estimate × Estimate) c => (sum.1.plus c.1, sum.2.plus c.2)) first
      return { byKey := false, choice := some c, cost := cost + 1, rows }

/-- The routes that the parts of a condition allow. -/
def all (t : TableDef) (w : Wish) (fuel : Nat) (own : List Conjunct) : List Route :=
  let simple := (sides t).flatMap fun byKey =>
    (scan t w own byKey).toList ++ searches t w own [] byKey
  (simple ++ choices t w fuel own []).foldl add []

/-! ### The choice of a route -/

/-- Whether at most one row is reached. -/
def isSingle (r : Route) : Bool := r.drivers.any Conjunct.isEquation

/-- Whether so many values are looked up. -/
def isLookup (r : Route) : Bool :=
  r.drivers.any fun c => c.handle.any fun h => h.limit != .below && h.limit != .above

/-- Whether the rows come in the order, and whether the route has to be taken from its
end for it. -/
def inOrder (t : TableDef) (own : List Conjunct) (o : Wish.Order) (r : Route) : Bool × Bool :=
  match o.key with
  | .other => (r.isSingle, false)
  | .column column =>
    if own.any fun c => c.isEquation && c.handles column then (true, false)
    else if r.isSingle then (true, false)
    else if r.choice.isSome then (false, false)
    else
      let taken := if r.byKey then t.keyRef? else some .number
      if taken = some column then (true, o.descending) else (false, false)

/-- The cost of bringing so many rows into an order. -/
def sortingCost (o : Wish.Order) (rows : Estimate) : Estimate :=
  let width := Estimate.ofNat ((o.outputs + 59) / 30)
  match o.limit with
  | none => rows + width + Estimate.log rows
  | some n =>
    rows + width + 10 + Estimate.log (if Estimate.ofNat n < rows then .ofNat n else rows)

/-- A route with what it means for the order. -/
structure Taken where
  /-- The route. -/
  route : Route
  /-- Whether the rows come in the order asked for. -/
  ordered : Bool
  /-- Whether the route is taken from its end. -/
  fromEnd : Bool

/-- The best of some routes, given the number of rows that would have to be brought
into the order. -/
def best (t : TableDef) (own : List Conjunct) (order : Option (Wish.Order × Estimate))
    (routes : List Route) : Option Taken :=
  let rated (r : Route) : (Estimate × Estimate × Estimate) × Taken :=
    let cost := r.cost.plus 0
    match order with
    | none => ((cost, r.rows, cost - 2), ⟨r, true, false⟩)
    | some (o, rows) =>
      let (ordered, fromEnd) := r.inOrder t own o
      if ordered then ((cost, r.rows, cost - 2), ⟨r, true, fromEnd⟩)
      else ((cost.plus (sortingCost o rows) + 3, r.rows, cost), ⟨r, false, false⟩)
  let better (a b : Estimate × Estimate × Estimate) : Bool :=
    a.1 < b.1 || (a.1 == b.1 && (a.2.1 < b.2.1 || (a.2.1 == b.2.1 && a.2.2 < b.2.2)))
  let pick (b : Option ((Estimate × Estimate × Estimate) × Taken)) (r : Route) :=
    let x := rated r
    match b with
    | none => some x
    | some y => if better x.1 y.1 then some x else some y
  (routes.foldl pick none).map Prod.snd

/-- The route to a single row, if the condition names one. -/
def single? (t : TableDef) (own : List Conjunct) : Option Route :=
  let named (column : ColumnRef) : Option Conjunct :=
    own.find? fun c => c.isEquation && c.handles column
  match named .number, t.keyRef?.bind named with
  | some c, _ => some { byKey := false, drivers := [c], cost := 0, rows := 0 }
  | none, some c => some { byKey := true, drivers := [c], cost := 0, rows := 0 }
  | none, none => none

/-- The route that is taken when it has to be estimated: first without regard to the
order, and then, if there is one, with the number of rows that this gives.  If values
are looked up, routes that look at all rows are no longer considered. -/
def cheapest (t : TableDef) (w : Wish) (own : List Conjunct) (routes : List Route) :
    Option Taken := do
  let first ← best t own none routes
  match w.order with
  | none => return first
  | some o =>
    let routes := if first.route.isLookup then routes.filter fun r => !r.drivers.isEmpty else routes
    best t own (some (o, max 1 (first.route.rows + 1))) routes

/-- The route by number, which there always is. -/
def plain : Taken := ⟨{ byKey := false, cost := 0, rows := 0 }, false, false⟩

/-- The route that is taken for a condition with the given parts. -/
def choose (t : TableDef) (w : Wish) (fuel : Nat) (own : List Conjunct) : Taken :=
  match single? t own with
  | some r => ⟨r, true, false⟩
  | none => (cheapest t w own (all t w fuel own)).getD plain

end Route

end ResourceTable.Sql
