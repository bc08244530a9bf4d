import ResourceTable.Error
import ResourceTable.Text.CharClass

/-!
# Pages

A list request asks for a page of rows in some order, or only for their number.  A
page becomes the `ORDER BY`, `LIMIT` and `OFFSET` of a statement; a count needs
none of them.

## Main definitions

* `Order`, `Page`.
* `PageRules`, `Page.check`: what a page may ask for.
* `Page.suffix`: the end of the statement.
-/

namespace ResourceTable

/-- The direction of a sort. -/
inductive Order
  /-- Least first. -/
  | ascending
  /-- Greatest first. -/
  | descending
  deriving DecidableEq, Repr, Inhabited

namespace Order

/-- The name on the wire. -/
def name : Order → String
  | ascending => "asc"
  | descending => "desc"

/-- The keyword of the statement. -/
def keyword : Order → String
  | ascending => "ASC"
  | descending => "DESC"

/-- Reads a direction. -/
def ofJson (j : Json) : Json.Decoded Order :=
  j.decodeChoice [(ascending.name, ascending), (descending.name, descending)]

end Order

/-- Which rows a list request asks for. -/
structure Page where
  /-- Whether only the number of rows is asked for. -/
  count : Bool := false
  /-- The number of rows passed over. -/
  start : FixedInt .u32 := .zero .u32
  /-- The most rows given. -/
  limit : FixedInt .u32 := .zero .u32
  /-- The column that orders the rows. -/
  sort : Option String := none
  /-- The direction. -/
  order : Order := .ascending
  deriving DecidableEq

/-- What a page may ask for. -/
structure PageRules where
  /-- The most rows of a page. -/
  maxLimit : Nat := 500
  /-- The column that orders the rows when the page names none. -/
  defaultSort : String := "id"
  deriving DecidableEq

namespace Page

instance : Inhabited Page := ⟨{}⟩

/-- The members of a page on the wire. -/
def members : List (Json.FieldDecoder Page) :=
  [⟨"count", fun p j => do return { p with count := ← j.decodeBool }⟩,
    ⟨"start", fun p j => do return { p with start := ← j.decodeInt .u32 }⟩,
    ⟨"limit", fun p j => do return { p with limit := ← j.decodeInt .u32 }⟩,
    ⟨"sort", fun p j => do return { p with sort := ← j.decodeOption Json.decodeText }⟩,
    ⟨"order", fun p j => do return { p with order := ← Order.ofJson j }⟩]

/-- Reads a page. -/
def ofJson (j : Json) : Json.Decoded Page := j.decodeRecord "Page" members {}

/-- Writes a page. -/
def toJson (p : Page) : Json :=
  .object [("count", .bool p.count), ("start", .ofInt p.start.val), ("limit", .ofInt p.limit.val),
    ("sort", p.sort.elim .null .string), ("order", .string p.order.name)]

/-- The column that the page names. -/
def sort? (p : Page) : Option String := p.sort.filter fun s => !s.isEmpty

/-- The page asks for what it may. -/
def check (rules : PageRules) (fields : Schema) (p : Page) : Checked Unit :=
  if p.count then .ok ()
  else if p.limit.val = 0 then .error .limitRequired
  else if rules.maxLimit < p.limit.val.toNat then
    .error (.limitTooLarge p.limit.val.toNat rules.maxLimit)
  else
    match p.sort? with
    | some sort => if fields.contains sort then .ok () else .error (.unknownSort sort)
    | none => .ok ()

/-- The end of the statement: `ORDER BY id ASC LIMIT 10 OFFSET 20`, or nothing for a
count. -/
def suffix (rules : PageRules) (p : Page) : Checked String :=
  if p.count then .ok ""
  else
    let sort := p.sort?.getD rules.defaultSort
    if isIdentifier sort.toList then
      .ok ("ORDER BY " ++ sort ++ " " ++ p.order.keyword ++ " LIMIT " ++ toString p.limit.val ++
        " OFFSET " ++ toString p.start.val)
    else .error (.sortNotColumn sort)

end Page

end ResourceTable
