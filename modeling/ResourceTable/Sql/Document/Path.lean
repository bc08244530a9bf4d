import ResourceTable.Sql.Document.Reader

/-!
# Parts of documents

A path names a part of a document by the keys on the way: `$."a"."b"`.

## Main definitions

* `Document.path`: the keys of a path.
* `Document.part?`: the part of a cell's document under a path.
-/

namespace ResourceTable.Sql.Document

/-! ### Paths -/

/-- What the characters of a path read last belong to.  Characters are kept in
reverse. -/
inductive PathScan
  /-- A step is complete. -/
  | between
  /-- A dot. -/
  | dot
  /-- A bare key. -/
  | bare (seen : List Char)
  /-- A key in double quotes. -/
  | quoted (seen : List Char)
  deriving DecidableEq, Repr

/-- The key of the characters kept in reverse. -/
def gathered (seen : List Char) : String := String.ofList seen.reverse

/-- The keys of the rest of a path. -/
def steps (scan : PathScan) : List Char → Option (List String)
  | [] =>
    match scan with
    | .between => some []
    | .bare seen => some [gathered seen]
    | .dot | .quoted _ => none
  | c :: rest =>
    match scan with
    | .between => if c = '.' then steps .dot rest else none
    | .dot => if c = '"' then steps (.quoted []) rest else steps (.bare [c]) rest
    | .bare seen =>
      if c = '.' then (steps .dot rest).map (gathered seen :: ·)
      else steps (.bare (c :: seen)) rest
    | .quoted seen =>
      if c = '"' then (steps .between rest).map (gathered seen :: ·)
      else steps (.quoted (c :: seen)) rest

/-- The keys of a path. -/
def path : List Char → Option (List String)
  | '$' :: rest => steps .between rest
  | _ => none

/-- The part of a document under some keys; of members with the same key, the first
counts. -/
def under : List String → Document → Option Document
  | [], d => some d
  | key :: keys, .object members =>
    match members.find? fun m => TextUnit.names key m.1 with
    | some m => under keys m.2
    | none => none
  | _ :: _, _ => none

/-! ### Cells -/

/-- The documents without content whose packed form is a single byte, in the order of
these bytes. -/
def packed : List Document :=
  [.null, .bool true, .bool false, .integer [], .integer [], .fraction [], .fraction [],
    .text [], .text [], .text [], .text [], .array [], .object []]

/-- The document of a blob that is a packed one. -/
def unpacked? : Cell → Option Document
  | .blob [b] => packed[b.toNat]?
  | _ => none

/-- The document of a cell; no value is no document. -/
def ofCell (c : Cell) : Except Fault (Option Document) :=
  match c.asText? with
  | none => .ok none
  | some s =>
    match (unpacked? c).or (read? s) with
    | some d => .ok (some d)
    | none => .error .malformedDocument

/-- The part of the document of a cell under the path that another cell holds. -/
def part? (document keys : Cell) : Except Fault (Option Document) :=
  match keys.asText? with
  | none => .ok none
  | some s =>
    match path s.toList with
    | none => .error (.badPath s)
    | some keys => do return (← ofCell document).bind (under keys)

end ResourceTable.Sql.Document
