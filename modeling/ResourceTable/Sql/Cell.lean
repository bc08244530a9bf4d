import ResourceTable.IntType
import ResourceTable.Sql.NumberText
import ResourceTable.Text.Utf8

/-!
# Stored values

A cell of the database holds one of five kinds of values.  A column has an
affinity: the kind that stored values, and values compared with the column, are
turned into where that loses nothing.

## Main definitions

* `Cell`, `Cell.order`: the values and their order.
* `NumberText.toCell`: the number at the front of a text as a value.
* `Affinity`, `Affinity.adapt`, `Affinity.store`.
-/

namespace ResourceTable.Sql

/-- A stored value. -/
inductive Cell
  /-- No value. -/
  | null
  /-- A signed 64-bit integer. -/
  | integer (n : FixedInt .i64)
  /-- A 64-bit floating-point number. -/
  | real (x : Double)
  /-- A text. -/
  | text (s : String)
  /-- A sequence of bytes. -/
  | blob (b : List UInt8)
  deriving DecidableEq

namespace Cell

instance : Inhabited Cell := ⟨null⟩

/-- Whether there is no value. -/
def isNull : Cell → Bool
  | null => true
  | _ => false

/-- A fractional number; what is not a number is no value. -/
def ofDouble (x : Double) : Cell := if x.isNaN then null else real x

/-- An integer, or the nearest fractional number to one that is out of range. -/
def ofInt (n : Int) : Cell :=
  match FixedInt.ofInt? .i64 n with
  | some n => integer n
  | none => ofDouble (.ofInt n)

/-! ### Order -/

/-- The position of the kind of value: nothing, numbers, texts, bytes. -/
def rank : Cell → Nat
  | null => 0
  | integer _ | real _ => 1
  | text _ => 2
  | blob _ => 3

/-- The order of values: by kind, numbers by size, texts and bytes by their bytes. -/
def order : Cell → Cell → Ordering
  | integer m, integer n => compare m.val n.val
  | integer m, real y => (y.compareInt m.val).swap
  | real x, integer n => x.compareInt n.val
  | real x, real y => x.compare y
  | text s, text t => compare s t
  | blob a, blob b => compareOfLessAndEq a b
  | a, b => compare a.rank b.rank

/-- Whether two values are equal in the order. -/
def same (a b : Cell) : Bool := a.order b == .eq

/-! ### Text -/

/-- The text that the value stands for. -/
def asText? : Cell → Option String
  | null => none
  | integer n => some (toString n.val)
  | real x => some (realText x)
  | text s => some s
  | blob b => some ((textOfBytes? b).getD "")

end Cell

/-! ### Numbers in text -/

/-- The value of the number: an integer if it is written as one and in range. -/
def NumberText.toCell (t : NumberText) : Cell :=
  match t.whole, FixedInt.ofInt? .i64 t.toInt with
  | true, some n => .integer n
  | _, _ => .real t.toDouble

namespace Cell

/-- A fractional number that equals an integer as that integer, unless it lies at an
end of the range. -/
def narrowed : Cell → Cell
  | real x =>
    match x.toInt? with
    | some n =>
      if IntType.i64.least < n ∧ n < IntType.i64.greatest then ofInt n else real x
    | none => real x
  | c => c

/-- The number that the value stands for in a sum: of a text or bytes, the one that
they begin with, or else zero. -/
def asNumber : Cell → Cell
  | null => null
  | integer n => integer n
  | real x => real x
  | c =>
    match NumberText.read? (c.asText?.getD "").toList with
    | some t => t.toCell
    | none => ofInt 0

/-- The result of an operation on numbers; out of the integers' range it is
fractional. -/
def arithmetic (exact : Int → Int → Int) (rounded : Double → Double → Double) (a b : Cell) :
    Cell :=
  match a.asNumber, b.asNumber with
  | integer m, integer n =>
    match FixedInt.ofInt? .i64 (exact m.val n.val) with
    | some k => integer k
    | none => ofDouble (rounded (.ofInt m.val) (.ofInt n.val))
  | integer m, real y => ofDouble (rounded (.ofInt m.val) y)
  | real x, integer n => ofDouble (rounded x (.ofInt n.val))
  | real x, real y => ofDouble (rounded x y)
  | _, _ => null

/-- The sum. -/
def plus (a b : Cell) : Cell := arithmetic (· + ·) .add a b

/-- The difference. -/
def minus (a b : Cell) : Cell := arithmetic (· - ·) .sub a b

/-- Whether the number is zero, as a number; no value stays none. -/
def negated (c : Cell) : Cell :=
  if c.isNull then null else ofInt (if c.asNumber.same (ofInt 0) then 1 else 0)

end Cell

/-! ### Affinity -/

/-- The kind that the values of a column are turned into. -/
inductive Affinity
  /-- Any kind. -/
  | any
  /-- Texts. -/
  | text
  /-- Integers, or else fractional numbers. -/
  | numeric
  /-- Fractional numbers. -/
  | real
  deriving DecidableEq, Repr

namespace Affinity

/-- Whether the text has the part in it. -/
def mentions (part text : List Char) : Bool :=
  match text with
  | [] => part.isEmpty
  | c :: rest => part.isPrefixOf (c :: rest) || mentions part rest

/-- The affinity of a column declared with a type. -/
def ofTypeName (name : String) : Affinity :=
  let cs := name.toList.map Char.toUpper
  let has (part : String) : Bool := mentions part.toList cs
  if has "INT" then numeric
  else if has "CHAR" || has "CLOB" || has "TEXT" then text
  else if cs.isEmpty || has "BLOB" then any
  else if has "REAL" || has "FLOA" || has "DOUB" then real
  else numeric

/-- Whether values are turned into numbers. -/
def isNumeric : Affinity → Bool
  | numeric | real => true
  | any | text => false

/-- The value as it is compared with values of the affinity: a text that is a number
becomes one, or a number becomes a text. -/
def adapt (a : Affinity) (c : Cell) : Cell :=
  match a, c with
  | numeric, .text s | real, .text s =>
    match NumberText.read? s.toList with
    | some t => if t.complete then t.toCell.narrowed else c
    | none => c
  | text, .integer _ | text, .real _ =>
    match c.asText? with
    | some s => .text s
    | none => c
  | _, _ => c

/-- The value as a column of the affinity stores it. -/
def store (a : Affinity) (c : Cell) : Cell :=
  match a, (a.adapt c).narrowed with
  | real, .integer n => .real (.ofInt n.val)
  | numeric, c => c
  | _, _ => a.adapt c

/-- The affinity that two compared values are adapted to: numeric if one side is a
numeric column, and none if both are columns; else that of the column. -/
def shared : Option Affinity → Option Affinity → Affinity
  | some a, some b => if a.isNumeric || b.isNumeric then numeric else any
  | some a, none => a
  | none, some b => b
  | none, none => any

end Affinity

end ResourceTable.Sql
