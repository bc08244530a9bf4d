import ResourceTable.Sql.Cell
import ResourceTable.Text.CharClass
import ResourceTable.Text.Hex

/-!
# Words and numbers of SQL

Most keywords can stand where a name is expected; the reserved ones cannot.

## Main definitions

* `Keyword.upper`, `Keyword.isReserved`.
* `sameName`: names that differ at most in the case of letters.
* `Numeral`: the numbers in a statement, with `Numeral.read`.
-/

namespace ResourceTable.Sql

namespace Keyword

/-- A word in upper case. -/
def upper (s : String) : String := String.ofList (s.toList.map Char.toUpper)

/-- The words that are never names. -/
def reserved : List String := [
  "ADD", "ALL", "ALTER", "AND", "AS", "AUTOINCREMENT", "BETWEEN", "CASE", "CHECK", "COLLATE",
  "COMMIT", "CONSTRAINT", "CREATE", "CURRENT_DATE", "CURRENT_TIME", "CURRENT_TIMESTAMP",
  "DEFAULT", "DEFERRABLE", "DELETE", "DISTINCT", "DROP", "ELSE", "ESCAPE", "EXCEPT", "EXISTS",
  "FOREIGN", "FROM", "GROUP", "HAVING", "IN", "INDEX", "INSERT", "INTERSECT", "INTO", "IS",
  "ISNULL", "JOIN", "LIMIT", "NOT", "NOTHING", "NOTNULL", "NULL", "ON", "OR", "ORDER",
  "PRIMARY", "REFERENCES", "RETURNING", "SELECT", "SET", "TABLE", "THEN", "TO", "TRANSACTION",
  "UNION", "UNIQUE", "UPDATE", "USING", "VALUES", "WHEN", "WHERE"]

/-- Whether the word is never a name. -/
def isReserved (s : String) : Bool := reserved.contains (upper s)

/-- Whether the word has to be followed by a parenthesis. -/
def opensCall (s : String) : Bool := ["CAST", "EXISTS", "RAISE"].contains (upper s)

end Keyword

/-- Whether two names are the same, which the case of ASCII letters does not matter
for. -/
def sameName (a b : String) : Bool := Keyword.upper a == Keyword.upper b

/-- A number in a statement. -/
inductive Numeral
  /-- A natural number below two to the 63. -/
  | natural (n : Nat)
  /-- Any other number. -/
  | other (c : Cell)
  /-- A hexadecimal number of more than 64 bits. -/
  | oversized
  deriving DecidableEq

namespace Numeral

/-- Why digits are not a number. -/
inductive Error
  /-- They go on with letters. -/
  | stray
  /-- A separator does not stand between digits; the number is shown as far as separators
  have been left out by then. -/
  | separators (shown : String)
  deriving DecidableEq, Repr

/-- How a number is shown in which so many characters, without separators, have been put
over the first ones. -/
def overlaid (written kept : List Char) : String :=
  String.ofList (kept ++ written.drop kept.length)

/-- How a number is shown at the last separator that does not stand between digits, given
what was kept before the rest of it. -/
def misplaced? (isDigit : Char → Bool) (written : List Char) :
    List Char → Bool → List Char → Option String
  | _, _, [] => none
  | kept, afterDigit, c :: rest =>
    if c = '_' then
      let here :=
        if afterDigit && rest.head?.any isDigit then none else some (overlaid written kept)
      (misplaced? isDigit written kept false rest).or here
    else misplaced? isDigit written (kept ++ [c]) (isDigit c) rest

/-- A hexadecimal number: the integer of the same 64 bits. -/
def ofHex (digits : List Char) : Except Error Numeral :=
  match natOfHex? digits with
  | none => .error .stray
  | some n =>
    if n < Nat.pow 2 63 then .ok (.natural n)
    else if n < Nat.pow 2 64 then .ok (.other (.ofInt ((n : Int) - Nat.pow 2 64)))
    else .ok .oversized

/-- A decimal number. -/
def ofDecimal (digits : List Char) : Except Error Numeral :=
  match NumberText.read? digits with
  | none => .error .stray
  | some t =>
    if t.whole ∧ t.toInt < Nat.pow 2 63 then .ok (.natural t.toInt.toNat) else .ok (.other t.toCell)

/-- Whether the characters are decimal digits or separators, up to an exponent. -/
def isDecimal (cs : List Char) : Bool :=
  let isPart (c : Char) : Bool := c.isDigit || c == '_'
  match cs.dropWhile isPart with
  | [] => true
  | e :: rest => (e == 'e' || e == 'E') && rest.head?.any Char.isDigit && rest.all isPart

/-- A number without its separators, which have to stand between digits. -/
def withoutSeparators (isDigit : Char → Bool) (written : List Char)
    (read : List Char → Except Error Numeral) : Except Error Numeral :=
  match misplaced? isDigit written [] false written with
  | some shown => .error (.separators shown)
  | none => read (written.filter (· != '_'))

/-- The number of digits that may be separated by underscores. -/
def read (s : String) : Except Error Numeral :=
  let isHexDigit (c : Char) : Bool := (hexValue? c).isSome
  let decimal (cs : List Char) : Except Error Numeral :=
    if isDecimal cs then withoutSeparators Char.isDigit cs ofDecimal else .error .stray
  match s.toList with
  | '0' :: x :: d :: rest =>
    if (x = 'x' ∨ x = 'X') ∧ isHexDigit d then
      if rest.all fun c => isHexDigit c || c == '_' then
        withoutSeparators isHexDigit ('0' :: x :: d :: rest) fun cs => ofHex (cs.drop 2)
      else .error .stray
    else decimal ('0' :: x :: d :: rest)
  | cs => decimal cs

end Numeral

end ResourceTable.Sql
