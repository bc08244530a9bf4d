import ResourceTable.Sql.Cell

/-!
# Statements

The statements that the database executes, as data.

## Main definitions

* `Term`: what has a value.
* `Test`: what holds of a row, does not, or is unknown.
* `Statement`: selecting, inserting, updating, deleting, and creating tables.
-/

namespace ResourceTable.Sql

/-- What the clock shows. -/
inductive ClockPart
  /-- The date and the time of the day, to the microsecond. -/
  | now
  /-- The date. -/
  | date
  /-- The time of the day. -/
  | time
  /-- The date and the time of the day. -/
  | dateTime
  deriving DecidableEq, Repr

/-- What has a value.  What can turn out to be wrong keeps its place in the text of the
statement. -/
inductive Term
  /-- A value. -/
  | literal (c : Cell)
  /-- A hexadecimal number of more than 64 bits, which has no value. -/
  | oversized (written : String) (offset : Nat)
  /-- The value of a column. -/
  | column (name : String) (offset : Nat)
  /-- The value of a column of a row that goes by a name. -/
  | member (row name : String) (offset : Nat)
  /-- A value that stands in the place of a column. -/
  | fixed (a : Affinity) (c : Cell)
  /-- The clock's reading. -/
  | clock (part : ClockPart)
  /-- A function without the arguments that it needs, which has no value. -/
  | misused (function : String) (offset : Nat)
  /-- A text with the ASCII letters in lower case. -/
  | lower (t : Term)
  /-- Whether a number is zero. -/
  | negated (t : Term)
  /-- A sum. -/
  | plus (a b : Term)
  /-- A difference. -/
  | minus (a b : Term)
  /-- The part of a document under a path. -/
  | part (document path : Term)
  /-- The kind of the part of a document under a path. -/
  | partKind (document path : Term)
  /-- The number of elements of the part of a document under a path. -/
  | partLength (document path : Term)
  deriving DecidableEq

/-- How two values are compared. -/
inductive Comparison
  | equal
  | notEqual
  | less
  | lessOrEqual
  | greater
  | greaterOrEqual
  deriving DecidableEq, Repr

namespace Comparison

/-- The operator. -/
def text : Comparison → String
  | equal => "="
  | notEqual => "!="
  | less => "<"
  | lessOrEqual => "<="
  | greater => ">"
  | greaterOrEqual => ">="

/-- Every comparison. -/
def all : List Comparison := [equal, notEqual, less, lessOrEqual, greater, greaterOrEqual]

/-- The comparison of an operator. -/
def ofText? (s : String) : Option Comparison := all.find? (·.text == s)

@[simp] theorem ofText?_text (c : Comparison) : ofText? c.text = some c := by
  cases c <;> decide

/-- Whether the comparison holds of values in the given order. -/
def holds : Comparison → Ordering → Bool
  | equal, o => o == .eq
  | notEqual, o => o != .eq
  | less, o => o == .lt
  | lessOrEqual, o => o != .gt
  | greater, o => o == .gt
  | greaterOrEqual, o => o != .lt

end Comparison

/-- The kinds of patterns. -/
inductive PatternKind
  /-- `%` and `_`, ASCII case ignored. -/
  | like
  /-- `*`, `?` and sets in brackets. -/
  | glob
  deriving DecidableEq, Repr

/-- What holds of a row, does not, or is unknown. -/
inductive Test
  /-- Two values compare. -/
  | compare (op : Comparison) (a b : Term)
  /-- A value is one of a list, or none of it. -/
  | among (negated : Bool) (a : Term) (items : List Term)
  /-- A text matches a pattern. -/
  | fits (kind : PatternKind) (a pattern : Term)
  /-- A value is missing, or is not. -/
  | missing (negated : Bool) (a : Term)
  /-- One of the elements of the part of a document under a path passes a test, in
  which it is the column `value`. -/
  | someElement (document path : Term) (test : Test)
  /-- Both tests hold. -/
  | both (a b : Test)
  /-- One of the tests holds. -/
  | either (a b : Test)
  deriving DecidableEq

/-- What a `SELECT` gives of its rows. -/
inductive Output
  /-- Their number. -/
  | count (title : String)
  /-- A value of every row, under a title. -/
  | value (t : Term) (title : String)
  deriving DecidableEq

namespace Output

/-- The title of the column. -/
def title : Output → String
  | count title => title
  | value _ title => title

/-- The value of every row, if it is one. -/
def term? : Output → Option Term
  | count _ => none
  | value t _ => some t

end Output

/-- What rows are ordered by. -/
inductive SortKey
  /-- A value; a name is first of all the title of an output. -/
  | term (t : Term)
  /-- An output, by its position, and the place where that stands in the text. -/
  | position (n : Nat) (offset : Nat)
  deriving DecidableEq

/-- An order of rows. -/
structure Sorting where
  /-- What decides. -/
  key : SortKey
  /-- Whether the greatest value comes first. -/
  descending : Bool
  deriving DecidableEq

/-- A `SELECT` statement. -/
structure SelectStatement where
  /-- What it gives. -/
  outputs : List Output
  /-- The table; without one there is a single row without columns. -/
  table : Option String
  /-- The test that the rows have to pass. -/
  condition : Option Test
  /-- The order of the rows. -/
  sorting : Option Sorting
  /-- The most rows given, and the number of rows passed over before them. -/
  window : Option (Nat × Nat)
  deriving DecidableEq

/-- What an `INSERT` does about a row with the same key. -/
inductive OnConflict
  /-- It fails. -/
  | fail
  /-- It takes the place of the row. -/
  | replace
  /-- It updates the row; the row that was not inserted goes by `excluded`. -/
  | update (key : String) (assignments : List (String × Term))
  deriving DecidableEq

/-- An `INSERT` statement. -/
structure InsertStatement where
  /-- The table. -/
  table : String
  /-- The columns that are given values; all of them in order, if none is named. -/
  columns : List String
  /-- The values. -/
  values : List Term
  /-- What happens if the key is taken. -/
  onConflict : OnConflict
  /-- The columns of the inserted row that are given back. -/
  returning : List String
  deriving DecidableEq

/-- A column of a table. -/
structure ColumnDef where
  /-- The name. -/
  name : String
  /-- The kind that values are turned into. -/
  affinity : Affinity
  /-- Whether it has to have a value. -/
  required : Bool
  deriving DecidableEq

/-- The primary key of a table. -/
inductive Key
  /-- There is none. -/
  | none
  /-- A column whose values are unique. -/
  | column (name : String)
  /-- An integer column whose values are the numbers of the rows. -/
  | rowNumber (name : String)
  deriving DecidableEq

namespace Key

/-- The column. -/
def name? : Key → Option String
  | none => .none
  | column name => some name
  | rowNumber name => some name

end Key

/-- The definition of a table. -/
structure TableDef where
  /-- The name. -/
  name : String
  /-- The columns in order. -/
  columns : List ColumnDef
  /-- The primary key. -/
  key : Key
  deriving DecidableEq

/-- A statement. -/
inductive Statement
  /-- Gives rows. -/
  | select (s : SelectStatement)
  /-- Adds a row. -/
  | insert (s : InsertStatement)
  /-- Changes rows. -/
  | update (table : String) (assignments : List (String × Term)) (condition : Option Test)
  /-- Drops rows. -/
  | delete (table : String) (condition : Option Test)
  /-- Adds a table. -/
  | createTable (ifAbsent : Bool) (t : TableDef)
  deriving DecidableEq

end ResourceTable.Sql
