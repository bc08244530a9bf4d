import ResourceTable.Sql.Token

/-!
# Why a statement fails

## Main definitions

* `Fault`: the reasons, with their `message`.
-/

namespace ResourceTable.Sql

/-- Why a statement fails.  Some reasons point to a place in its text, by the number of
bytes before it. -/
inductive Fault
  /-- A token does not belong where it stands. -/
  | unexpected (written : String) (offset : Nat)
  /-- The text ends too early. -/
  | incomplete
  /-- A part of the text is no token. -/
  | unrecognized (written : String) (offset : Option Nat)
  /-- A hexadecimal number has more than 64 bits. -/
  | hexTooBig (written : String) (offset : Nat)
  /-- There are more or fewer values than question marks. -/
  | wrongBindings (given needed : Nat)
  /-- A function does not take so many arguments. -/
  | wrongArguments (function : String) (offset : Nat)
  /-- There is no table of the name. -/
  | noSuchTable (name : String)
  /-- There is no column of the name. -/
  | noSuchColumn (name : String) (offset : Option Nat)
  /-- Rows are ordered by an output that there is not. -/
  | noSuchOutput (outputs : Nat) (offset : Option Nat)
  /-- There is a table of the name already. -/
  | tableExists (name : String)
  /-- There are more or fewer values than columns. -/
  | wrongValueCount (values columns : Nat)
  /-- A text is not a document. -/
  | malformedDocument
  /-- A text is not a path into a document. -/
  | badPath (path : String)
  /-- The key of a row is taken. -/
  | keyTaken (table column : String)
  /-- A column that is required has no value. -/
  | valueRequired (table column : String)
  /-- The number of a row is not an integer. -/
  | notRowNumber
  /-- There are no more numbers for rows. -/
  | full
  deriving DecidableEq, Repr

namespace Fault

/-- The code and what it means, unless the reason lies outside the statement. -/
def code? : Fault → Option (Nat × String)
  | keyTaken _ _ => some (1555, "constraint failed")
  | valueRequired _ _ => some (1299, "constraint failed")
  | notRowNumber => some (20, "datatype mismatch")
  | full => some (13, "database or disk is full")
  | wrongBindings _ _ => none
  | _ => some (1, "SQL logic error")

/-- The place that the reason points to. -/
def offset? : Fault → Option Nat
  | unexpected _ offset | hexTooBig _ offset | wrongArguments _ offset => some offset
  | unrecognized _ offset | noSuchColumn _ offset | noSuchOutput _ offset => offset
  | _ => none

/-- A text with every single quote doubled. -/
def doubleQuotes (s : String) : String :=
  String.ofList (s.toList.flatMap fun c => if c = '\x27' then [c, c] else [c])

/-- The wording. -/
def detail : Fault → String
  | unexpected written _ => "near \"" ++ written ++ "\": syntax error"
  | incomplete => "incomplete input"
  | unrecognized written _ => "unrecognized token: \"" ++ written ++ "\""
  | hexTooBig written _ => "hex literal too big: " ++ written
  | wrongBindings given needed =>
    "Wrong number of parameters passed to query. Got " ++ toString given ++ ", needed " ++
      toString needed
  | wrongArguments function _ => "wrong number of arguments to function " ++ function ++ "()"
  | noSuchTable name => "no such table: " ++ name
  | noSuchColumn name _ => "no such column: " ++ name
  | noSuchOutput outputs _ =>
    "1st ORDER BY term out of range - should be between 1 and " ++ toString outputs
  | tableExists name => "table " ++ name ++ " already exists"
  | wrongValueCount values columns =>
    toString values ++ " values for " ++ toString columns ++ " columns"
  | malformedDocument => "malformed JSON"
  | badPath path => "bad JSON path: '" ++ doubleQuotes path ++ "'"
  | keyTaken table column => "UNIQUE constraint failed: " ++ table ++ "." ++ column
  | valueRequired table column => "NOT NULL constraint failed: " ++ table ++ "." ++ column
  | notRowNumber => "datatype mismatch"
  | full => "database or disk is full"

/-- The message, given the text of the statement. -/
def message (sql : String) (f : Fault) : String :=
  let place :=
    match f.offset? with
    | some offset => " in " ++ sql ++ " at offset " ++ toString offset
    | none => ""
  let code :=
    match f.code? with
    | some (code, meaning) => ": Error code " ++ toString code ++ ": " ++ meaning
    | none => ""
  f.detail ++ place ++ code

end Fault

end ResourceTable.Sql
