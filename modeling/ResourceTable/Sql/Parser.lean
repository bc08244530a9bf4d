import ResourceTable.Sql.Fault
import ResourceTable.Sql.Keyword
import ResourceTable.Sql.Statement

/-!
# Reading statements

Lexemes are read from the front, with one lexeme of look-ahead, so that the first
one that does not belong where it stands is found.  Parts that nest take the depth
that is left to them as an argument; more than a few per lexeme are never needed.

## Main definitions

* `Parse`: reads something from the front of a list of lexemes.
* `Parse.term`, `Parse.test`, `Parse.statement`.
* `Statement.read`: the statement of a text and its bound values.
-/

namespace ResourceTable.Sql

/-- Reads something from the front of a list of lexemes, and leaves the rest. -/
abbrev Parse (α : Type) := StateT (List Lexeme) (Except Fault) α

namespace Parse

/-- The next lexeme does not belong where it stands. -/
def refuse {α : Type} : Parse α := fun lexemes =>
  match lexemes with
  | [] => .error .incomplete
  | l :: _ =>
    if l.token = .stray then .error (.unrecognized l.written (some l.offset))
    else .error (.unexpected l.written l.offset)

/-- The next lexeme, without passing over it. -/
def peek : Parse (Option Lexeme) := fun lexemes => .ok (lexemes.head?, lexemes)

/-- Passes over the next lexeme. -/
def advance : Parse Unit := fun lexemes => .ok ((), lexemes.tail)

/-- Passes over the next lexeme if its token is the given mark. -/
def acceptMark (s : String) : Parse Bool := do
  match ← peek with
  | some ⟨.mark t, _, _⟩ =>
    if t = s then
      advance
      return true
    else return false
  | _ => return false

/-- Passes over the next lexeme, which has to be the given mark. -/
def mark (s : String) : Parse Unit := do
  if ← acceptMark s then return () else refuse

/-- Passes over the next lexeme if it is one of the given keywords. -/
def acceptAny (keywords : List String) : Parse Bool := do
  match ← peek with
  | some ⟨.word s, _, _⟩ =>
    if Keyword.upper s ∈ keywords then
      advance
      return true
    else return false
  | _ => return false

/-- Passes over the next lexeme if it is the given keyword. -/
def accept (keyword : String) : Parse Bool := acceptAny [keyword]

/-- Passes over the next lexemes, which have to be the given keywords. -/
def keywords : List String → Parse Unit
  | [] => return ()
  | s :: rest => do
    if ← accept s then keywords rest else refuse

/-- A name, bare or quoted. -/
def name : Parse String := do
  match ← peek with
  | some ⟨.word s, _, _⟩ =>
    if Keyword.isReserved s then refuse
    else
      advance
      return s
  | some ⟨.name s, _, _⟩ =>
    advance
    return s
  | _ => refuse

/-- One or more parts with commas between them. -/
def separated {α : Type} (part : Parse α) : Nat → Parse (List α)
  | 0 => refuse
  | fuel + 1 => do
    let a ← part
    if ← acceptMark "," then return a :: (← separated part fuel) else return [a]

/-- Something in parentheses. -/
def enclosed {α : Type} (inner : Parse α) : Parse α := do
  mark "("
  let a ← inner
  mark ")"
  return a

/-- A part that is there if the keyword is. -/
def after {α : Type} (keyword : String) (part : Parse α) : Parse (Option α) := do
  if ← accept keyword then return some (← part) else return none

/-! ### Terms -/

/-- A column, after its first name, which stands at an offset. -/
def columnAfter (first : String) (offset : Nat) : Parse Term := do
  if ← acceptMark "." then return .member first (← name) offset else return .column first offset

/-- Two terms with a comma between them. -/
def couple (inner : Parse Term) : Parse (Term × Term) := do
  let a ← inner
  mark ","
  return (a, ← inner)

/-- The value of a number. -/
def numberTerm (l : Lexeme) (written : String) : Except Fault Term :=
  match Numeral.read written with
  | .ok (.natural n) => .ok (.literal (.ofInt n))
  | .ok (.other c) => .ok (.literal c)
  | .ok .oversized => .ok (.oversized written l.offset)
  | .error .stray => .error (.unrecognized written (some l.offset))
  | .error (.separators shown) => .error (.unrecognized shown none)

/-- The arguments of a function; a word about them may come first, and so may an order,
which is not supported. -/
def arguments {α : Type} (inner : Parse α) : Parse α :=
  enclosed do
    let _ ← acceptAny ["DISTINCT", "ALL"]
    if ← accept "ORDER" then refuse else inner

/-- Two arguments. -/
def twoArguments (inner : Parse Term) : Parse (Term × Term) := arguments (couple inner)

/-- A function of a name, if there is one, before its arguments. -/
def call? (l : Lexeme) (s : String) (inner : Parse Term) : Option (Parse Term) :=
  match s.toLower with
  | "now" => some do
    mark "("
    mark ")"
    return .clock .now
  | "lower" => some <| arguments do
    match ← peek with
    | some ⟨.mark ")", _, _⟩ => return .misused s l.offset
    | _ => return .lower (← inner)
  | "json_type" => some do
    let (a, b) ← twoArguments inner
    return .partKind a b
  | "json_array_length" => some do
    let (a, b) ← twoArguments inner
    return .partLength a b
  | _ => none

/-- A word that stands for a value. -/
def constant? (s : String) : Option Term :=
  match Keyword.upper s with
  | "NULL" => some (.literal .null)
  | "TRUE" => some (.literal (.ofInt 1))
  | "FALSE" => some (.literal (.ofInt 0))
  | "CURRENT_DATE" => some (.clock .date)
  | "CURRENT_TIME" => some (.clock .time)
  | "CURRENT_TIMESTAMP" => some (.clock .dateTime)
  | _ => none

/-- A term that begins with a word. -/
def wordTerm (l : Lexeme) (s : String) (inner : Parse Term) : Parse Term := do
  if let some t := constant? s then
    advance
    return t
  if Keyword.opensCall s then
    advance
    refuse
  if Keyword.upper s = "NOT" then
    advance
    return .negated (← inner)
  if Keyword.upper s = "CASE" then
    advance
    let _ ← inner
    refuse
  if Keyword.isReserved s then refuse
  advance
  match ← peek, call? l s inner with
  | some ⟨.mark "(", _, _⟩, some call => call
  | _, _ => columnAfter s l.offset

mutual

/-- A term without operators. -/
def operand : Nat → Parse Term
  | 0 => refuse
  | fuel + 1 => do
    match ← peek with
    | none => refuse
    | some l =>
      match l.token with
      | .bound c =>
        advance
        return .literal c
      | .text s =>
        advance
        return .literal (.text s)
      | .number s =>
        let t ← numberTerm l s
        advance
        return t
      | .name s =>
        advance
        columnAfter s l.offset
      | .word s => wordTerm l s (term fuel)
      | .mark _ | .stray => refuse
termination_by structural fuel => fuel

/-- A term that takes parts of documents. -/
def factor : Nat → Parse Term
  | 0 => refuse
  | fuel + 1 => do
    let a ← operand fuel
    if ← acceptMark "->>" then return .part a (← operand fuel) else return a
termination_by structural fuel => fuel

/-- A term. -/
def term : Nat → Parse Term
  | 0 => refuse
  | fuel + 1 => do
    let a ← factor fuel
    if ← acceptMark "+" then return .plus a (← factor fuel)
    else if ← acceptMark "-" then return .minus a (← factor fuel)
    else return a
termination_by structural fuel => fuel

end

/-! ### Tests -/

/-- The test of a list of one value is a comparison. -/
def listTest (negated : Bool) (a : Term) : List Term → Test
  | [b] => if negated then .among true a [b] else .compare .equal a b
  | items => .among negated a items

/-- The list of an `IN`, after the word. -/
def listed (fuel : Nat) (negated : Bool) (a : Term) : Parse Test := do
  return listTest negated a (← enclosed (separated (term fuel) fuel))

/-- A test of a term, after the term. -/
def testAfter (fuel : Nat) (a : Term) : Parse Test := do
  if ← accept "IN" then listed fuel false a
  else if ← accept "NOT" then
    keywords ["IN"]
    listed fuel true a
  else if ← accept "LIKE" then return .fits .like a (← term fuel)
  else if ← accept "GLOB" then return .fits .glob a (← term fuel)
  else if ← accept "IS" then
    let negated ← accept "NOT"
    keywords ["NULL"]
    return .missing negated a
  else
    match ← peek with
    | some ⟨.mark s, _, _⟩ =>
      match Comparison.ofText? s with
      | some op =>
        advance
        return .compare op a (← term fuel)
      | none => refuse
    | _ => refuse

/-- A test of the elements of a document, after `EXISTS (`. -/
def elementTest (fuel : Nat) (test : Parse Test) : Parse Test := do
  keywords ["SELECT"]
  let _ ← operand fuel
  keywords ["FROM", "JSON_EACH"]
  let (document, path) ← enclosed (couple (term fuel))
  keywords ["WHERE"]
  let t ← test
  mark ")"
  return .someElement document path t

/-- The left-most tests are joined first. -/
def joined (join : Test → Test → Test) : List Test → Parse Test
  | [] => refuse
  | t :: rest => return rest.foldl join t

/-- One or more tests with a keyword between them. -/
def sequence (keyword : String) (part : Parse Test) : Nat → Parse (List Test)
  | 0 => refuse
  | fuel + 1 => do
    let t ← part
    if ← accept keyword then return t :: (← sequence keyword part fuel) else return [t]

/-- Nothing, at a word that begins a statement inside a statement, which is not
supported. -/
def noInnerStatement : Parse Unit := do
  if ← accept "SELECT" then
    let _ ← acceptAny ["GLOB", "NOT"]
    refuse
  if ← accept "WITH" then
    let _ ← accept "GLOB"
    refuse
  if ← accept "VALUES" then refuse

/-- A test in parentheses, after the first of them. -/
def groupAfter (test : Parse Test) : Parse Test := do
  noInnerStatement
  let t ← test
  mark ")"
  return t

mutual

/-- A test that needs no parentheses. -/
def simpleTest : Nat → Parse Test
  | 0 => refuse
  | fuel + 1 => do
    if ← acceptMark "(" then groupAfter (test fuel)
    else if ← accept "EXISTS" then
      mark "("
      elementTest fuel (test fuel)
    else testAfter fuel (← term fuel)
termination_by structural fuel => fuel

/-- A test: `AND` binds closer than `OR`. -/
def test : Nat → Parse Test
  | 0 => refuse
  | fuel + 1 => do
    let conjunction := do joined .both (← sequence "AND" (simpleTest fuel) fuel)
    joined .either (← sequence "OR" conjunction fuel)
termination_by structural fuel => fuel

end

/-- A depth that suffices for so many lexemes: a part in parentheses passes through
fewer than six kinds of parts. -/
def depth (lexemes : Nat) : Nat := 6 * lexemes + 12

/-- The condition of a statement, if it has one: as deep as the lexemes that are left may
nest. -/
def condition : Parse (Option Test) := fun lexemes =>
  after "WHERE" (test (depth lexemes.length)) lexemes

/-! ### Statements -/

/-- The title of a column without one of its own. -/
def defaultTitle : Term → String
  | .column name _ | .member _ name _ => name
  | .literal c => c.asText?.getD "NULL"
  | _ => ""

/-- Passes over the name of the function that counts rows, if its arguments follow; a
column may have that name too. -/
def acceptCount : Parse Bool := fun lexemes =>
  match lexemes with
  | ⟨.word s, _, _⟩ :: ⟨.mark "(", _, _⟩ :: _ =>
    .ok (if Keyword.upper s = "COUNT" then (true, lexemes.tail) else (false, lexemes))
  | _ => .ok (false, lexemes)

/-- What a `SELECT` gives. -/
def output (fuel : Nat) : Parse Output := do
  if ← acceptCount then
    enclosed (mark "*")
    let title ← after "AS" name
    return .count (title.getD "COUNT(*)")
  else
    let t ← term fuel
    let title ← after "AS" name
    return .value t (title.getD (defaultTitle t))

/-- What rows are ordered by. -/
def sortKey (fuel : Nat) : Parse SortKey := do
  let l ← peek
  let t ← term fuel
  match l, t with
  | some ⟨.number s, _, offset⟩, .literal _ =>
    match Numeral.read s with
    | .ok (.natural n) =>
      if n < Nat.pow 2 31 then return .position n offset else return .term t
    | _ => return .term t
  | _, _ => return .term t

/-- The order of rows, after `ORDER`. -/
def sorting (fuel : Nat) : Parse Sorting := do
  keywords ["BY"]
  let key ← sortKey fuel
  if ← accept "DESC" then return ⟨key, true⟩
  else
    let _ ← accept "ASC"
    return ⟨key, false⟩

/-- A natural number. -/
def natural : Parse Nat := do
  match ← peek with
  | some ⟨.number s, _, _⟩ =>
    match Numeral.read s with
    | .ok (.natural n) =>
      advance
      return n
    | _ => refuse
  | _ => refuse

/-- The window of rows, after `LIMIT`. -/
def window : Parse (Nat × Nat) := do
  let limit ← natural
  return (limit, (← after "OFFSET" natural).getD 0)

/-- A `SELECT`, after the word. -/
def selectStatement (fuel : Nat) : Parse SelectStatement := do
  let outputs ← separated (output fuel) fuel
  let table ← after "FROM" name
  let condition ← condition
  let sorting ← after "ORDER" (sorting fuel)
  let window ← after "LIMIT" window
  return ⟨outputs, table, condition, sorting, window⟩

/-- An assignment. -/
def assignment (fuel : Nat) : Parse (String × Term) := do
  let column ← name
  mark "="
  return (column, ← term fuel)

/-- Assignments, after `SET`. -/
def assignments (fuel : Nat) : Parse (List (String × Term)) := separated (assignment fuel) fuel

/-- What an `INSERT` does about a row with the same key, after `ON`. -/
def onConflict (fuel : Nat) : Parse OnConflict := do
  keywords ["CONFLICT"]
  let key ← enclosed name
  keywords ["DO", "UPDATE", "SET"]
  return .update key (← assignments fuel)

/-- An `INSERT`, after the word. -/
def insertStatement (fuel : Nat) : Parse InsertStatement := do
  let replaces ← after "OR" (keywords ["REPLACE"])
  keywords ["INTO"]
  let table ← name
  let columns ←
    if ← acceptMark "(" then
      let columns ← separated name fuel
      mark ")"
      pure columns
    else pure []
  keywords ["VALUES"]
  let values ← enclosed (separated (term fuel) fuel)
  let updates ← after "ON" (onConflict fuel)
  let returning ← after "RETURNING" (separated name fuel)
  let otherwise := if replaces.isSome then OnConflict.replace else .fail
  return ⟨table, columns, values, updates.getD otherwise, returning.getD []⟩

/-- An `UPDATE`, after the word. -/
def updateStatement (fuel : Nat) : Parse Statement := do
  let table ← name
  keywords ["SET"]
  let assignments ← assignments fuel
  return .update table assignments (← condition)

/-- A `DELETE`, after the word. -/
def deleteStatement : Parse Statement := do
  keywords ["FROM"]
  let table ← name
  return .delete table (← condition)

/-- The words of a column's type. -/
def typeWords : Nat → Parse (List String)
  | 0 => refuse
  | fuel + 1 => do
    match ← peek with
    | some ⟨.word s, _, _⟩ =>
      if Keyword.isReserved s then return []
      else
        advance
        return s :: (← typeWords fuel)
    | _ => return []

/-- A column of a new table: its definition, and the primary key that it is. -/
def columnDef (fuel : Nat) : Parse (ColumnDef × Key) := do
  let column ← name
  let type := String.intercalate " " (← typeWords fuel)
  let isKey := (← after "PRIMARY" (keywords ["KEY"])).isSome
  let required := (← after "NOT" (keywords ["NULL"])).isSome
  let key :=
    if !isKey then Key.none
    else if type = "INTEGER" then .rowNumber column
    else .column column
  return (⟨column, .ofTypeName type, required⟩, key)

/-- A `CREATE TABLE`, after `CREATE`. -/
def createStatement (fuel : Nat) : Parse Statement := do
  keywords ["TABLE"]
  let ifAbsent ← after "IF" (keywords ["NOT", "EXISTS"])
  let table ← name
  let columns ← enclosed (separated (columnDef fuel) fuel)
  let key := (columns.map Prod.snd).find? (· != Key.none)
  return .createTable ifAbsent.isSome ⟨table, columns.map Prod.fst, key.getD .none⟩

/-- A statement. -/
def statement (fuel : Nat) : Parse Statement := do
  if ← accept "SELECT" then return .select (← selectStatement fuel)
  else if ← accept "INSERT" then return .insert (← insertStatement fuel)
  else if ← accept "UPDATE" then updateStatement fuel
  else if ← accept "DELETE" then deleteStatement
  else if ← accept "CREATE" then createStatement fuel
  else refuse

/-- A statement that is the whole text. -/
def whole (fuel : Nat) : Parse Statement := do
  let s ← statement fuel
  if (← peek).isSome then refuse else return s

end Parse

namespace Statement

/-- The statement of a text and the values bound to its question marks. -/
def read (sql : String) (cells : List Cell) : Except Fault Statement := do
  let lexemes := Lexeme.scan sql.toList
  let filled := Lexeme.fill lexemes cells
  let (s, _) ← Parse.whole (Parse.depth lexemes.length) filled
  if Lexeme.holes lexemes != cells.length then
    .error (.wrongBindings cells.length (Lexeme.holes lexemes))
  return s

end Statement

end ResourceTable.Sql
