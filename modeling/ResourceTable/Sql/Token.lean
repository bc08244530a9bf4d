import ResourceTable.Sql.Cell
import ResourceTable.Text.CharClass

/-!
# Tokens of SQL text

## Main definitions

* `Token`: words, quoted names, quoted texts, numbers, marks and bound values.
* `Lexeme`: a token at its place in a text.
* `Lexeme.scan`: the lexemes of a text.
* `Lexeme.fill`: puts bound values in the place of question marks.

## Main results

* `completed_append`: the lexemes of a text are those of its front, then those of
  its back from the state that the front leaves.
-/

namespace ResourceTable.Sql

/-- A token of SQL text. -/
inductive Token
  /-- A bare word: a keyword or a name. -/
  | word (s : String)
  /-- A name in double quotes. -/
  | name (s : String)
  /-- A text in single quotes. -/
  | text (s : String)
  /-- A number, as it is written. -/
  | number (s : String)
  /-- A punctuation mark or an operator. -/
  | mark (s : String)
  /-- A value bound to a question mark. -/
  | bound (c : Cell)
  /-- What is no token. -/
  | stray
  deriving DecidableEq

/-- A token at its place in a text. -/
structure Lexeme where
  /-- The token. -/
  token : Token
  /-- The token as it is written. -/
  written : String
  /-- The number of bytes before it. -/
  offset : Nat
  deriving DecidableEq

namespace Lexeme

/-- The number of bytes of characters. -/
def byteCount (cs : List Char) : Nat := cs.foldl (fun n c => n + c.utf8Size) 0

/-- The punctuation marks and operators. -/
def marks : List String :=
  ["(", ")", ",", ".", ";", "*", "/", "%", "+", "-", "->", "->>", "=", "==", "!=", "<", "<=",
    "<>", "<<", ">", ">=", ">>", "&", "|", "||", "~", "?"]

/-- Whether a word may begin with the character. -/
def startsWord (c : Char) : Bool := isNameStart c || 128 ≤ c.toNat

/-- Whether a word or a number may go on with the character. -/
def continuesWord (c : Char) : Bool := isNamePart c || c == '$' || 128 ≤ c.toNat

/-- What pending characters belong to. -/
inductive Kind
  /-- Nothing is pending. -/
  | between
  /-- A word. -/
  | word
  /-- A number. -/
  | number
  /-- A mark. -/
  | mark
  /-- Quoted text. -/
  | quoted (quote : Char)
  /-- Quoted text that has ended, unless the quote is doubled. -/
  | closed (quote : Char)
  deriving DecidableEq, Repr

/-- The characters that are pending. -/
structure Scan where
  /-- What they belong to. -/
  kind : Kind
  /-- The characters, in reverse. -/
  seen : List Char
  /-- The number of bytes before them. -/
  start : Nat
  deriving DecidableEq, Repr

namespace Scan

/-- Nothing is pending after so many bytes. -/
def between (offset : Nat) : Scan := ⟨.between, [], offset⟩

/-- The number of bytes up to the end of the pending characters. -/
def stop (s : Scan) : Nat := s.start + byteCount s.seen

/-- A quoted text without its quotes, and with single ones for doubled ones. -/
def unquoted (quote : Char) : List Char → List Char
  | [] => []
  | [c] => if c = quote then [] else [c]
  | c :: d :: rest =>
    if c = quote ∧ d = quote then quote :: unquoted quote rest else c :: unquoted quote (d :: rest)

/-- The token of the pending characters, if there are any. -/
def token? (s : Scan) : Option Token :=
  let cs := s.seen.reverse
  match s.kind with
  | .between => none
  | .word => some (.word (String.ofList cs))
  | .number => some (.number (String.ofList cs))
  | .mark => some (if String.ofList cs ∈ marks then .mark (String.ofList cs) else .stray)
  | .quoted _ => some .stray
  | .closed quote =>
    let inner := String.ofList (unquoted quote cs.tail)
    some (if quote = '"' then .name inner else .text inner)

/-- The lexeme that is pending. -/
def flush (s : Scan) : List Lexeme :=
  match s.token? with
  | some t => [⟨t, String.ofList s.seen.reverse, s.start⟩]
  | none => []

/-- One more character of the same lexeme. -/
def push (s : Scan) (c : Char) : Scan := { s with seen := c :: s.seen }

/-- Begins a lexeme after so many bytes. -/
def enter (offset : Nat) (c : Char) : Scan :=
  if NumberText.isBlank c then between (offset + c.utf8Size)
  else if startsWord c then ⟨.word, [c], offset⟩
  else if c.isDigit then ⟨.number, [c], offset⟩
  else if c = '"' ∨ c = '\x27' then ⟨.quoted c, [c], offset⟩
  else ⟨.mark, [c], offset⟩

/-- Ends the pending lexeme and begins another one. -/
def restart (s : Scan) (c : Char) : List Lexeme × Scan := (s.flush, enter s.stop c)

/-- What a character does: the lexemes it completes and what is pending then. -/
def step (s : Scan) (c : Char) : List Lexeme × Scan :=
  match s.kind with
  | .between => s.restart c
  | .word | .number => if continuesWord c then ([], s.push c) else s.restart c
  | .mark =>
    if String.ofList (c :: s.seen).reverse ∈ marks then ([], s.push c) else s.restart c
  | .quoted quote =>
    if c = quote then ([], { s.push c with kind := .closed quote }) else ([], s.push c)
  | .closed quote =>
    if c = quote then ([], { s.push c with kind := .quoted quote }) else s.restart c

end Scan

/-- The lexemes that a text completes, and what is pending then. -/
def completed (s : Scan) : List Char → List Lexeme × Scan
  | [] => ([], s)
  | c :: rest =>
    let (first, s) := s.step c
    let (more, s) := completed s rest
    (first ++ more, s)

/-- The lexemes of a text. -/
def scan (cs : List Char) : List Lexeme :=
  let (lexemes, s) := completed (.between 0) cs
  lexemes ++ s.flush

theorem completed_append (s : Scan) (a b : List Char) :
    completed s (a ++ b) =
      ((completed s a).1 ++ (completed (completed s a).2 b).1,
        (completed (completed s a).2 b).2) := by
  induction a generalizing s with
  | nil => simp [completed]
  | cons c rest ih => simp [completed, ih, List.append_assoc]

/-- The number of question marks. -/
def holes (lexemes : List Lexeme) : Nat := lexemes.countP fun l => l.token == .mark "?"

/-- Puts bound values in the place of question marks, in order. -/
def fill : List Lexeme → List Cell → List Lexeme
  | [], _ => []
  | l :: rest, cells =>
    if l.token = .mark "?" then
      { l with token := .bound (cells.head?.getD .null) } :: fill rest cells.tail
    else l :: fill rest cells

end Lexeme

end ResourceTable.Sql
