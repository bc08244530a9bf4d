import ResourceTable.Text.CharClass

/-!
# Placeholders in SQL text

A placeholder is a colon followed by a name: an ASCII letter or underscore, then
letters, digits and underscores as far as they go.  Text between single or between
double quotes holds no placeholders; a quote that is never closed reaches to the
end.  A statement is therefore a sequence of pieces, each a character or a
placeholder, and substitution replaces the pieces that are placeholders.

## Main definitions

* `Piece`, `Piece.scan`: the pieces of a text.
* `Placeholder.names`: the placeholders of a text in order.
* `Placeholder.substitute`: replaces placeholders.

## Main results

* `scanFrom_append`: the pieces of a text are those of its front, then those of
  its back from the state that the front leaves.
-/

namespace ResourceTable

/-- A piece of SQL text. -/
inductive Piece
  /-- A character. -/
  | char (c : Char)
  /-- A placeholder, by its name. -/
  | placeholder (name : String)
  deriving DecidableEq, Repr

namespace Piece

/-- What the characters read last belong to. -/
inductive Scan
  /-- No quote is open and nothing is pending. -/
  | plain
  /-- Inside the given quotes. -/
  | quoted (quote : Char)
  /-- After a colon. -/
  | colon
  /-- Inside the name of a placeholder, whose characters are kept in reverse. -/
  | name (seen : List Char)
  deriving DecidableEq, Repr

namespace Scan

/-- What a character does when nothing is pending. -/
def enter (c : Char) : List Piece × Scan :=
  if c = '\'' ∨ c = '"' then ([.char c], .quoted c)
  else if c = ':' then ([], .colon)
  else ([.char c], .plain)

/-- The pieces that are pending. -/
def flush : Scan → List Piece
  | .plain => []
  | .quoted _ => []
  | .colon => [.char ':']
  | .name seen => [.placeholder (String.ofList seen.reverse)]

/-- What a character does: the pieces it completes and the next state. -/
def step (c : Char) : Scan → List Piece × Scan
  | .plain => enter c
  | .quoted quote => ([.char c], if c = quote then .plain else .quoted quote)
  | .colon =>
    if isNameStart c then ([], .name [c])
    else ((Scan.colon).flush ++ (enter c).1, (enter c).2)
  | .name seen =>
    if isNamePart c then ([], .name (c :: seen))
    else ((Scan.name seen).flush ++ (enter c).1, (enter c).2)

end Scan

/-- The pieces that a text completes. -/
def completed (s : Scan) : List Char → List Piece
  | [] => []
  | c :: rest => (s.step c).1 ++ completed (s.step c).2 rest

/-- The state that a text leaves. -/
def after (s : Scan) : List Char → Scan
  | [] => s
  | c :: rest => after (s.step c).2 rest

/-- The pieces of the rest of a text. -/
def scanFrom (s : Scan) (cs : List Char) : List Piece := completed s cs ++ (after s cs).flush

/-- The pieces of a text. -/
def scan (cs : List Char) : List Piece := scanFrom .plain cs

/-- The name of a placeholder. -/
def name? : Piece → Option String
  | .char _ => none
  | .placeholder name => some name

/-- The text of a piece, given what replaces placeholders; without a replacement a
placeholder stays. -/
def chars (replace : String → Option String) : Piece → List Char
  | .char c => [c]
  | .placeholder name =>
    match replace name with
    | some s => s.toList
    | none => ':' :: name.toList

theorem completed_append (s : Scan) (a b : List Char) :
    completed s (a ++ b) = completed s a ++ completed (after s a) b := by
  induction a generalizing s with
  | nil => rfl
  | cons c rest ih => simp [completed, after, ih]

theorem after_append (s : Scan) (a b : List Char) : after s (a ++ b) = after (after s a) b := by
  induction a generalizing s with
  | nil => rfl
  | cons c rest ih => simp [after, ih]

/-- The pieces of a concatenation. -/
theorem scanFrom_append (s : Scan) (a b : List Char) :
    scanFrom s (a ++ b) = completed s a ++ scanFrom (after s a) b := by
  simp [scanFrom, completed_append, after_append]

end Piece

namespace Placeholder

/-- The names of the placeholders in order, repeated as often as they occur. -/
def names (sql : String) : List String := (Piece.scan sql.toList).filterMap Piece.name?

/-- The text with each placeholder replaced, where there is a replacement. -/
def substitute (replace : String → Option String) (sql : String) : String :=
  String.ofList ((Piece.scan sql.toList).flatMap (Piece.chars replace))

end Placeholder

end ResourceTable
