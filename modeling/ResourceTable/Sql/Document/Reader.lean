import ResourceTable.Sql.Document

/-!
# Reading documents

Documents are read leniently: keys may stand without quotes, texts in single quotes,
a comma after the last element, numbers in hexadecimal or with a bare point, and
comments between all of these.  A null character ends the text.

## Main definitions

* `Document.blanks`: passes over blanks and comments.
* `Document.read?`: the document of a text.
-/

namespace ResourceTable.Sql.Document

/-! ### Blanks -/

/-- Whether the character is blank. -/
def isBlank (c : Char) : Bool :=
  let n := c.toNat
  (9 ≤ n && n ≤ 13) || n == 0x20 || n == 0xa0 || n == 0x1680 || (0x2000 ≤ n && n ≤ 0x200a) ||
    n == 0x2028 || n == 0x2029 || n == 0x202f || n == 0x205f || n == 0x3000 || n == 0xfeff

/-- Whether the character ends a line. -/
def endsLine (c : Char) : Bool :=
  c == '\n' || c == '\r' || c.toNat == 0x2028 || c.toNat == 0x2029

/-- The text after the end of a comment. -/
def afterComment : List Char → Option (List Char)
  | '*' :: '/' :: rest => some rest
  | _ :: rest => afterComment rest
  | [] => none

/-- Passes over blanks and comments, at most `fuel` of them.  A comment that does not
end is not passed over. -/
def skip : Nat → List Char → List Char
  | 0, cs => cs
  | _ + 1, [] => []
  | fuel + 1, '/' :: rest =>
    match rest with
    | '*' :: more =>
      match afterComment more with
      | some more => skip fuel more
      | none => '/' :: rest
    | '/' :: more => skip fuel ((more.dropWhile fun c => !endsLine c).drop 1)
    | _ => '/' :: rest
  | fuel + 1, c :: rest => if isBlank c then skip fuel rest else c :: rest

/-- Passes over blanks and comments. -/
def blanks (cs : List Char) : List Char := skip cs.length cs

/-! ### Texts -/

/-- A character that stands for itself. -/
def plainUnit (c : Char) : TextUnit :=
  let shown :=
    if c = '"' then ['\\', '"']
    else if c.toNat = 8 then ['\\', 'b']
    else if c = '\t' then ['\\', 't']
    else if c = '\n' then ['\\', 'n']
    else if c.toNat = 12 then ['\\', 'f']
    else if c = '\r' then ['\\', 'r']
    else if c.toNat < 0x20 then '\\' :: 'u' :: paddedHex 4 c.toNat
    else [c]
  ⟨shown, some c.toNat⟩

/-- The end of a line that is passed over.  At the end of a text it stands for a null
character. -/
def lineEnd (delimiter : Char) (rest : List Char) : TextUnit × List Char :=
  (⟨[], if rest.head? = some delimiter then some 0 else none⟩, rest)

/-- A character given by hexadecimal digits. -/
def hexUnit (shown digits : List Char) : Option TextUnit :=
  (natOfHex? digits).map fun n => ⟨shown ++ digits, some n⟩

/-- The code point of a letter after a backslash. -/
def letterPoint? (c : Char) : Option Nat :=
  if c = '"' ∨ c = '\\' ∨ c = '/' then some c.toNat
  else if c = 'b' then some 8
  else if c = 't' then some 9
  else if c = 'n' then some 10
  else if c = 'f' then some 12
  else if c = 'r' then some 13
  else none

/-- What follows a backslash. -/
def escaped (delimiter : Char) : List Char → Option (TextUnit × List Char)
  | [] => none
  | c :: rest =>
    if let some n := letterPoint? c then some (⟨['\\', c], some n⟩, rest)
    else if c = 'u' ∧ 4 ≤ rest.length then
      (hexUnit ['\\', 'u'] (rest.take 4)).map (·, rest.drop 4)
    else if c = 'x' ∧ 2 ≤ rest.length then
      (hexUnit ['\\', 'u', '0', '0'] (rest.take 2)).map (·, rest.drop 2)
    else if c = '\'' then some (⟨['\''], some c.toNat⟩, rest)
    else if c = 'v' then some (⟨"\\u000b".toList, some 11⟩, rest)
    else if c = '0' ∧ !rest.head?.any Char.isDigit then some (⟨"\\u0000".toList, some 0⟩, rest)
    else if c = '\r' ∧ rest.head? = some '\n' then some (lineEnd delimiter (rest.drop 1))
    else if endsLine c then some (lineEnd delimiter rest)
    else none

/-- The units up to the closing quote, at most `fuel` of them. -/
def quotedUnits (delimiter : Char) : Nat → List Char → Option (List TextUnit × List Char)
  | 0, _ | _, [] => none
  | fuel + 1, c :: rest =>
    if c = delimiter then some ([], rest)
    else do
      let (u, rest) ← if c = '\\' then escaped delimiter rest else some (plainUnit c, rest)
      let (more, rest) ← quotedUnits delimiter fuel rest
      return (u :: more, rest)

/-- A text in quotes. -/
def quotedText? : List Char → Option (List TextUnit × List Char)
  | [] => none
  | c :: rest =>
    if c = '"' ∨ c = '\'' then quotedUnits c (rest.length + 1) rest else none

/-! ### Words -/

/-- Whether a bare key may begin with the character. -/
def startsKey (c : Char) : Bool :=
  c.isAlpha || c == '_' || c == '$' || (128 ≤ c.toNat && !isBlank c)

/-- The units of a bare key, at most `fuel` of them. -/
def bareUnits : Nat → List Char → List TextUnit × List Char
  | 0, cs => ([], cs)
  | _, [] => ([], [])
  | fuel + 1, c :: rest =>
    if startsKey c || c.isDigit then
      let (more, rest) := bareUnits fuel rest
      (plainUnit c :: more, rest)
    else if c = '\\' ∧ rest.head? = some 'u' ∧ 5 ≤ rest.length then
      match hexUnit ['\\', 'u'] (rest.tail.take 4) with
      | some u =>
        let (more, rest) := bareUnits fuel (rest.drop 5)
        (u :: more, rest)
      | none => ([], c :: rest)
    else ([], c :: rest)

/-- A word, and the text after it, if the text begins with it in any case and no letter
or digit follows. -/
def afterWord (sameCase : Bool) (word : String) (cs : List Char) : Option (List Char) :=
  let front := cs.take word.length
  let front := if sameCase then front else front.map Char.toLower
  let rest := cs.drop word.length
  if front = word.toList ∧ !rest.head?.any Char.isAlphanum then some rest else none

/-- The words that are documents. -/
def words : List (Bool × String × Document) := [
  (true, "true", .bool true),
  (true, "false", .bool false),
  (true, "null", .null),
  (false, "inf", .fraction "9e999".toList),
  (false, "infinity", .fraction "9e999".toList),
  (false, "nan", .null),
  (false, "qnan", .null),
  (false, "snan", .null)]

/-- A document that is a word. -/
def word? (cs : List Char) : Option (Document × List Char) :=
  words.findSome? fun (sameCase, word, d) => (afterWord sameCase word cs).map (d, ·)

/-- The key of a member.  A key without quotes is not a word that is a document. -/
def key? (cs : List Char) : Option (List TextUnit × List Char) :=
  match quotedText? cs with
  | some r => some r
  | none =>
    if (word? cs).isSome || cs.head?.any Char.isDigit then none
    else
      match bareUnits cs.length cs with
      | ([], _) => none
      | r => some r

/-! ### Numbers -/

/-- The digits after a point, if there is one. -/
def places? : List Char → Option (List Char) × List Char
  | '.' :: rest => (some (rest.takeWhile Char.isDigit), rest.dropWhile Char.isDigit)
  | cs => (none, cs)

/-- A written exponent, which has to have digits. -/
def exponent? : List Char → Option (List Char × List Char)
  | [] => some ([], [])
  | c :: rest =>
    if c = 'e' ∨ c = 'E' then
      let sign := rest.take 1 |>.filter fun s => s == '+' || s == '-'
      let digits := (rest.drop sign.length).takeWhile Char.isDigit
      if digits.isEmpty then none
      else some (c :: sign ++ digits, (rest.drop sign.length).dropWhile Char.isDigit)
    else some ([], c :: rest)

/-- A decimal number after its sign.  A digit is put next to a bare point. -/
def decimal? (negative : Bool) (cs : List Char) : Option (Document × List Char) := do
  let whole := cs.takeWhile Char.isDigit
  let (places, rest) := places? (cs.dropWhile Char.isDigit)
  let (exponent, rest) ← exponent? rest
  let orZero (ds : List Char) : List Char := if ds.isEmpty then ['0'] else ds
  let digits := whole ++ places.getD []
  if digits.isEmpty || (whole.length > 1 && whole.head? == some '0') then failure
  if rest.head?.any fun c => c == '.' || c == 'e' || c == 'E' then failure
  match places, exponent with
  | none, [] => return (.integer (signed negative whole), rest)
  | none, e => return (.fraction (signed negative (whole ++ e)), rest)
  | some ds, e =>
    return (.fraction (signed negative (orZero whole ++ '.' :: (orZero ds ++ e))), rest)

/-- A hexadecimal integer after its sign. -/
def hex? (negative : Bool) : List Char → Option (Document × List Char)
  | '0' :: x :: rest =>
    let digits := rest.takeWhile fun c => (hexValue? c).isSome
    if (x = 'x' ∨ x = 'X') ∧ !digits.isEmpty then
      (natOfHex? digits).map fun n => (.hexInteger negative n, rest.drop digits.length)
    else none
  | _ => none

/-- An infinity after its sign. -/
def infinity? (negative : Bool) (cs : List Char) : Option (Document × List Char) :=
  let starts (word : String) : Bool := (cs.take word.length).map Char.toLower == word.toList
  let d := Document.fraction (signed negative "9e999".toList)
  if starts "infinity" then some (d, cs.drop 8)
  else if starts "inf" then some (d, cs.drop 3)
  else none

/-- A number.  A bare point without a sign has to have a digit after it. -/
def number? : List Char → Option (Document × List Char)
  | [] => none
  | c :: rest =>
    if c = '+' ∨ c = '-' then
      let negative := c == '-'
      ((hex? negative rest).or (infinity? negative rest)).or (decimal? negative rest)
    else if c = '.' ∨ c.isDigit then (hex? false (c :: rest)).or (decimal? false (c :: rest))
    else none

/-! ### Documents -/

/-- A document that has no parts. -/
def scalar? (cs : List Char) : Option (Document × List Char) :=
  (((quotedText? cs).map fun r => (Document.text r.1, r.2)).or (number? cs)).or (word? cs)

mutual

/-- A document, in which containers nest at most `depth` deep. -/
def document? : Nat → Nat → List Char → Option (Document × List Char)
  | 0, _, _ => none
  | fuel + 1, depth, cs =>
    match blanks cs, depth with
    | '[' :: rest, depth + 1 => do
      let (items, rest) ← items? fuel depth rest
      return (.array items, rest)
    | '\x7b' :: rest, depth + 1 => do
      let (members, rest) ← members? fuel depth rest
      return (.object members, rest)
    | cs, _ => scalar? cs
termination_by structural fuel => fuel

/-- The items up to the closing bracket. -/
def items? : Nat → Nat → List Char → Option (List Document × List Char)
  | 0, _, _ => none
  | fuel + 1, depth, cs =>
    match blanks cs with
    | ']' :: rest => some ([], rest)
    | cs => do
      let (d, rest) ← document? fuel depth cs
      match blanks rest with
      | ',' :: rest =>
        let (more, rest) ← items? fuel depth rest
        return (d :: more, rest)
      | ']' :: rest => return ([d], rest)
      | _ => failure
termination_by structural fuel => fuel

/-- The members up to the closing brace. -/
def members? : Nat → Nat → List Char → Option (List (List TextUnit × Document) × List Char)
  | 0, _, _ => none
  | fuel + 1, depth, cs =>
    match blanks cs with
    | '\x7d' :: rest => some ([], rest)
    | cs => do
      let (key, rest) ← key? cs
      match blanks rest with
      | ':' :: rest =>
        let (d, rest) ← document? fuel depth rest
        match blanks rest with
        | ',' :: rest =>
          let (more, rest) ← members? fuel depth rest
          return ((key, d) :: more, rest)
        | '\x7d' :: rest => return ([(key, d)], rest)
        | _ => failure
      | _ => failure
termination_by structural fuel => fuel

end

/-- The deepest nesting of a document. -/
def deepest : Nat := 1000

/-- The document of a text. -/
def read? (s : String) : Option Document :=
  let cs := s.toList.takeWhile fun c => c.toNat != 0
  match document? (2 * cs.length + 2) deepest cs with
  | some (d, rest) => if (blanks rest).isEmpty then some d else none
  | none => none

end ResourceTable.Sql.Document
