import ResourceTable.Text.Printable

/-!
# Quoted text

Diagnostics quote texts and characters.  The closing quote, the backslash and the
usual controls are escaped by a backslash and a letter, and every other character
without a glyph by its code point in braces.

## Main definitions

* `Text.quoted`, `Text.quotedChar`: the quoted forms.
-/

namespace ResourceTable.Text

/-- The code point of a character in braces. -/
def codePoint (c : Char) : List Char :=
  '\\' :: 'u' :: '\x7b' :: (Nat.toDigits 16 c.toNat ++ ['\x7d'])

/-- One character inside the given quotes. -/
def escape (quote c : Char) : List Char :=
  if c = quote ∨ c = '\\' then ['\\', c]
  else if c.toNat = 0 then ['\\', '0']
  else if c = '\t' then ['\\', 't']
  else if c = '\r' then ['\\', 'r']
  else if c = '\n' then ['\\', 'n']
  else if isPrintable c then [c]
  else codePoint c

/-- A text in double quotes. -/
def quoted (s : String) : String :=
  String.ofList ('"' :: (s.toList.flatMap (escape '"') ++ ['"']))

/-- A character in single quotes. -/
def quotedChar (c : Char) : String :=
  String.ofList ('\'' :: (escape '\'' c ++ ['\'']))

end ResourceTable.Text
