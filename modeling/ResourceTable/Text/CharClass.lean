/-!
# Classes of characters

A class of characters is the list of its code point ranges, both ends included.
The ranges of a class ascend, and the tables that other modules keep are those of
version 17 of the character database.

## Main definitions

* `CharClass`: the classes, with `CharClass.contains`.
* `isNameStart`, `isNamePart`: the ASCII letters, digits and underscore
  that names are made of.
-/

namespace ResourceTable

/-- A class of characters, as ranges of code points. -/
abbrev CharClass := List (Nat × Nat)

namespace CharClass

/-- Whether a range of the class holds the character. -/
def contains (table : CharClass) (c : Char) : Bool :=
  table.any fun range => range.1 ≤ c.toNat && c.toNat ≤ range.2

@[simp] theorem contains_nil (c : Char) : contains [] c = false := rfl

theorem contains_iff {table : CharClass} {c : Char} :
    table.contains c ↔ ∃ range ∈ table, range.1 ≤ c.toNat ∧ c.toNat ≤ range.2 := by
  simp [contains]

end CharClass

/-- Whether a name may begin with the character: an ASCII letter or `_`. -/
def isNameStart (c : Char) : Bool := c.isAlpha || c == '_'

/-- Whether a name may go on with the character: an ASCII letter or digit or `_`. -/
def isNamePart (c : Char) : Bool := c.isAlphanum || c == '_'

/-- A text of name characters, not empty. -/
def isIdentifier (s : List Char) : Bool := !s.isEmpty && s.all isNamePart

theorem isNamePart_of_isNameStart {c : Char} (h : isNameStart c) : isNamePart c := by
  simp only [isNameStart, isNamePart, Char.isAlphanum, Bool.or_eq_true] at *
  exact h.elim (fun h => .inl (.inl h)) .inr

end ResourceTable
