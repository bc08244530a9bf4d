import ResourceTable.Text.Lowercase

/-!
# Text patterns

A condition compares a column's text with a pattern in one of two languages.  In
a *glob*, `*` stands for any run of characters, `?` for any one character and
brackets for any one character of a set; in a *like* pattern, `%` and `_` take the
places of `*` and `?`, there are no sets, and the case of ASCII letters is
ignored.  Both are read into the same items, and an item list matches a text in
one way only.

## Main definitions

* `Pattern.Item`: what a pattern is made of.
* `Pattern.ofGlob`, `Pattern.ofLike`: the two languages.
* `Pattern.accepts`: whether a pattern matches a whole text.
* `globEscape`: the glob that matches a given text and nothing else.
-/

namespace ResourceTable

namespace Pattern

/-- One item of a pattern. -/
inductive Item
  /-- Any run of characters, also none. -/
  | run
  /-- Any one character. -/
  | one
  /-- This character. -/
  | literal (c : Char)
  /-- Any one character of the ranges, or outside of them. -/
  | set (inverted : Bool) (ranges : List (Char × Char))
  /-- No character at all: a set that is never closed. -/
  | never
  deriving DecidableEq, Repr

/-- A set whose closing bracket is still to come. -/
structure OpenSet where
  /-- Whether the set holds the characters outside its ranges. -/
  inverted : Bool
  /-- The ranges read so far, the last one first. -/
  ranges : List (Char × Char)
  /-- The single character just read, which a dash makes the start of a range. -/
  start : Option Char
  deriving DecidableEq, Repr

namespace OpenSet

/-- A set with nothing read. -/
def fresh (inverted : Bool) : OpenSet := ⟨inverted, [], none⟩

/-- A set that begins with its own closing bracket as a member. -/
def withBracket (inverted : Bool) : OpenSet := ⟨inverted, [(']', ']')], none⟩

/-- Reads one character. -/
def add (s : OpenSet) (c : Char) : OpenSet := ⟨s.inverted, (c, c) :: s.ranges, some c⟩

/-- Reads a dash and the end of a range. -/
def addRange (s : OpenSet) (low high : Char) : OpenSet :=
  ⟨s.inverted, (low, high) :: s.ranges, none⟩

/-- The item of the closed set. -/
def close (s : OpenSet) : Item := .set s.inverted s.ranges

end OpenSet

/-- The items of the rest of a glob, inside a set or outside. -/
def globItems : Option OpenSet → List Char → List Item
  | none, [] => []
  | some _, [] => [.never]
  | none, '*' :: rest => .run :: globItems none rest
  | none, '?' :: rest => .one :: globItems none rest
  | none, '[' :: '^' :: ']' :: rest => globItems (some (.withBracket true)) rest
  | none, '[' :: '^' :: rest => globItems (some (.fresh true)) rest
  | none, '[' :: ']' :: rest => globItems (some (.withBracket false)) rest
  | none, '[' :: rest => globItems (some (.fresh false)) rest
  | none, c :: rest => .literal c :: globItems none rest
  | some s, ']' :: rest => s.close :: globItems none rest
  | some s, '-' :: c :: rest =>
    match s.start with
    | some low =>
      if c = ']' then globItems (some (s.add '-')) (c :: rest)
      else globItems (some (s.addRange low c)) rest
    | none => globItems (some (s.add '-')) (c :: rest)
  | some s, c :: rest => globItems (some (s.add c)) rest

/-- The items of a glob. -/
def ofGlob (pattern : List Char) : List Item := globItems none pattern

/-- The items of a like pattern. -/
def ofLike (pattern : List Char) : List Item :=
  pattern.map fun c => if c = '%' then .run else if c = '_' then .one else .literal c

/-- A text and all the texts left when characters are dropped from its front. -/
def suffixes : List Char → List (List Char)
  | [] => [[]]
  | c :: rest => (c :: rest) :: suffixes rest

/-- Whether an item other than a run takes the character, with `same` the equality
of characters. -/
def Item.takes (same : Char → Char → Bool) : Item → Char → Bool
  | .run, _ => false
  | .one, _ => true
  | .literal d, c => same d c
  | .set inverted ranges, c =>
    (ranges.any fun range => decide (range.1 ≤ c) && decide (c ≤ range.2)) != inverted
  | .never, _ => false

/-- Whether the items match the whole text. -/
def accepts (same : Char → Char → Bool) : List Item → List Char → Bool
  | [], s => s.isEmpty
  | .run :: items, s => (suffixes s).any (accepts same items)
  | _ :: _, [] => false
  | item :: items, c :: rest => item.takes same c && accepts same items rest

/-- Whether the glob matches the text. -/
def globMatches (pattern text : List Char) : Bool := accepts (· == ·) (ofGlob pattern) text

/-- Whether the like pattern matches the text. -/
def likeMatches (pattern text : List Char) : Bool :=
  accepts (fun c d => asciiLower c == asciiLower d) (ofLike pattern) text

/-! ### Laws -/

theorem mem_suffixes {s t : List Char} : t ∈ suffixes s ↔ ∃ front, front ++ t = s := by
  induction s with
  | nil => simp [suffixes]
  | cons c rest ih =>
    simp only [suffixes, List.mem_cons, ih]
    constructor
    · rintro (rfl | ⟨front, rfl⟩)
      · exact ⟨[], rfl⟩
      · exact ⟨c :: front, rfl⟩
    · rintro ⟨front, h⟩
      cases front with
      | nil => exact .inl h
      | cons d front =>
        injection h with _ h
        exact .inr ⟨front, h⟩

@[simp] theorem accepts_nil (same : Char → Char → Bool) (s : List Char) :
    accepts same [] s = s.isEmpty := by
  cases s <;> rfl

/-- A run matches any front of the text. -/
theorem accepts_run {same : Char → Char → Bool} {items : List Item} {s : List Char} :
    accepts same (.run :: items) s ↔ ∃ front back, front ++ back = s ∧ accepts same items back := by
  simp only [accepts, List.any_eq_true, mem_suffixes]
  constructor
  · rintro ⟨back, ⟨front, h⟩, ha⟩
    exact ⟨front, back, h, ha⟩
  · rintro ⟨front, back, h, ha⟩
    exact ⟨back, ⟨front, h⟩, ha⟩

end Pattern

/-- The glob of a text: every character with a meaning of its own stands alone in
brackets. -/
def globEscape : List Char → List Char
  | [] => []
  | c :: rest =>
    if c = '*' ∨ c = '?' ∨ c = '[' then '[' :: c :: ']' :: globEscape rest
    else c :: globEscape rest

end ResourceTable
