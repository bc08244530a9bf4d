import ResourceTable.Calendar.Text
import ResourceTable.Sql.Document.Path
import ResourceTable.Sql.Keyword
import ResourceTable.Sql.Statement
import ResourceTable.Text.Lowercase
import ResourceTable.Text.Pattern

/-!
# Evaluation

A test of a row holds, does not hold, or is unknown, which a comparison with a
missing value is.  A statement acts on the rows for which its test holds, and finds
them without asking more than it needs: a document that cannot be read makes the
statement fail only where it is looked at.

## Main definitions

* `Truth`: the three truth values, with `Truth.both` and `Truth.either`.
* `Scope`: what the columns of a row stand for.
* `Term.value`, `Test.truth`.
* `Test.holds`: whether a test holds, decided as early as possible.

## Main results

* `holds_of_truth`: what a test's value is decides whether it holds.
-/

namespace ResourceTable.Sql

/-! ### Truth -/

/-- A truth value. -/
inductive Truth
  | yes
  | no
  | unknown
  deriving DecidableEq, Repr, Inhabited

namespace Truth

/-- The truth value of a decision. -/
def ofBool : Bool → Truth
  | true => yes
  | false => no

/-- Whether both hold. -/
def both : Truth → Truth → Truth
  | yes, t => t
  | no, _ => no
  | unknown, no => no
  | unknown, _ => unknown

/-- Whether one of the two holds. -/
def either : Truth → Truth → Truth
  | yes, _ => yes
  | no, t => t
  | unknown, yes => yes
  | unknown, _ => unknown

/-- Whether it does not hold. -/
def negate : Truth → Truth
  | yes => no
  | no => yes
  | unknown => unknown

/-- Whether it does not hold, if that is asked. -/
def negateIf (negated : Bool) (t : Truth) : Truth := if negated then t.negate else t

/-- Whether one of a list holds. -/
def any : List Truth → Truth
  | [] => no
  | t :: rest => t.either (any rest)

/-- Whether it holds. -/
def holds (t : Truth) : Bool := t == yes

@[simp] theorem holds_both (s t : Truth) : (s.both t).holds = (s.holds && t.holds) := by
  cases s <;> cases t <;> rfl

@[simp] theorem holds_either (s t : Truth) : (s.either t).holds = (s.holds || t.holds) := by
  cases s <;> cases t <;> rfl

end Truth

/-! ### The clock -/

/-- What a part of the clock shows at a time. -/
def ClockPart.shown (t : Timestamp) : ClockPart → String
  | now => t.stored
  | date => String.ofList (t.stored.toList.take 10)
  | time => String.ofList ((t.stored.toList.drop 11).take 8)
  | dateTime =>
    String.ofList (t.stored.toList.take 10 ++ ' ' :: (t.stored.toList.drop 11).take 8)

/-! ### Scopes -/

/-- What a column of a row stands for. -/
structure Slot where
  /-- The kind that values of the column are turned into. -/
  affinity : Affinity
  /-- The value. -/
  cell : Cell
  deriving DecidableEq

/-- What the columns of a row stand for, and the clock's reading. -/
structure Scope where
  /-- The column of a name. -/
  column? : String → Option Slot
  /-- The column of the row of a name. -/
  member? : String → String → Option Slot
  /-- The clock's reading. -/
  now : Timestamp

namespace Scope

/-- The scope without columns. -/
def bare (now : Timestamp) : Scope := ⟨fun _ => none, fun _ _ => none, now⟩

/-- The scope with one more column, which hides another of its name. -/
def withColumn (s : Scope) (name : String) (c : Cell) : Scope :=
  { s with
    column? := fun other => if sameName other name then some ⟨.any, c⟩ else s.column? other }

end Scope

/-! ### Terms -/

namespace Term

/-- The affinity that a comparison with the term adapts to. -/
def affinity? (s : Scope) : Term → Option Affinity
  | .column name _ => (s.column? name).map Slot.affinity
  | .member row name _ => (s.member? row name).map Slot.affinity
  | .fixed a _ => some a
  | _ => none

/-- The value of a column. -/
def slotValue (name : String) (offset : Nat) (slot : Option Slot) : Except Fault Cell :=
  match slot with
  | some slot => .ok slot.cell
  | none => .error (.noSuchColumn name (some offset))

/-- The text with the ASCII letters in lower case. -/
def lowerText (s : String) : String := String.ofList (s.toList.map asciiLower)

/-- The value of a term. -/
def value (s : Scope) : Term → Except Fault Cell
  | .literal c => .ok c
  | .oversized written offset => .error (.hexTooBig written offset)
  | .column name offset => slotValue name offset (s.column? name)
  | .member row name offset => slotValue (row ++ "." ++ name) offset (s.member? row name)
  | .fixed a c => .ok (a.adapt c)
  | .clock reading => .ok (.text (reading.shown s.now))
  | .misused function offset => .error (.wrongArguments function offset)
  | .lower t => do
    match (← t.value s).asText? with
    | some text => return .text (lowerText text)
    | none => return .null
  | .negated t => do return (← t.value s).negated
  | .plus a b => do return (← a.value s).plus (← b.value s)
  | .minus a b => do return (← a.value s).minus (← b.value s)
  | .part document path => do
    match ← Document.part? (← document.value s) (← path.value s) with
    | some d => d.value
    | none => return .null
  | .partKind document path => do
    let part ← Document.part? (← document.value s) (← path.value s)
    return (part.map fun d => .text d.kind).getD .null
  | .partLength document path => do
    let part ← Document.part? (← document.value s) (← path.value s)
    return (part.map fun d => .ofInt d.length).getD .null

/-- The columns of the elements of a document. -/
def elementColumns : List String :=
  ["key", "value", "type", "atom", "id", "parent", "fullkey", "path", "json", "root"]

/-- Whether the term names a column of the elements that it is to give. -/
def isElementColumn : Term → Bool
  | .column name _ => elementColumns.any (sameName name)
  | _ => false

/-- The elements of the part of a document under a path.  A column of the elements
themselves has none. -/
def elements (s : Scope) (document path : Term) : Except Fault (List Document) := do
  if document.isElementColumn then return []
  let part ← Document.part? (← document.value s) (← path.value s)
  return (part.map Document.elements).getD []

end Term

/-! ### Tests -/

namespace Comparison

/-- How two values compare; with a missing value that is unknown. -/
def truth (op : Comparison) (a b : Cell) : Truth :=
  if a.isNull || b.isNull then .unknown else .ofBool (op.holds (a.order b))

end Comparison

namespace PatternKind

/-- The text that a pattern sees: up to a null character. -/
def seen (s : String) : List Char := s.toList.takeWhile fun c => c.toNat != 0

/-- Whether the value matches the pattern. -/
def truth (kind : PatternKind) (a pattern : Cell) : Truth :=
  match a.asText?, pattern.asText? with
  | some text, some pattern =>
    match kind with
    | like => .ofBool (Pattern.likeMatches (seen pattern) (seen text))
    | glob => .ofBool (Pattern.globMatches (seen pattern) (seen text))
  | _, _ => .unknown

end PatternKind

namespace Test

/-- How two terms compare. -/
def compareTerms (s : Scope) (op : Comparison) (a b : Term) : Except Fault Truth := do
  let shared := Affinity.shared (a.affinity? s) (b.affinity? s)
  return op.truth (shared.adapt (← a.value s)) (shared.adapt (← b.value s))

/-- Whether a term is one of a list; the values of the list have no affinity. -/
def isAmong (s : Scope) (a : Term) (items : List Term) : Except Fault Truth := do
  let shared := Affinity.shared (a.affinity? s) none
  let c := shared.adapt (← a.value s)
  let cells ← items.mapM (Term.value s)
  return Truth.any (cells.map fun item => Comparison.equal.truth c (shared.adapt item))

/-- The value of a test for a row. -/
def truth (s : Scope) : Test → Except Fault Truth
  | .compare op a b => compareTerms s op a b
  | .among negated a items => do return (← isAmong s a items).negateIf negated
  | .fits kind a pattern => do return kind.truth (← a.value s) (← pattern.value s)
  | .missing negated a => do
    return (Truth.ofBool (← a.value s).isNull).negateIf negated
  | .someElement document path test => do
    let elements ← Term.elements s document path
    let truths ← elements.mapM fun d => do test.truth (s.withColumn "value" (← d.value))
    return .ofBool (truths.any Truth.holds)
  | .both a b => do return (← a.truth s).both (← b.truth s)
  | .either a b => do return (← a.truth s).either (← b.truth s)

/-- Whether the test looks at the elements of a document. -/
def seeksElements : Test → Bool
  | .someElement _ _ _ => true
  | .both a b | .either a b => a.seeksElements || b.seeksElements
  | _ => false

/-- Whether the first of two parts of a test is put off: parts that seek elements come
after those that do not. -/
def putsOff (a b : Test) : Bool := a.seeksElements && !b.seeksElements

/-- Whether a test holds for a row.  Of a test in two parts, the one that comes second
is passed over when the first decides it. -/
def holds (s : Scope) : Test → Except Fault Bool
  | .someElement document path test => do
    (← Term.elements s document path).anyM fun d => do
      test.holds (s.withColumn "value" (← d.value))
  | .both a b =>
    if a.putsOff b then do
      if ← b.holds s then a.holds s else return false
    else do
      if ← a.holds s then b.holds s else return false
  | .either a b =>
    if a.putsOff b then do
      if ← b.holds s then return true else a.holds s
    else do
      if ← a.holds s then return true else b.holds s
  | t => do return (← t.truth s).holds

/-- Whether some tests hold for a row; those after the first that does not are passed
over. -/
def allHold (s : Scope) (tests : List Test) : Except Fault Bool := tests.allM (holds s)

/-! ### Agreement -/

theorem ok_bind {α β : Type} (a : α) (f : α → Except Fault β) : (Except.ok a >>= f) = f a := rfl

theorem bind_eq_ok {α β : Type} {x : Except Fault α} {f : α → Except Fault β} {b : β}
    (h : (x >>= f) = .ok b) : ∃ a, x = .ok a ∧ f a = .ok b := by
  cases x with
  | error e => cases h
  | ok a => exact ⟨a, rfl, h⟩

/-- What holds of an element is decided by its value, and so is whether it holds of
one of them. -/
theorem anyM_of_mapM {α β : Type} {f : α → Except Fault β} {g : α → Except Fault Bool}
    {p : β → Bool} (hfg : ∀ a b, f a = .ok b → g a = .ok (p b)) :
    ∀ {l : List α} {bs : List β}, l.mapM f = .ok bs → l.anyM g = .ok (bs.any p)
  | [], bs, h => by
    cases h
    rfl
  | a :: l, bs, h => by
    rw [List.mapM_cons] at h
    obtain ⟨b, ha, h⟩ := bind_eq_ok h
    obtain ⟨rest, hl, h⟩ := bind_eq_ok h
    cases h
    have ih := anyM_of_mapM hfg hl
    simp only [List.anyM, hfg a b ha, ok_bind, List.any_cons]
    cases p b
    · simpa using ih
    · rfl

/-- A test whose value is known holds exactly if the value says so. -/
theorem holds_of_truth {t : Test} : ∀ {s : Scope} {v : Truth},
    t.truth s = .ok v → t.holds s = .ok v.holds := by
  induction t with
  | both a b iha ihb =>
    intro s v h
    obtain ⟨x, hx, h⟩ := bind_eq_ok h
    obtain ⟨y, hy, h⟩ := bind_eq_ok h
    cases h
    simp only [holds, iha hx, ihb hy, ok_bind, Truth.holds_both]
    cases a.putsOff b <;> cases x.holds <;> cases y.holds <;> rfl
  | either a b iha ihb =>
    intro s v h
    obtain ⟨x, hx, h⟩ := bind_eq_ok h
    obtain ⟨y, hy, h⟩ := bind_eq_ok h
    cases h
    simp only [holds, iha hx, ihb hy, ok_bind, Truth.holds_either]
    cases a.putsOff b <;> cases x.holds <;> cases y.holds <;> rfl
  | someElement document path test ih =>
    intro s v h
    obtain ⟨elements, he, h⟩ := bind_eq_ok h
    obtain ⟨truths, hm, h⟩ := bind_eq_ok h
    cases h
    simp only [holds, he, ok_bind]
    have found := anyM_of_mapM (p := Truth.holds)
      (g := fun d => do test.holds (s.withColumn "value" (← d.value)))
      (fun d x hx => by
        obtain ⟨c, hc, hx⟩ := bind_eq_ok hx
        simp only [hc, ok_bind, ih hx]) hm
    rw [found]
    cases truths.any Truth.holds <;> rfl
  | _ =>
    intro s v h
    simp only [holds, h, ok_bind]
    rfl

end Test

end ResourceTable.Sql
