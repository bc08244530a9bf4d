import Mathlib.Data.List.Chain
import ResourceTable.Binding
import ResourceTable.Proofs.FreshName

/-!
# Printed statements

Statements are printed from a few kinds of ink: words, numbers, marks, quoted texts,
blanks, and holes in the place of bound values.  A print is legible if every ink is
what its kind says and no two neighbours run into each other; the readers of SQL
text then find in it what it was printed from.

## Main definitions

* `Ink`, `Ink.chars`, `print`: ink and its characters.
* `Ink.IsSound`, `Ink.joins`, `Legible`: prints that can be read.
* `Ink.spread`, `spreadAll`: a hole for every value of a parameter.

## Main results

* `Legible.append` — legible prints one after the other are legible, if the inks that
  meet do not run into each other.
* `Legible.spreadAll` — spreading the holes keeps a print legible.
-/

namespace ResourceTable

/-- What statements are printed from, with holes for `α`. -/
inductive Ink (α : Type)
  /-- A bare word. -/
  | word (s : String)
  /-- A natural number, or a name that begins like one. -/
  | digits (s : String)
  /-- A punctuation mark or an operator. -/
  | mark (s : String)
  /-- A text in single quotes. -/
  | quoted (s : String)
  /-- A name in double quotes. -/
  | title (s : String)
  /-- A blank. -/
  | blank
  /-- A place for bound values. -/
  | hole (a : α)

namespace Ink

variable {α β : Type}

/-- The ink with other things in its holes. -/
def map (f : α → β) : Ink α → Ink β
  | word s => word s
  | digits s => digits s
  | mark s => mark s
  | quoted s => quoted s
  | title s => title s
  | blank => blank
  | hole a => hole (f a)

/-- The characters of an ink, given those of the holes. -/
def chars (fill : α → List Char) : Ink α → List Char
  | word s => s.toList
  | digits s => s.toList
  | mark s => s.toList
  | quoted s => '\'' :: (s.toList ++ ['\''])
  | title s => '"' :: (s.toList ++ ['"'])
  | blank => [' ']
  | hole a => fill a

@[simp] theorem chars_map (f : α → β) (fill : β → List Char) (i : Ink α) :
    (i.map f).chars fill = i.chars (fill ∘ f) := by
  cases i <;> rfl

/-! ### Legibility -/

/-- The marks that statements are printed with. -/
def printedMarks : List String :=
  ["(", ")", ",", "*", "=", "!=", ">", ">=", "<", "<=", "->>"]

/-- The marks that no other mark begins with. -/
def closedMarks : List String := ["(", ")", ",", "*"]

/-- Whether an ink is what its kind says: a word is a bare name, a number begins with a
digit, a mark is one of those printed, and quoted text holds none of its quotes. -/
def IsSound : Ink α → Prop
  | word s => isBareName s.toList = true
  | digits s => isIdentifier s.toList = true ∧ ∀ c ∈ s.toList.head?, c.isDigit = true
  | mark s => s ∈ printedMarks
  | quoted s => '\'' ∉ s.toList
  | title s => '"' ∉ s.toList
  | blank => True
  | hole _ => True

theorem isSound_comma : (mark "," : Ink α).IsSound := by
  show "," ∈ printedMarks
  decide

/-- Whether an ink can directly follow another one. -/
def joins : Ink α → Ink β → Bool
  | word _, word _ | word _, digits _ | word _, hole _ => false
  | digits _, word _ | digits _, digits _ | digits _, hole _ => false
  | hole _, word _ | hole _, digits _ | hole _, hole _ => false
  | mark s, mark _ | mark s, hole _ => closedMarks.contains s
  | quoted _, quoted _ | title _, title _ => false
  | _, _ => true

@[simp] theorem joins_map_left {γ : Type} (f : α → β) (i : Ink α) (j : Ink γ) :
    (i.map f).joins j = i.joins j := by
  cases i <;> cases j <;> rfl

@[simp] theorem joins_map_right {γ : Type} (f : α → β) (i : Ink γ) (j : Ink α) :
    i.joins (j.map f) = i.joins j := by
  cases i <;> cases j <;> rfl

theorem isSound_map (f : α → β) (i : Ink α) : (i.map f).IsSound ↔ i.IsSound := by
  cases i <;> exact Iff.rfl

@[simp] theorem blank_joins (i : Ink α) : (blank : Ink β).joins i = true := by
  cases i <;> rfl

@[simp] theorem joins_blank (i : Ink α) : i.joins (blank : Ink β) = true := by
  cases i <;> rfl

end Ink

/-- The characters of a print. -/
def print {α : Type} (fill : α → List Char) (is : List (Ink α)) : List Char :=
  is.flatMap (Ink.chars fill)

section Print

variable {α β : Type} {a b : List (Ink α)}

@[simp] theorem print_nil (fill : α → List Char) : print fill [] = [] := rfl

theorem print_cons (fill : α → List Char) (i : Ink α) (is : List (Ink α)) :
    print fill (i :: is) = i.chars fill ++ print fill is := rfl

theorem print_append (fill : α → List Char) (a b : List (Ink α)) :
    print fill (a ++ b) = print fill a ++ print fill b :=
  List.flatMap_append

theorem print_map (f : α → β) (fill : β → List Char) (is : List (Ink α)) :
    print fill (is.map (Ink.map f)) = print (fill ∘ f) is := by
  unfold print
  rw [List.flatMap_map]
  exact congrArg (fun g => is.flatMap g) (funext fun i => Ink.chars_map f fill i)

/-- A print that can be read: its inks are what they say, and neighbours stay apart. -/
structure Legible (is : List (Ink α)) : Prop where
  /-- Every ink is what its kind says. -/
  sound : ∀ i ∈ is, i.IsSound
  /-- No ink runs into the next one. -/
  chain : is.IsChain fun i j => i.joins j = true

namespace Legible

theorem nil : Legible ([] : List (Ink α)) := ⟨by simp, .nil⟩

theorem tail {i : Ink α} {is : List (Ink α)} (h : Legible (i :: is)) : Legible is :=
  ⟨(List.forall_mem_cons.1 h.sound).2, (List.isChain_cons.1 h.chain).2⟩

/-- Legible prints one after the other are legible, if the inks that meet do not run
into each other. -/
theorem append (ha : Legible a) (hb : Legible b)
    (hmeet : ∀ i ∈ a.getLast?, ∀ j ∈ b.head?, i.joins j = true) : Legible (a ++ b) := by
  refine ⟨fun i hi => ?_, ha.chain.append hb.chain hmeet⟩
  rcases List.mem_append.1 hi with hi | hi
  · exact ha.sound i hi
  · exact hb.sound i hi

theorem map (f : α → β) {is : List (Ink α)} (h : Legible is) : Legible (is.map (Ink.map f)) := by
  refine ⟨fun i hi => ?_, ?_⟩
  · obtain ⟨j, hj, rfl⟩ := List.mem_map.1 hi
    exact (Ink.isSound_map f j).2 (h.sound j hj)
  · rw [List.isChain_map]
    exact h.chain.imp fun i j hij => by rwa [Ink.joins_map_left, Ink.joins_map_right]

end Legible

end Print

/-! ### A hole for every value -/

namespace Ink

/-- The holes of values after the first, each after a comma. -/
def moreHoles (vs : List Value) : List (Ink Value) :=
  vs.flatMap fun v => [mark ",", blank, hole v]

/-- The holes of values, with commas between them. -/
def holes : List Value → List (Ink Value)
  | [] => []
  | v :: rest => hole v :: moreHoles rest

/-- An ink with a hole for every value of its parameter. -/
def spread : Ink Param → List (Ink Value)
  | hole p => holes p.values
  | word s => [word s]
  | digits s => [digits s]
  | mark s => [mark s]
  | quoted s => [quoted s]
  | title s => [title s]
  | blank => [blank]

theorem holes_cons_cons (v w : Value) (rest : List Value) :
    holes (v :: w :: rest) = [hole v, mark ",", blank] ++ holes (w :: rest) := rfl

theorem print_holes : ∀ vs : List Value,
    print (fun _ => ['?']) (holes vs) = (String.intercalate ", " (vs.map fun _ => "?")).toList := by
  intro vs
  induction vs with
  | nil => rw [List.map_nil, String.intercalate_nil]; rfl
  | cons v rest ih =>
    cases rest with
    | nil => rw [List.map_cons, List.map_nil, String.intercalate_singleton]; rfl
    | cons w more =>
      rw [holes_cons_cons, print_append, ih]
      simp only [List.map_cons, String.intercalate_cons_cons, String.toList_append]
      rfl

theorem head?_holes {vs : List Value} : ∀ i ∈ (holes vs).head?, ∃ v, i = hole v := by
  intro i hi
  cases vs with
  | nil => cases hi
  | cons v rest => exact ⟨v, (Option.some.inj hi).symm⟩

theorem getLast?_holes {vs : List Value} : ∀ i ∈ (holes vs).getLast?, ∃ v, i = hole v := by
  induction vs with
  | nil => intro i hi; cases hi
  | cons v rest ih =>
    intro i hi
    cases rest with
    | nil => exact ⟨v, (Option.some.inj hi).symm⟩
    | cons w more => exact ih i hi

theorem legible_holes (vs : List Value) : Legible (holes vs) := by
  induction vs with
  | nil => exact .nil
  | cons v rest ih =>
    cases rest with
    | nil => exact ⟨List.forall_mem_singleton.2 trivial, .singleton _⟩
    | cons w more =>
      have hfront : Legible [hole v, mark ",", (blank : Ink Value)] := by
        refine ⟨?_, by simp [joins]⟩
        rw [List.forall_mem_cons, List.forall_mem_cons, List.forall_mem_singleton]
        exact ⟨trivial, isSound_comma, trivial⟩
      refine hfront.append ih fun i hi j _ => ?_
      cases hi
      exact blank_joins j

theorem legible_spread {i : Ink Param} (h : i.IsSound) : Legible i.spread := by
  cases i with
  | hole p => exact legible_holes p.values
  | _ => exact ⟨List.forall_mem_singleton.2 h, .singleton _⟩

theorem spread_ne_nil {i : Ink Param} (h : ∀ p, i = hole p → p.values ≠ []) :
    i.spread ≠ [] := by
  cases i with
  | hole p =>
    intro hn
    cases hv : p.values with
    | nil => exact h p rfl hv
    | cons v rest => rw [spread, hv] at hn; cases hn
  | _ => exact List.cons_ne_nil _ _

/-- What can come before an ink can come before its spread form. -/
theorem joins_head?_spread (i : Ink Param) (k : Ink Value) :
    ∀ j ∈ i.spread.head?, k.joins j = k.joins i := by
  intro j hj
  cases i with
  | hole p =>
    obtain ⟨v, rfl⟩ := head?_holes j hj
    cases k <;> rfl
  | _ => cases hj; cases k <;> rfl

/-- What can follow an ink can follow its spread form. -/
theorem getLast?_spread_joins (i k : Ink Param) :
    ∀ j ∈ i.spread.getLast?, j.joins k = i.joins k := by
  intro j hj
  cases i with
  | hole p =>
    obtain ⟨v, rfl⟩ := getLast?_holes j hj
    cases k <;> rfl
  | _ => cases hj; cases k <;> rfl

theorem print_spread (i : Ink Param) :
    print (fun _ => ['?']) i.spread = i.chars fun p => (Query.marks p).toList := by
  cases i with
  | hole p => exact print_holes p.values
  | _ => exact List.append_nil _

end Ink

/-! ### Spread prints -/

/-- A print with a hole for every value of its parameters. -/
def spreadAll (is : List (Ink Param)) : List (Ink Value) := is.flatMap Ink.spread

/-- Every hole of a print stands for a value at least. -/
def NoEmptyHole (is : List (Ink Param)) : Prop := ∀ p, Ink.hole p ∈ is → p.values ≠ []

theorem spreadAll_cons (i : Ink Param) (is : List (Ink Param)) :
    spreadAll (i :: is) = i.spread ++ spreadAll is := rfl

theorem NoEmptyHole.append {a b : List (Ink Param)} (ha : NoEmptyHole a) (hb : NoEmptyHole b) :
    NoEmptyHole (a ++ b) := fun p hp => (List.mem_append.1 hp).elim (ha p) (hb p)

/-- Spreading the holes keeps a print legible. -/
theorem Legible.spreadAll {is : List (Ink Param)} (h : Legible is) (hfull : NoEmptyHole is) :
    Legible (spreadAll is) := by
  induction is with
  | nil => exact .nil
  | cons i rest ih =>
    have hi := (List.forall_mem_cons.1 h.sound).1
    have hrest := ih h.tail fun p hp => hfull p (List.mem_cons_of_mem i hp)
    rw [spreadAll_cons]
    refine (Ink.legible_spread hi).append hrest fun j hj k hk => ?_
    cases rest with
    | nil => cases hk
    | cons next more =>
      have hne : next.spread ≠ [] :=
        Ink.spread_ne_nil fun p hp => hfull p (hp ▸ List.mem_cons_of_mem i List.mem_cons_self)
      rw [spreadAll_cons, List.head?_append_of_ne_nil _ hne] at hk
      rw [Ink.joins_head?_spread next j k hk, Ink.getLast?_spread_joins i next j hj]
      exact (List.isChain_cons_cons.1 h.chain).1

/-- A print in positional form: a question mark for every value. -/
theorem print_spreadAll (is : List (Ink Param)) :
    print (fun _ => ['?']) (spreadAll is) = print (fun p => (Query.marks p).toList) is := by
  induction is with
  | nil => rfl
  | cons i rest ih => rw [spreadAll_cons, print_append, Ink.print_spread, ih, print_cons]

end ResourceTable
