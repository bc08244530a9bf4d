import Mathlib.Data.List.Forall2
import ResourceTable.Text.Pattern

/-!
# What patterns match

The items of a pattern match a text piece by piece: what they match together is what the
first of them match, followed by what the rest match.  A text in escaped form has an item
for each of its characters that takes that character alone, whatever the character is; the
other language of patterns has no such form, and an item that stands for a character may
take others.

## Main definitions

* `Pattern.escapedItem`: the item of a character that was escaped.
* `Pattern.literals`: how many characters of a kind a pattern asks for.

## Main results

* `accepts_append` — **what items match together.**
* `accepts_around` — a pattern with a run before it, and perhaps one behind.
* `accepts_escaped` — **an escaped text matches itself alone.**
* `accepts_ofLike_flatMap` — a like pattern matches what its wildcards are filled with.
* `literals_le_countP` — a text has the characters that its pattern asks for.
-/

namespace ResourceTable

namespace Pattern

variable {same : Char → Char → Bool}

/-! ### Items together -/

theorem Item.one_ne_run : Item.one ≠ .run := nofun

theorem Item.literal_ne_run (c : Char) : Item.literal c ≠ .run := nofun

/-- An item other than a run takes the first character. -/
theorem accepts_cons {item : Item} (hrun : item ≠ .run) {items : List Item} {s : List Char} :
    accepts same (item :: items) s ↔
      ∃ c rest, s = c :: rest ∧ item.takes same c = true ∧ accepts same items rest := by
  cases s with
  | nil =>
    refine ⟨fun h => ?_, fun ⟨_, _, he, _⟩ => nomatch he⟩
    cases item <;> first | exact absurd rfl hrun | cases h
  | cons c rest =>
    have hstep : accepts same (item :: items) (c :: rest) =
        (item.takes same c && accepts same items rest) := by
      cases item <;> first | exact absurd rfl hrun | rfl
    rw [hstep, Bool.and_eq_true]
    constructor
    · rintro ⟨htakes, hrest⟩
      exact ⟨c, rest, rfl, htakes, hrest⟩
    · rintro ⟨d, more, he, htakes, hmore⟩
      obtain ⟨rfl, rfl⟩ := List.cons.inj he
      exact ⟨htakes, hmore⟩

/-- **What items match together** is what the first of them match and what the rest match,
one after the other. -/
theorem accepts_append {xs ys : List Item} : ∀ {s : List Char},
    accepts same (xs ++ ys) s ↔
      ∃ front back, front ++ back = s ∧ accepts same xs front ∧ accepts same ys back := by
  induction xs with
  | nil =>
    intro s
    constructor
    · exact fun h => ⟨[], s, rfl, by rw [accepts_nil]; rfl, h⟩
    · rintro ⟨front, back, rfl, hfront, hback⟩
      rw [accepts_nil, List.isEmpty_iff] at hfront
      rwa [hfront]
  | cons item rest ih =>
    intro s
    rw [List.cons_append]
    by_cases hrun : item = .run
    · subst hrun
      rw [accepts_run]
      constructor
      · rintro ⟨front, back, rfl, hback⟩
        obtain ⟨middle, last, rfl, hmiddle, hlast⟩ := ih.1 hback
        exact ⟨front ++ middle, last, List.append_assoc _ _ _,
          accepts_run.2 ⟨front, middle, rfl, hmiddle⟩, hlast⟩
      · rintro ⟨first, last, rfl, hfirst, hlast⟩
        obtain ⟨front, middle, rfl, hmiddle⟩ := accepts_run.1 hfirst
        exact ⟨front, middle ++ last, (List.append_assoc _ _ _).symm,
          ih.2 ⟨middle, last, rfl, hmiddle, hlast⟩⟩
    · rw [accepts_cons hrun]
      constructor
      · rintro ⟨c, more, rfl, htakes, hmore⟩
        obtain ⟨front, back, rfl, hfront, hback⟩ := ih.1 hmore
        exact ⟨c :: front, back, rfl, (accepts_cons hrun).2 ⟨c, front, rfl, htakes, hfront⟩, hback⟩
      · rintro ⟨first, back, rfl, hfirst, hback⟩
        obtain ⟨c, front, rfl, htakes, hfront⟩ := (accepts_cons hrun).1 hfirst
        exact ⟨c, front ++ back, rfl, htakes, ih.2 ⟨front, back, rfl, hfront, hback⟩⟩

/-- A run behind a pattern, unless the pattern is cut off before it. -/
def ending (cut : Bool) : List Item := if cut then [] else [.run]

theorem accepts_ending {cut : Bool} {s : List Char} :
    accepts same (ending cut) s ↔ (cut = true → s = []) := by
  cases cut with
  | true =>
    show accepts same [] s = true ↔ _
    rw [accepts_nil, List.isEmpty_iff]
    exact ⟨fun h _ => h, fun h => h rfl⟩
  | false =>
    refine ⟨fun _ h => absurd h Bool.false_ne_true, fun _ => ?_⟩
    exact accepts_run.2 ⟨s, [], List.append_nil s, rfl⟩

/-- **A pattern with a run before it, and one behind unless it is cut off**, matches the
texts that contain what the pattern matches, or that end with it. -/
theorem accepts_around {items : List Item} {cut : Bool} {s : List Char} :
    accepts same (.run :: (items ++ ending cut)) s ↔
      ∃ front middle back, front ++ middle ++ back = s ∧ accepts same items middle ∧
        (cut = true → back = []) := by
  rw [accepts_run]
  constructor
  · rintro ⟨front, rest, rfl, hrest⟩
    obtain ⟨middle, back, rfl, hmiddle, hback⟩ := accepts_append.1 hrest
    exact ⟨front, middle, back, List.append_assoc _ _ _, hmiddle, accepts_ending.1 hback⟩
  · rintro ⟨front, middle, back, rfl, hmiddle, hback⟩
    exact ⟨front, middle ++ back, (List.append_assoc _ _ _).symm,
      accepts_append.2 ⟨middle, back, rfl, hmiddle, accepts_ending.2 hback⟩⟩

/-! ### Globs -/

/-- The item of a character that was escaped. -/
def escapedItem (c : Char) : Item :=
  if c = '*' ∨ c = '?' ∨ c = '[' then .set false [(c, c)] else .literal c

theorem escapedItem_ne_run (c : Char) : escapedItem c ≠ .run := by
  unfold escapedItem
  split <;> exact nofun

/-- It takes this character alone. -/
theorem takes_escapedItem (c d : Char) : (escapedItem c).takes (· == ·) d = (c == d) := by
  unfold escapedItem
  split
  · show (([(c, c)].any fun range => decide (range.1 ≤ d) && decide (d ≤ range.2)) != false) = _
    rw [Bool.eq_iff_iff]
    simp [Std.le_antisymm_iff]
  · rfl

/-- Other characters stand for themselves. -/
theorem globItems_literal {c : Char} (hc : ¬ (c = '*' ∨ c = '?' ∨ c = '[')) (rest : List Char) :
    globItems none (c :: rest) = .literal c :: globItems none rest := by
  obtain ⟨hstar, hone, hset⟩ : c ≠ '*' ∧ c ≠ '?' ∧ c ≠ '[' := by
    simpa only [not_or] using hc
  rw [globItems] <;> simp [hstar, hone, hset]

/-- Escaped characters are read as their items. -/
theorem globItems_escape (w rest : List Char) :
    globItems none (globEscape w ++ rest) = w.map escapedItem ++ globItems none rest := by
  induction w with
  | nil => rfl
  | cons c w ih =>
    rw [List.map_cons, List.cons_append, ← ih, globEscape, escapedItem]
    by_cases hc : c = '*' ∨ c = '?' ∨ c = '['
    · rw [if_pos hc, if_pos hc]
      rcases hc with rfl | rfl | rfl <;> rfl
    · rw [if_neg hc, if_neg hc, List.cons_append, globItems_literal hc]

/-- **An escaped text matches itself alone.** -/
theorem accepts_escaped (w : List Char) : ∀ {s : List Char},
    accepts (· == ·) (w.map escapedItem) s ↔ s = w := by
  induction w with
  | nil =>
    intro s
    rw [List.map_nil, accepts_nil, List.isEmpty_iff]
  | cons c w ih =>
    intro s
    rw [List.map_cons, accepts_cons (escapedItem_ne_run c)]
    constructor
    · rintro ⟨d, rest, rfl, htakes, hrest⟩
      rw [takes_escapedItem, beq_iff_eq] at htakes
      rw [htakes, ih.1 hrest]
    · rintro rfl
      exact ⟨c, w, rfl, by rw [takes_escapedItem, beq_self_eq_true], ih.2 rfl⟩

/-! ### Like patterns -/

theorem ofLike_append (a b : List Char) : ofLike (a ++ b) = ofLike a ++ ofLike b :=
  List.map_append

/-- **A like pattern matches what its wildcards are filled with**: runs with any text, and
the others with any one character. -/
theorem accepts_ofLike_flatMap {fill : Char → List Char}
    (hfill : ∀ c, c ≠ '%' → ∃ d, fill c = [d] ∧ (c ≠ '_' → same c d = true)) (w : List Char) :
    accepts same (ofLike w) (w.flatMap fill) := by
  induction w with
  | nil => rw [ofLike, List.map_nil, accepts_nil]; rfl
  | cons c w ih =>
    rw [ofLike, List.map_cons, ← ofLike, List.flatMap_cons]
    by_cases hrun : c = '%'
    · rw [if_pos hrun]
      exact accepts_run.2 ⟨fill c, w.flatMap fill, rfl, ih⟩
    · obtain ⟨d, hd, hsame⟩ := hfill c hrun
      rw [if_neg hrun, hd]
      by_cases hone : c = '_'
      · rw [if_pos hone]
        exact (accepts_cons Item.one_ne_run).2 ⟨d, w.flatMap fill, rfl, rfl, ih⟩
      · rw [if_neg hone]
        exact (accepts_cons (Item.literal_ne_run c)).2 ⟨d, w.flatMap fill, rfl, hsame hone, ih⟩

/-- It matches the text that it is written as. -/
theorem accepts_ofLike_self (hsame : ∀ c, same c c = true) (w : List Char) :
    accepts same (ofLike w) w := by
  have hfilled : accepts same (ofLike w) (w.flatMap fun c => [c]) :=
    accepts_ofLike_flatMap (fun c _ => ⟨c, rfl, fun _ => hsame c⟩) w
  rwa [List.flatMap_singleton'] at hfilled

/-- Without wildcards it matches the texts whose characters are the same. -/
theorem accepts_ofLike {w : List Char} (hrun : '%' ∉ w) (hone : '_' ∉ w) : ∀ {s : List Char},
    accepts same (ofLike w) s ↔ List.Forall₂ (fun c d => same c d = true) w s := by
  induction w with
  | nil =>
    intro s
    rw [ofLike, List.map_nil, accepts_nil, List.isEmpty_iff, List.forall₂_nil_left_iff]
  | cons c w ih =>
    intro s
    obtain ⟨hc, hw⟩ := not_or.1 (mt List.mem_cons.2 hrun)
    obtain ⟨hc', hw'⟩ := not_or.1 (mt List.mem_cons.2 hone)
    rw [ofLike, List.map_cons, ← ofLike, if_neg (Ne.symm hc), if_neg (Ne.symm hc'),
      accepts_cons (Item.literal_ne_run c), List.forall₂_cons_left_iff]
    constructor
    · rintro ⟨d, rest, rfl, htakes, hrest⟩
      exact ⟨d, rest, htakes, (ih hw hw').1 hrest, rfl⟩
    · rintro ⟨d, rest, htakes, hrest, rfl⟩
      exact ⟨d, rest, rfl, htakes, (ih hw hw').2 hrest⟩

/-! ### Counting -/

/-- Whether the item stands for a character of the kind. -/
def Item.asksFor (p : Char → Bool) : Item → Bool
  | .literal c => p c
  | _ => false

/-- How many characters of the kind a pattern asks for. -/
def literals (p : Char → Bool) (items : List Item) : Nat := items.countP (Item.asksFor p)

/-- **A text has the characters that its pattern asks for**, if no character of the kind is
taken for one that is not. -/
theorem literals_le_countP {p : Char → Bool} (hsame : ∀ c d, same c d = true → p c = p d) :
    ∀ {items : List Item} {s : List Char}, accepts same items s →
      literals p items ≤ s.countP p := by
  intro items
  induction items with
  | nil => exact fun _ => Nat.zero_le _
  | cons item items ih =>
    intro s h
    by_cases hrun : item = .run
    · subst hrun
      obtain ⟨front, back, rfl, hback⟩ := accepts_run.1 h
      rw [literals, List.countP_cons_of_neg Bool.false_ne_true, ← literals, List.countP_append]
      exact Nat.le_trans (ih hback) (Nat.le_add_left _ _)
    · obtain ⟨c, rest, rfl, htakes, hrest⟩ := (accepts_cons hrun).1 h
      rw [literals, List.countP_cons, ← literals, List.countP_cons]
      refine Nat.add_le_add (ih hrest) ?_
      cases item with
      | literal d =>
        have hkind : p d = p c := hsame d c htakes
        exact Nat.le_of_eq (by rw [Item.asksFor, hkind])
      | _ => exact Nat.zero_le _

theorem literals_append (p : Char → Bool) (xs ys : List Item) :
    literals p (xs ++ ys) = literals p xs + literals p ys :=
  List.countP_append

/-- The literal items of a like pattern are its characters other than wildcards. -/
theorem literals_ofLike {p : Char → Bool} (hrun : p '%' = false) (hone : p '_' = false)
    (w : List Char) : literals p (ofLike w) = w.countP p := by
  rw [literals, ofLike, List.countP_map]
  refine List.countP_congr fun c _ => ?_
  rw [Function.comp_apply]
  by_cases hc : c = '%'
  · rw [if_pos hc, hc, hrun]
    rfl
  · by_cases hc' : c = '_'
    · rw [if_neg hc, if_pos hc', hc', hone]
      rfl
    · rw [if_neg hc, if_neg hc']
      rfl

end Pattern

end ResourceTable
