import ResourceTable.Proofs.PrintTokens

/-!
# Finding the placeholders of a print

Before a statement is executed its placeholders are replaced by question marks.  In a
legible print whose holes are bare names after a colon, the placeholders are the
holes: quoted texts hide none, and no name goes on with the ink after it.

## Main definitions

* `named`: a hole as a placeholder.
* `Ink.left`: the state that an ink leaves to the reader of placeholders.

## Main results

* `names_print` — **the placeholders of a print are its holes.**
* `substitute_print` — replacing placeholders fills the holes.
-/

namespace ResourceTable

/-- A hole as a placeholder. -/
def named (name : String) : List Char := ':' :: name.toList

namespace Ink

/-- The pieces of an ink. -/
def pieces : Ink String → List Piece
  | hole name => [.placeholder name]
  | i => (i.chars named).map .char

/-- The state that an ink leaves to the reader of placeholders. -/
def left : Ink String → Piece.Scan
  | hole name => .name name.toList.reverse
  | _ => .plain

/-- Whether the names in the holes of a print can be placeholders. -/
def BareHoles (is : List (Ink String)) : Prop :=
  ∀ name, hole name ∈ is → isBareName name.toList = true

end Ink

namespace Piece

/-! ### Runs of characters -/

/-- Whether a character stands for itself outside of quotes. -/
def isOrdinary (c : Char) : Bool := c ≠ '\x27' && c ≠ '"' && c ≠ ':'

theorem enter_of_isOrdinary {c : Char} (h : isOrdinary c = true) :
    Scan.enter c = ([.char c], .plain) := by
  simp only [isOrdinary, Bool.and_eq_true, decide_eq_true_eq] at h
  rw [Scan.enter, if_neg (not_or.2 h.1), if_neg h.2]

theorem isOrdinary_of_isNamePart {c : Char} (h : isNamePart c = true) : isOrdinary c = true := by
  simp only [isOrdinary, Bool.and_eq_true, decide_eq_true_eq]
  exact ⟨⟨ne_of_isNamePart h (by decide), ne_of_isNamePart h (by decide)⟩,
    ne_of_isNamePart h (by decide)⟩

theorem completed_ordinary : ∀ {cs : List Char}, (∀ c ∈ cs, isOrdinary c = true) →
    completed .plain cs = cs.map .char ∧ after .plain cs = .plain := by
  intro cs
  induction cs with
  | nil => intro _; exact ⟨rfl, rfl⟩
  | cons c rest ih =>
    intro h
    obtain ⟨hc, hrest⟩ := List.forall_mem_cons.1 h
    obtain ⟨hcompleted, hafter⟩ := ih hrest
    have hstep : Scan.step c .plain = ([.char c], .plain) := enter_of_isOrdinary hc
    rw [completed, after, hstep, List.map_cons]
    exact ⟨congrArg (Piece.char c :: ·) hcompleted, hafter⟩

theorem completed_inQuotes {quote : Char} : ∀ {cs : List Char}, quote ∉ cs →
    completed (.quoted quote) (cs ++ [quote]) = (cs ++ [quote]).map .char ∧
      after (.quoted quote) (cs ++ [quote]) = .plain := by
  intro cs
  induction cs with
  | nil => intro _; exact ⟨rfl, if_pos rfl⟩
  | cons c rest ih =>
    intro h
    have hc : c ≠ quote := fun e => h (e ▸ List.mem_cons_self)
    obtain ⟨hcompleted, hafter⟩ := ih fun e => h (List.mem_cons_of_mem c e)
    have hstep : Scan.step c (.quoted quote) = ([.char c], .quoted quote) := by
      rw [Scan.step, if_neg hc]
    rw [List.cons_append, completed, after, hstep, List.map_cons]
    exact ⟨congrArg (Piece.char c :: ·) hcompleted, hafter⟩

/-- The rest of a name is kept. -/
theorem completed_name : ∀ (cs seen : List Char), (∀ c ∈ cs, isNamePart c = true) →
    completed (.name seen) cs = [] ∧ after (.name seen) cs = .name (cs.reverse ++ seen) := by
  intro cs
  induction cs with
  | nil => intro seen _; exact ⟨rfl, rfl⟩
  | cons c rest ih =>
    intro seen h
    obtain ⟨hc, hrest⟩ := List.forall_mem_cons.1 h
    obtain ⟨hcompleted, hafter⟩ := ih (c :: seen) hrest
    have hstep : Scan.step c (.name seen) = ([], .name (c :: seen)) := by
      rw [Scan.step, if_pos hc]
    rw [completed, after, hstep, hcompleted, hafter]
    simp

/-! ### One ink -/

/-- A reader with nothing pending reads an ink as its pieces, the last of which may
still be pending. -/
theorem completed_ink {i : Ink String} (h : i.IsSound)
    (hname : ∀ name, i = .hole name → isBareName name.toList = true) :
    completed .plain (i.chars named) ++ i.left.flush = i.pieces ∧
      after .plain (i.chars named) = i.left := by
  cases i with
  | word s =>
    obtain ⟨hc, ha⟩ := completed_ordinary fun c hc =>
      isOrdinary_of_isNamePart (isNamePart_of_isBareName h c hc)
    exact ⟨(List.append_nil _).trans hc, ha⟩
  | digits s =>
    obtain ⟨hc, ha⟩ := completed_ordinary fun c hc =>
      isOrdinary_of_isNamePart ((isIdentifier_iff.1 h.1).2 c hc)
    exact ⟨(List.append_nil _).trans hc, ha⟩
  | mark s =>
    have hall : ∀ s ∈ Ink.printedMarks, s.toList.all isOrdinary = true := by decide
    obtain ⟨hc, ha⟩ := completed_ordinary (List.all_eq_true.1 (hall s h))
    exact ⟨(List.append_nil _).trans hc, ha⟩
  | quoted s =>
    obtain ⟨hc, ha⟩ := completed_inQuotes h
    exact ⟨(List.append_nil _).trans (congrArg (Piece.char '\x27' :: ·) hc), ha⟩
  | title s =>
    obtain ⟨hc, ha⟩ := completed_inQuotes h
    exact ⟨(List.append_nil _).trans (congrArg (Piece.char '"' :: ·) hc), ha⟩
  | blank => exact ⟨rfl, rfl⟩
  | hole name =>
    have hbare := hname name rfl
    cases hn : name.toList with
    | nil => rw [hn] at hbare; cases hbare
    | cons c rest =>
      rw [hn, isBareName_cons] at hbare
      obtain ⟨hc, ha⟩ := completed_name rest [c] hbare.2
      have hcolon : Scan.step ':' .plain = ([], .colon) := rfl
      have hfirst : Scan.step c .colon = ([], .name [c]) := if_pos hbare.1
      have hleft : Ink.left (.hole name) = .name (rest.reverse ++ [c]) := by
        rw [Ink.left, hn, List.reverse_cons]
      have hflush : (Scan.name (rest.reverse ++ [c])).flush = [.placeholder name] := by
        rw [Scan.flush, List.reverse_append, List.reverse_reverse]
        exact congrArg (fun s => [Piece.placeholder s])
          (String.toList_inj.1 (String.toList_ofList.trans hn.symm))
      rw [Ink.chars, named, hn, completed, completed, after, after, hcolon, hfirst, hc, ha, hleft]
      exact ⟨hflush, rfl⟩

/-! ### Whole prints -/

/-- A state that a character ends is left with what is pending in it. -/
theorem scanFrom_of_step {s : Scan} {c : Char} (rest : List Char)
    (h : s.step c = (s.flush ++ (Scan.enter c).1, (Scan.enter c).2)) :
    scanFrom s (c :: rest) = s.flush ++ scanFrom .plain (c :: rest) := by
  have hplain : Scan.step c .plain = Scan.enter c := rfl
  simp only [scanFrom, completed, after, h, hplain, List.append_assoc]

/-- The ink after a name ends it. -/
theorem step_left {i j : Ink String} (hj : j.IsSound) (h : i.joins j = true) :
    ∀ c ∈ (j.chars named).head?,
      i.left.step c = (i.left.flush ++ (Scan.enter c).1, (Scan.enter c).2) := by
  intro c hc
  cases i with
  | hole name =>
    have hpart : isNamePart c = false := by
      cases j with
      | mark s =>
        have hall : ∀ s ∈ Ink.printedMarks,
            s.toList.head?.all (fun c => !isNamePart c) = true := by decide
        simpa using (Option.all_eq_true _ _).1 (hall s hj) c hc
      | quoted s | title s | blank => cases hc; decide
      | _ => cases h
    rw [Ink.left, Scan.step, if_neg (by simp [hpart])]
  | _ => rfl

theorem chars_ne_nil {i : Ink String} (h : i.IsSound) : i.chars named ≠ [] := by
  cases i with
  | word s =>
    intro hn
    rw [Ink.IsSound, show s.toList = [] from hn] at h
    cases h
  | digits s => exact (isIdentifier_iff.1 h.1).1
  | mark s =>
    have hall : ∀ s ∈ Ink.printedMarks, s.toList ≠ [] := by decide
    exact hall s h
  | _ => exact List.cons_ne_nil _ _

theorem scanFrom_print : ∀ (is : List (Ink String)) (i : Ink String), Legible (i :: is) →
    Ink.BareHoles is →
    scanFrom i.left (print named is) = i.left.flush ++ is.flatMap Ink.pieces := by
  intro is
  induction is with
  | nil => intro i _ _; simp [scanFrom, completed, after]
  | cons j rest ih =>
    intro i h hbare
    have hj := h.tail.sound j List.mem_cons_self
    have hjoins := (List.isChain_cons_cons.1 h.chain).1
    have hrest := ih j h.tail fun name hname => hbare name (List.mem_cons_of_mem j hname)
    obtain ⟨hpieces, hafter⟩ := completed_ink hj fun name hn => hbare name (hn ▸ List.mem_cons_self)
    have hplain : scanFrom .plain (print named (j :: rest)) =
        (j :: rest).flatMap Ink.pieces := by
      rw [print_cons, scanFrom_append, hafter, hrest, ← List.append_assoc, hpieces]
      rfl
    rw [← hplain, print_cons]
    cases hchars : j.chars named with
    | nil => exact absurd hchars (chars_ne_nil hj)
    | cons c more =>
      have hstep := step_left hj hjoins c (by rw [hchars]; rfl)
      exact scanFrom_of_step _ hstep

/-- **A legible print is read as its pieces.** -/
theorem scan_print {is : List (Ink String)} (h : Legible is) (hbare : Ink.BareHoles is) :
    scan (print named is) = is.flatMap Ink.pieces := by
  have hblank : Legible (.blank :: is) := by
    refine ⟨List.forall_mem_cons.2 ⟨trivial, h.sound⟩, ?_⟩
    exact List.isChain_cons.2 ⟨fun j _ => Ink.blank_joins j, h.chain⟩
  exact scanFrom_print is .blank hblank hbare

end Piece

/-! ### Names and substitution -/

namespace Ink

/-- The names among the pieces of an ink. -/
theorem names_pieces (i : Ink String) : i.pieces.filterMap Piece.name? = i.hole?.toList := by
  have hplain (cs : List Char) : (cs.map Piece.char).filterMap Piece.name? = [] := by
    rw [List.filterMap_map]
    exact List.filterMap_eq_nil_iff.2 fun _ _ => rfl
  cases i with
  | hole name => rfl
  | _ => exact hplain _

/-- The pieces of an ink with replacements for its name. -/
theorem chars_pieces (replace : String → Option String) (i : Ink String) :
    i.pieces.flatMap (Piece.chars replace) =
      i.chars fun name => (replace name).elim (named name) String.toList := by
  have hplain (cs : List Char) : (cs.map Piece.char).flatMap (Piece.chars replace) = cs := by
    rw [List.flatMap_map]
    exact List.flatMap_singleton' cs
  cases i with
  | hole name =>
    show (Piece.placeholder name).chars replace ++ [] = _
    rw [List.append_nil, Piece.chars, chars]
    cases replace name <;> rfl
  | _ => exact hplain _

end Ink

variable {is : List (Ink String)}

/-- **The placeholders of a print are its holes**, in order. -/
theorem names_print (h : Legible is) (hbare : Ink.BareHoles is) :
    Placeholder.names (String.ofList (print named is)) = holesOf is := by
  rw [Placeholder.names, String.toList_ofList, Piece.scan_print h hbare, List.filterMap_flatMap,
    holesOf, List.filterMap_eq_flatMap_toList]
  exact List.flatMap_congr fun i _ => Ink.names_pieces i

/-- Replacing placeholders fills the holes. -/
theorem substitute_print (h : Legible is) (hbare : Ink.BareHoles is)
    (replace : String → Option String) :
    Placeholder.substitute replace (String.ofList (print named is)) =
      String.ofList (print (fun name => (replace name).elim (named name) String.toList) is) := by
  rw [Placeholder.substitute, String.toList_ofList, Piece.scan_print h hbare, List.flatMap_assoc]
  exact congrArg String.ofList (List.flatMap_congr fun i _ => Ink.chars_pieces replace i)

end ResourceTable
