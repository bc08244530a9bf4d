import ResourceTable.Proofs.Print

/-!
# Reading a print back into tokens

The database takes a statement apart into tokens.  A legible print comes apart into
the inks that it was printed from: every ink is read as one token, blanks are passed
over, and a hole is a question mark, in the place of which the bound value is put.

## Main definitions

* `Ink.pending`: what the reader holds after an ink.
* `Ink.tokens`, `tokensOf`: the tokens of a print, with bound values in its holes.

## Main results

* `completed_ink` — one ink is read as one token.
* `tokens_scan_print` — **a legible print is read as its tokens.**
* `tokens_fill_scan` — the bound values take the places of the holes, in order.
-/

namespace ResourceTable

open Sql (Token Lexeme Cell)

namespace Ink

variable {α : Type}

/-! ### The tokens of a print -/

/-- The tokens of an ink, given those of the holes. -/
def tokens (fill : α → List Token) : Ink α → List Token
  | word s => [.word s]
  | digits s => [.number s]
  | mark s => [.mark s]
  | quoted s => [.text s]
  | title s => [.name s]
  | blank => []
  | hole a => fill a

/-- What the reader of tokens holds after an ink that begins after so many bytes; a
hole is a question mark. -/
def pending (offset : Nat) : Ink α → Lexeme.Scan
  | word s => ⟨.word, s.toList.reverse, offset⟩
  | digits s => ⟨.number, s.toList.reverse, offset⟩
  | mark s => ⟨.mark, s.toList.reverse, offset⟩
  | quoted s => ⟨.closed '\x27', ('\x27' :: (s.toList ++ ['\x27'])).reverse, offset⟩
  | title s => ⟨.closed '"', ('"' :: (s.toList ++ ['"'])).reverse, offset⟩
  | blank => .between (offset + 1)
  | hole _ => ⟨.mark, ['?'], offset⟩

/-- The question mark of a hole. -/
def question : α → List Char := fun _ => ['?']

end Ink

/-- The tokens of a print, given those of the holes. -/
def tokensOf {α : Type} (fill : α → List Token) (is : List (Ink α)) : List Token :=
  is.flatMap (Ink.tokens fill)

namespace Sql.Lexeme

variable {α : Type}

/-! ### The characters of one ink -/

theorem isBlank_of_isNamePart {c : Char} (h : isNamePart c = true) :
    NumberText.isBlank c = false := by
  have hc := (isNamePart_iff c).1 h
  rw [isNameStart_iff_toNat, isDigit_iff_toNat] at hc
  have hspace : c ≠ ' ' := ne_of_isNamePart h (by decide)
  simp only [NumberText.isBlank, Bool.or_eq_false_iff, beq_eq_false_iff_ne, Bool.and_eq_false_iff,
    decide_eq_false_iff_not]
  exact ⟨hspace, by omega⟩

theorem continuesWord_of_isNamePart {c : Char} (h : isNamePart c = true) :
    continuesWord c = true := by
  rw [continuesWord, h]
  rfl

/-- The rest of a word or of a number is kept. -/
theorem completed_kept {kind : Kind} (hkind : kind = .word ∨ kind = .number) (offset : Nat) :
    ∀ (cs seen : List Char), (∀ c ∈ cs, isNamePart c = true) →
      completed ⟨kind, seen, offset⟩ cs = ([], ⟨kind, cs.reverse ++ seen, offset⟩) := by
  intro cs
  induction cs with
  | nil => intro seen _; rfl
  | cons c rest ih =>
    intro seen h
    obtain ⟨hc, hrest⟩ := List.forall_mem_cons.1 h
    have hstep : (Scan.mk kind seen offset).step c = ([], ⟨kind, c :: seen, offset⟩) := by
      rcases hkind with rfl | rfl <;>
        simp [Scan.step, Scan.push, continuesWord_of_isNamePart hc]
    rw [completed, hstep]
    simp only [ih (c :: seen) hrest]
    simp

/-- Quoted text is kept up to its closing quote. -/
theorem completed_quoted {quote : Char} (offset : Nat) :
    ∀ (cs seen : List Char), quote ∉ cs →
      completed ⟨.quoted quote, seen, offset⟩ (cs ++ [quote]) =
        ([], ⟨.closed quote, (cs ++ [quote]).reverse ++ seen, offset⟩) := by
  intro cs
  induction cs with
  | nil => intro seen _; simp [completed, Scan.step, Scan.push]
  | cons c rest ih =>
    intro seen h
    have hc : c ≠ quote := fun e => h (e ▸ List.mem_cons_self)
    have hrest : quote ∉ rest := fun e => h (List.mem_cons_of_mem c e)
    rw [List.cons_append, completed]
    simp only [Scan.step, if_neg hc, Scan.push, ih (c :: seen) hrest]
    simp

/-- A printed mark is read as far as it goes. -/
theorem completed_mark {s : String} (h : s ∈ Ink.printedMarks) (offset : Nat) :
    ∃ c rest, s.toList = c :: rest ∧ Scan.enter offset c = ⟨.mark, [c], offset⟩ ∧
      completed ⟨.mark, [c], offset⟩ rest = ([], ⟨.mark, s.toList.reverse, offset⟩) := by
  simp only [Ink.printedMarks, List.mem_cons, List.not_mem_nil, or_false] at h
  rcases h with rfl | rfl | rfl | rfl | rfl | rfl | rfl | rfl | rfl | rfl | rfl
  · exact ⟨'(', [], rfl, rfl, rfl⟩
  · exact ⟨')', [], rfl, rfl, rfl⟩
  · exact ⟨',', [], rfl, rfl, rfl⟩
  · exact ⟨'*', [], rfl, rfl, rfl⟩
  · exact ⟨'=', [], rfl, rfl, rfl⟩
  · exact ⟨'!', ['='], rfl, rfl, by simp [completed, Scan.step, Scan.push, marks]⟩
  · exact ⟨'>', [], rfl, rfl, rfl⟩
  · exact ⟨'>', ['='], rfl, rfl, by simp [completed, Scan.step, Scan.push, marks]⟩
  · exact ⟨'<', [], rfl, rfl, rfl⟩
  · exact ⟨'<', ['='], rfl, rfl, by simp [completed, Scan.step, Scan.push, marks]⟩
  · exact ⟨'-', ['>', '>'], rfl, rfl, by simp [completed, Scan.step, Scan.push, marks]⟩

/-- A reader that ends its token before a character begins the next one with it. -/
theorem completed_restart {s : Scan} {c : Char} {rest : List Char} {next : Scan}
    (hs : s.step c = s.restart c) (hrest : completed (Scan.enter s.stop c) rest = ([], next)) :
    completed s (c :: rest) = (s.flush, next) := by
  rw [completed, hs, Scan.restart]
  simp only [hrest, List.append_nil]

/-- **One ink is read as one token.**  A reader that ends its token before the ink ends
up holding the ink. -/
theorem completed_ink {i : Ink α} (h : i.IsSound) {s : Scan}
    (hs : ∀ c ∈ (i.chars Ink.question).head?, s.step c = s.restart c) :
    completed s (i.chars Ink.question) = (s.flush, i.pending s.stop) := by
  cases i with
  | word w =>
    cases hw : w.toList with
    | nil => rw [Ink.IsSound, hw] at h; cases h
    | cons c rest =>
      rw [Ink.IsSound, hw, isBareName_cons] at h
      have hc := isNamePart_of_isNameStart h.1
      simp only [Ink.chars, hw] at hs ⊢
      refine completed_restart (hs c rfl) ?_
      rw [Scan.enter, if_neg (by simp [isBlank_of_isNamePart hc]),
        if_pos (by simp [startsWord, h.1]), completed_kept (.inl rfl) _ rest [c] h.2]
      simp [Ink.pending, hw]
  | digits w =>
    cases hw : w.toList with
    | nil => rw [Ink.IsSound, hw] at h; cases h.1
    | cons c rest =>
      rw [Ink.IsSound, hw] at h
      have hc := h.2 c rfl
      obtain ⟨hpart, hrest⟩ := List.forall_mem_cons.1 (isIdentifier_iff.1 h.1).2
      have hstart : startsWord c = false := by
        have hlow := (isDigit_iff_toNat c).1 hc
        have hname : ¬ isNameStart c = true := by rw [isNameStart_iff_toNat]; omega
        simp only [startsWord, Bool.or_eq_false_iff, decide_eq_false_iff_not]
        exact ⟨Bool.eq_false_iff.2 hname, by omega⟩
      simp only [Ink.chars, hw] at hs ⊢
      refine completed_restart (hs c rfl) ?_
      rw [Scan.enter, if_neg (by simp [isBlank_of_isNamePart hpart]),
        if_neg (by simp [hstart]), if_pos hc, completed_kept (.inr rfl) _ rest [c] hrest]
      simp [Ink.pending, hw]
  | mark m =>
    obtain ⟨c, rest, hm, henter, hrest⟩ := completed_mark h s.stop
    simp only [Ink.chars, hm] at hs ⊢
    refine completed_restart (hs c rfl) ?_
    rw [henter, hrest]
    rfl
  | quoted t =>
    refine completed_restart (hs '\x27' rfl) ?_
    have henter : Scan.enter s.stop '\x27' = ⟨.quoted '\x27', ['\x27'], s.stop⟩ := rfl
    rw [henter, completed_quoted _ t.toList ['\x27'] h]
    simp [Ink.pending]
  | title t =>
    refine completed_restart (hs '"' rfl) ?_
    have henter : Scan.enter s.stop '"' = ⟨.quoted '"', ['"'], s.stop⟩ := rfl
    rw [henter, completed_quoted _ t.toList ['"'] h]
    simp [Ink.pending]
  | blank => exact completed_restart (hs ' ' rfl) rfl
  | hole a => exact completed_restart (hs '?' rfl) rfl

/-! ### Neighbours -/

/-- The characters with which no mark of several characters begins. -/
def isolated : List Char := ['(', ')', ',', '*', '?']

theorem isolated_notMem_marks {m : Char} (h : m ∈ isolated) (c : Char) :
    String.ofList [m, c] ∉ marks := by
  have hall : ∀ s ∈ marks, s.toList.head?.all isolated.contains = true → s.toList.length = 1 := by
    decide
  intro hmem
  have hlength := hall _ hmem
  rw [String.toList_ofList] at hlength
  cases hlength (List.contains_iff_mem.2 h)

/-- A mark of one isolated character ends before every character. -/
theorem step_isolated {m : Char} (h : m ∈ isolated) (offset : Nat) (c : Char) :
    (Scan.mk .mark [m] offset).step c = (Scan.mk .mark [m] offset).restart c :=
  if_neg (isolated_notMem_marks h c)

/-- A mark ends before a character that no mark ends with. -/
theorem step_mark {s : String} {c : Char} (hc : ∀ m ∈ marks, m.toList.getLast? ≠ some c)
    (offset : Nat) :
    (Scan.mk .mark s.toList.reverse offset).step c =
      (Scan.mk .mark s.toList.reverse offset).restart c := by
  refine if_neg fun hmem => hc _ hmem ?_
  rw [String.toList_ofList, List.reverse_cons, List.getLast?_append]
  rfl

theorem getLast?_marks_ne_of_isNamePart {c : Char} (hc : isNamePart c = true) :
    ∀ m ∈ marks, m.toList.getLast? ≠ some c := by
  have hall : ∀ m ∈ marks, m.toList.getLast?.all (fun d => !isNamePart d) = true := by decide
  intro m hm hlast
  have h := (Option.all_eq_true _ _).1 (hall m hm) c hlast
  rw [hc] at h
  cases h

/-- The character that an ink begins with: part of a name, or one that no name goes on
with. -/
theorem head?_chars {j : Ink α} (hj : j.IsSound) : ∀ c ∈ (j.chars Ink.question).head?,
    match j with
    | .word _ | .digits _ => isNamePart c = true
    | .mark _ => continuesWord c = false ∧ c ≠ '\x27' ∧ c ≠ '"'
    | .quoted _ => c = '\x27'
    | .title _ => c = '"'
    | .blank => c = ' '
    | .hole _ => c = '?' := by
  intro c hc
  cases j with
  | word s => exact isNamePart_of_isBareName hj c (List.mem_of_mem_head? hc)
  | digits s => exact (isNamePart_iff c).2 (.inr (hj.2 c hc))
  | mark s =>
    have hall : ∀ s ∈ Ink.printedMarks, s.toList.head?.all
        (fun c => !continuesWord c && (c != '\x27' && c != '"')) = true := by decide
    simpa using (Option.all_eq_true _ _).1 (hall s hj) c hc
  | _ => exact (Option.some.inj hc).symm

/-- A word or a number ends before an ink that can follow it. -/
theorem step_kept {kind : Kind} (hkind : kind = .word ∨ kind = .number) {c : Char}
    (hc : continuesWord c = false) (seen : List Char) (offset : Nat) :
    (Scan.mk kind seen offset).step c = (Scan.mk kind seen offset).restart c := by
  rcases hkind with rfl | rfl <;> simp [Scan.step, hc]

/-- **Neighbours stay apart.**  The reader ends an ink before the next one. -/
theorem step_pending {i j : Ink α} (hi : i.IsSound) (hj : j.IsSound) (h : i.joins j = true)
    (offset : Nat) : ∀ c ∈ (j.chars Ink.question).head?,
      (i.pending offset).step c = (i.pending offset).restart c := by
  intro c hc
  have hfirst := head?_chars hj c hc
  cases i with
  | word s =>
    refine step_kept (.inl rfl) ?_ _ _
    cases j with
    | mark t => exact hfirst.1
    | quoted t | title t | blank => subst hfirst; decide
    | _ => cases h
  | digits s =>
    refine step_kept (.inr rfl) ?_ _ _
    cases j with
    | mark t => exact hfirst.1
    | quoted t | title t | blank => subst hfirst; decide
    | _ => cases h
  | mark s =>
    -- Before another mark or a hole, a mark must be one that nothing goes on from.
    have hclosed (hs : Ink.closedMarks.contains s = true) :
        ((Ink.mark s : Ink α).pending offset).step c =
          ((Ink.mark s : Ink α).pending offset).restart c := by
      have hall : ∀ s ∈ Ink.closedMarks,
          (isolated.any fun m => s.toList.reverse == [m]) = true := by decide
      obtain ⟨m, hm, hrev⟩ := List.any_eq_true.1 (hall s (List.contains_iff_mem.1 hs))
      rw [Ink.pending, eq_of_beq hrev]
      exact step_isolated hm offset c
    cases j with
    | mark t => exact hclosed h
    | hole a => exact hclosed h
    | word t => exact step_mark (getLast?_marks_ne_of_isNamePart hfirst) offset
    | digits t => exact step_mark (getLast?_marks_ne_of_isNamePart hfirst) offset
    | _ => subst hfirst; exact step_mark (by decide) offset
  | quoted s =>
    have hc : c ≠ '\x27' := by
      cases j with
      | word t | digits t => exact ne_of_isNamePart hfirst (by decide)
      | mark t => exact hfirst.2.1
      | quoted t => cases h
      | _ => subst hfirst; decide
    simp only [Ink.pending, Scan.step, if_neg hc]
  | title s =>
    have hc : c ≠ '"' := by
      cases j with
      | word t | digits t => exact ne_of_isNamePart hfirst (by decide)
      | mark t => exact hfirst.2.2
      | title t => cases h
      | _ => subst hfirst; decide
    simp only [Ink.pending, Scan.step, if_neg hc]
  | blank => rfl
  | hole a => exact step_isolated (by decide) offset c

/-! ### Whole prints -/

theorem unquoted_append {quote : Char} : ∀ {cs : List Char}, quote ∉ cs →
    Scan.unquoted quote (cs ++ [quote]) = cs := by
  intro cs
  induction cs with
  | nil => intro _; simp [Scan.unquoted]
  | cons c rest ih =>
    intro h
    have hc : c ≠ quote := fun e => h (e ▸ List.mem_cons_self)
    have hrest := ih fun e => h (List.mem_cons_of_mem c e)
    cases hr : rest ++ [quote] with
    | nil => simp at hr
    | cons d more =>
      rw [hr] at hrest
      rw [List.cons_append, hr, Scan.unquoted, if_neg fun e => hc e.1, hrest]

/-- The tokens of an ink and of what is pending after it. -/
theorem token_flush_pending {i : Ink α} (h : i.IsSound) (offset : Nat) :
    (i.pending offset).flush.map token = i.tokens fun _ => [.mark "?"] := by
  cases i with
  | mark s =>
    have hall : ∀ s ∈ Ink.printedMarks, s ∈ marks := by decide
    simp [Ink.pending, Scan.flush, Scan.token?, Ink.tokens, hall s h]
  | quoted s =>
    simp [Ink.pending, Scan.flush, Scan.token?, Ink.tokens, unquoted_append h]
  | title s =>
    simp [Ink.pending, Scan.flush, Scan.token?, Ink.tokens, unquoted_append h]
  | hole a =>
    have hmem : String.ofList ['?'] ∈ marks := by decide
    simp only [Ink.pending, Scan.flush, Scan.token?, List.reverse_singleton, if_pos hmem]
    rfl
  | blank => rfl
  | word s => simp [Ink.pending, Scan.flush, Scan.token?, Ink.tokens]
  | digits s => simp [Ink.pending, Scan.flush, Scan.token?, Ink.tokens]

/-- The tokens that a reader finds, with those that are pending. -/
theorem tokens_completed_print : ∀ (is : List (Ink α)) (i : Ink α) (offset : Nat),
    Legible (i :: is) →
      (completed (i.pending offset) (print Ink.question is)).1.map token ++
          (completed (i.pending offset) (print Ink.question is)).2.flush.map token =
        tokensOf (fun _ => [.mark "?"]) (i :: is) := by
  intro is
  induction is with
  | nil =>
    intro i offset h
    have hi := h.sound i List.mem_cons_self
    simp [completed, tokensOf, token_flush_pending hi]
  | cons j rest ih =>
    intro i offset h
    obtain ⟨hi, hj, -⟩ := List.forall_mem_cons.1 h.sound |>.imp_right List.forall_mem_cons.1
    have hjoins := (List.isChain_cons_cons.1 h.chain).1
    have hink := completed_ink hj (step_pending hi hj hjoins offset)
    have hrest := ih j (i.pending offset).stop h.tail
    rw [print_cons, completed_append, hink]
    simp only [List.map_append, List.append_assoc, hrest]
    rw [token_flush_pending hi]
    rfl

/-- **A legible print is read as its tokens**, with a question mark in every hole. -/
theorem tokens_scan_print {is : List (Ink α)} (h : Legible is) :
    (scan (print Ink.question is)).map token = tokensOf (fun _ => [.mark "?"]) is := by
  cases is with
  | nil => rfl
  | cons i rest =>
    have hi := h.sound i List.mem_cons_self
    have hink := completed_ink (s := .between 0) hi fun c _ => rfl
    have hrest := tokens_completed_print rest i 0 h
    rw [scan, print_cons, completed_append, hink]
    simp only [List.map_append, List.append_assoc]
    exact hrest

end Sql.Lexeme

/-! ### Bound values -/

/-- The cell of a value; a value that no cell can hold counts as missing. -/
def Value.cell (v : Value) : Cell := (v.toCell.toOption).getD .null

namespace Ink

variable {α : Type}

/-- What is in a hole. -/
def hole? : Ink α → Option α
  | hole a => some a
  | _ => none

end Ink

/-- What is in the holes of a print, in order. -/
def holesOf {α : Type} (is : List (Ink α)) : List α := is.filterMap Ink.hole?

/-- The tokens of a parameter: its values, with commas between them. -/
def Param.tokens (p : Param) : List Token :=
  tokensOf (fun v => [.bound v.cell]) (Ink.holes p.values)

namespace Sql.Lexeme

/-- Puts bound values in the place of question marks among tokens. -/
def fillTokens : List Token → List Cell → List Token
  | [], _ => []
  | t :: rest, cells =>
    if t = .mark "?" then .bound (cells.head?.getD .null) :: fillTokens rest cells.tail
    else t :: fillTokens rest cells

theorem map_token_fill : ∀ (ls : List Lexeme) (cells : List Cell),
    (fill ls cells).map token = fillTokens (ls.map token) cells := by
  intro ls
  induction ls with
  | nil => intro cells; rfl
  | cons l rest ih =>
    intro cells
    rw [fill, List.map_cons, fillTokens]
    split
    · rw [List.map_cons, ih]
    · rw [List.map_cons, ih]

/-- The bound values take the places of the holes, in order. -/
theorem fillTokens_tokensOf : ∀ (is : List (Ink Value)), (∀ i ∈ is, i.IsSound) →
    fillTokens (tokensOf (fun _ => [.mark "?"]) is) ((holesOf is).map Value.cell) =
      tokensOf (fun v => [.bound v.cell]) is := by
  intro is
  induction is with
  | nil => intro _; rfl
  | cons i rest ih =>
    intro h
    obtain ⟨hi, hrest⟩ := List.forall_mem_cons.1 h
    have ih := ih hrest
    cases i with
    | hole v => exact congrArg (Token.bound v.cell :: ·) ih
    | blank => exact ih
    | mark s =>
      have hs : Token.mark s ≠ .mark "?" := by
        rintro he
        rw [Token.mark.injEq] at he
        subst he
        revert hi
        show "?" ∉ Ink.printedMarks
        decide
      have hcons : tokensOf (fun _ => [Token.mark "?"]) (Ink.mark s :: rest) =
          Token.mark s :: tokensOf (fun _ : Value => [Token.mark "?"]) rest := rfl
      rw [hcons, fillTokens, if_neg hs]
      exact congrArg (Token.mark s :: ·) ih
    | word s => exact congrArg (Token.word s :: ·) ih
    | digits s => exact congrArg (Token.number s :: ·) ih
    | quoted s => exact congrArg (Token.text s :: ·) ih
    | title s => exact congrArg (Token.name s :: ·) ih

end Sql.Lexeme

theorem tokensOf_append {α : Type} (fill : α → List Token) (a b : List (Ink α)) :
    tokensOf fill (a ++ b) = tokensOf fill a ++ tokensOf fill b :=
  List.flatMap_append

/-- The tokens of a print whose parameters are spread out. -/
theorem tokensOf_spreadAll (is : List (Ink Param)) :
    tokensOf (fun v => [.bound v.cell]) (spreadAll is) = tokensOf Param.tokens is := by
  induction is with
  | nil => rfl
  | cons i rest ih =>
    rw [spreadAll_cons, tokensOf_append, ih]
    cases i <;> rfl

theorem holesOf_holes (vs : List Value) : holesOf (Ink.holes vs) = vs := by
  induction vs with
  | nil => rfl
  | cons v rest ih =>
    cases rest with
    | nil => rfl
    | cons w more => exact congrArg (v :: ·) ih

theorem holesOf_spreadAll (is : List (Ink Param)) :
    holesOf (spreadAll is) = (holesOf is).flatMap Param.values := by
  induction is with
  | nil => rfl
  | cons i rest ih =>
    rw [spreadAll_cons, holesOf, List.filterMap_append]
    cases i with
    | hole p =>
      have hp := holesOf_holes p.values
      have hcons : holesOf (Ink.hole p :: rest) = p :: holesOf rest := rfl
      rw [hcons, List.flatMap_cons]
      exact congrArg₂ (· ++ ·) hp ih
    | _ => exact ih

/-- **What the database receives.**  A legible print in positional form, with its values
bound, is read as its tokens. -/
theorem tokens_fill_scan {is : List (Ink Param)} (h : Legible is) (hfull : NoEmptyHole is) :
    (Lexeme.fill (Lexeme.scan (print (fun p => (Query.marks p).toList) is))
        (((holesOf is).flatMap Param.values).map Value.cell)).map Lexeme.token =
      tokensOf Param.tokens is := by
  have hspread := h.spreadAll hfull
  rw [← print_spreadAll, ← holesOf_spreadAll, Lexeme.map_token_fill, ← tokensOf_spreadAll]
  have hscan := Lexeme.tokens_scan_print hspread
  unfold Ink.question at hscan
  rw [hscan]
  exact Lexeme.fillTokens_tokensOf _ hspread.sound

end ResourceTable
