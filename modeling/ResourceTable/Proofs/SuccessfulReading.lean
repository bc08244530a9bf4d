import ResourceTable.Proofs.Rereading
import ResourceTable.Proofs.StatementReading

/-!
# Readers that succeed

What a reader covers it may still refuse.  A reader reads some tokens if it accepts all
lexemes that begin with them and passes over just these; readers that follow each other
then read what they read one by one.  Here words have to be plain, since others begin
what is no column, and the depth that is left has to suffice.

## Main definitions

* `Parse.Reads p ts next P`: the reader `p` reads the tokens `ts` in front of a token that
  `next` allows, and gives something that satisfies `P`.

## Main results

* `Reads.bind` — readers that follow each other read what they read one by one.
* `reads_separated`, `reads_sequence` — lists are read, if they are not longer than the
  depth that is left.
* `reads_operand_word`, `reads_part`, `reads_function` — terms are read, but for their
  places.
-/

namespace ResourceTable.Sql.Parse

variable {α β : Type}

/-- The reader accepts all lexemes with the tokens `ts`, in front of a token that `next`
allows; it passes over just these, and what it gives satisfies `P`. -/
def Reads (p : Parse α) (ts : List Token) (next : Option Token → Prop) (P : α → Prop) : Prop :=
  ∀ ls rest : List Lexeme, ls.map Lexeme.token = ts → next (headToken rest) →
    ∃ a, p (ls ++ rest) = .ok (a, rest) ∧ P a

namespace Reads

variable {p : Parse α} {ts us : List Token} {next : Option Token → Prop} {P : α → Prop}
  {Q : β → Prop}

theorem pure {a : α} (h : P a) : Reads (Pure.pure a) [] next P := by
  intro ls rest hls _
  rw [List.map_eq_nil_iff.1 hls]
  exact ⟨a, rfl, h⟩

theorem mono {P' : α → Prop} {next' : Option Token → Prop} (h : Reads p ts next P)
    (hnext : ∀ t, next' t → next t) (hP : ∀ a, P a → P' a) : Reads p ts next' P' := by
  intro ls rest hls hrest
  obtain ⟨a, ha, hPa⟩ := h ls rest hls (hnext _ hrest)
  exact ⟨a, ha, hP a hPa⟩

/-- **Readers that follow each other read what they read one by one.** -/
theorem bind {next' : Option Token → Prop} {f : α → Parse β} (hp : Reads p ts next' P)
    (hf : ∀ a, P a → Reads (f a) us next Q)
    (hnext : ∀ t, next t → next' (us.head?.or t)) : Reads (p >>= f) (ts ++ us) next Q := by
  intro ls rest hls hrest
  obtain ⟨first, more, rfl, hfirst, hmore⟩ := List.map_eq_append_iff.1 hls
  have hhead := hnext _ hrest
  rw [← headToken_append hmore] at hhead
  obtain ⟨a, ha, hPa⟩ := hp first (more ++ rest) hfirst hhead
  obtain ⟨b, hb, hQb⟩ := hf a hPa more rest hmore hrest
  refine ⟨b, ?_, hQb⟩
  rw [List.append_assoc, bind_run, ha]
  exact hb

/-- What is given is changed. -/
theorem map {f : α → β} (hp : Reads p ts next P) (hf : ∀ a, P a → Q (f a)) :
    Reads (do return f (← p)) ts next Q := by
  have hall : Reads (p >>= fun a => Pure.pure (f a)) (ts ++ []) next Q :=
    hp.bind (fun a ha => pure (hf a ha)) fun t ht => ht
  rwa [List.append_nil] at hall

/-- A reader that goes on with nothing more. -/
theorem bind_nil {f : α → Parse β} (hp : Reads p ts next P)
    (hf : ∀ a, P a → Reads (f a) [] next Q) : Reads (p >>= f) ts next Q := by
  have hall : Reads (p >>= f) (ts ++ []) next Q := hp.bind hf fun t ht => ht
  rwa [List.append_nil] at hall

end Reads

/-- A reader of all that there is leaves nothing. -/
theorem Reads.whole {p : Parse α} {ts : List Token} {P : α → Prop}
    (h : Reads p ts (· = none) P) {ls : List Lexeme} (hls : ls.map Lexeme.token = ts) :
    ∃ a, p ls = .ok (a, []) ∧ P a := by
  obtain ⟨a, ha, hP⟩ := h ls [] hls rfl
  rw [List.append_nil] at ha
  exact ⟨a, ha, hP⟩

/-- In front of the end of a text there is nothing more to be left. -/
theorem reads_of_whole {p : Parse α} {ts : List Token} {P : α → Prop}
    (h : ∀ ls : List Lexeme, ls.map Lexeme.token = ts → ∃ a, p ls = .ok (a, []) ∧ P a) :
    Reads p ts (· = none) P := by
  intro ls rest hls hrest
  obtain rfl : rest = [] := List.head?_eq_none_iff.1 (Option.map_eq_none_iff.1 hrest)
  rw [List.append_nil]
  exact h ls hls

/-! ### Looking ahead -/

namespace Reads

variable {f : Bool → Parse β} {us : List Token} {next : Option Token → Prop} {Q : β → Prop}

theorem whenMark {s : String} (h : Reads (f true) us next Q) :
    Reads (acceptMark s >>= f) (.mark s :: us) next Q := by
  intro ls rest hls hrest
  obtain ⟨l, more, rfl, hl, hmore⟩ := List.map_eq_cons_iff.1 hls
  have hhead : headToken (l :: (more ++ rest)) = some (.mark s) := congrArg some hl
  rw [List.cons_append, bind_run, acceptMark_run, if_pos hhead]
  exact h more rest hmore hrest

theorem unlessMark {s : String} (hnot : ∀ t, next t → us.head?.or t ≠ some (.mark s))
    (h : Reads (f false) us next Q) : Reads (acceptMark s >>= f) us next Q := by
  intro ls rest hls hrest
  have hhead := hnot _ hrest
  rw [← headToken_append hls] at hhead
  rw [bind_run, acceptMark_run, if_neg hhead]
  exact h ls rest hls hrest

theorem whenKeyword {ks : List String} {w : String} (hw : Keyword.upper w ∈ ks)
    (h : Reads (f true) us next Q) : Reads (acceptAny ks >>= f) (.word w :: us) next Q := by
  intro ls rest hls hrest
  obtain ⟨l, more, rfl, hl, hmore⟩ := List.map_eq_cons_iff.1 hls
  rw [List.cons_append, bind_run, acceptAny_cons hl hw]
  exact h more rest hmore hrest

theorem unlessKeyword {ks : List String} (hnot : ∀ t, next t → ¬ IsKeyword ks (us.head?.or t))
    (h : Reads (f false) us next Q) : Reads (acceptAny ks >>= f) us next Q := by
  intro ls rest hls hrest
  have hhead := hnot _ hrest
  rw [← headToken_append hls] at hhead
  rw [bind_run, acceptAny_other hhead]
  exact h ls rest hls hrest

/-- A look at the next lexeme, with the token that it is known to have. -/
theorem peeked {g : Option Lexeme → Parse β} {t : Token}
    (h : ∀ l : Lexeme, l.token = t → Reads (g (some l)) (t :: us) next Q) :
    Reads (peek >>= g) (t :: us) next Q := by
  intro ls rest hls hrest
  obtain ⟨l, more, rfl, hl, hmore⟩ := List.map_eq_cons_iff.1 hls
  exact h l hl (l :: more) rest hls hrest

theorem advanced {g : Unit → Parse β} {t : Token} (h : Reads (g ()) us next Q) :
    Reads (advance >>= g) (t :: us) next Q := by
  intro ls rest hls hrest
  obtain ⟨l, more, rfl, hl, hmore⟩ := List.map_eq_cons_iff.1 hls
  exact h more rest hmore hrest

/-- Behind a word that is no call there is nothing to count. -/
theorem unlessCount {w : String} (hnot : ∀ t, next t → us.head?.or t ≠ some (.mark "("))
    (h : Reads (f false) (.word w :: us) next Q) :
    Reads (acceptCount >>= f) (.word w :: us) next Q := by
  intro ls rest hls hrest
  obtain ⟨l, more, rfl, -, hmore⟩ := List.map_eq_cons_iff.1 hls
  rw [bind_run]
  rcases acceptCount_run ((l :: more) ++ rest) with ⟨⟨-, hopen⟩, -⟩ | ⟨-, hrun⟩
  · rw [List.cons_append, List.tail_cons, headToken_append hmore] at hopen
    exact absurd hopen (hnot _ hrest)
  · rw [hrun]
    exact h (l :: more) rest hls hrest

theorem whenCount (h : Reads (f true) (.mark "(" :: us) next Q) :
    Reads (acceptCount >>= f) (.word "COUNT" :: .mark "(" :: us) next Q := by
  intro ls rest hls hrest
  obtain ⟨l, more, rfl, hl, hmore⟩ := List.map_eq_cons_iff.1 hls
  obtain ⟨l', more', rfl, hl', -⟩ := List.map_eq_cons_iff.1 hmore
  rw [bind_run]
  rcases acceptCount_run ((l :: l' :: more') ++ rest) with ⟨-, hrun⟩ | ⟨hnot, -⟩
  · rw [hrun]
    exact h (l' :: more') rest hmore hrest
  · exact absurd ⟨⟨"COUNT", congrArg some hl, by decide⟩, congrArg some hl'⟩ hnot

end Reads

/-! ### Marks, keywords and names -/

section Basics

variable {next : Option Token → Prop} {P : α → Prop}

theorem reads_mark (s : String) : Reads (mark s) [.mark s] next fun _ => True :=
  .whenMark (.pure trivial)

/-- What follows a mark that has to be there. -/
theorem Reads.afterMark {s : String} {f : Unit → Parse α} {us : List Token}
    (h : Reads (f ()) us next P) : Reads (mark s >>= f) (.mark s :: us) next P := by
  have hmark : Reads (mark s) [.mark s] (fun _ => True) fun _ => True := reads_mark s
  exact hmark.bind (fun _ _ => h) fun _ _ => trivial

theorem reads_keywords : ∀ {ks ws : List String}, ws.map Keyword.upper = ks →
    Reads (keywords ks) (ws.map Token.word) next fun _ => True := by
  intro ks ws h
  induction ws generalizing ks with
  | nil =>
    rw [← h]
    exact .pure trivial
  | cons w rest ih =>
    rw [← h]
    exact .whenKeyword (List.mem_singleton.2 rfl) (ih rfl)

/-- What follows keywords that have to be there. -/
theorem Reads.afterKeywords {ks ws : List String} {f : Unit → Parse α} {us : List Token}
    (hws : ws.map Keyword.upper = ks) (h : Reads (f ()) us next P) :
    Reads (keywords ks >>= f) (ws.map Token.word ++ us) next P := by
  have hkeywords : Reads (keywords ks) (ws.map Token.word) (fun _ => True) fun _ => True :=
    reads_keywords hws
  exact hkeywords.bind (fun _ _ => h) fun _ _ => trivial

theorem reads_name {w : String} (h : Keyword.isReserved w = false) :
    Reads name [.word w] next (· = w) := by
  refine .peeked fun l hl => ?_
  obtain ⟨token, written, offset⟩ := l
  obtain rfl : token = .word w := hl
  simp only [h, Bool.false_eq_true, if_false]
  exact .advanced (.pure rfl)

theorem reads_quotedName (s : String) : Reads name [.name s] next (· = s) := by
  refine .peeked fun l hl => ?_
  obtain ⟨token, written, offset⟩ := l
  obtain rfl : token = .name s := hl
  exact .advanced (.pure rfl)

theorem reads_enclosed {inner : Parse α} {ts : List Token}
    (h : Reads inner ts (· = some (.mark ")")) P) :
    Reads (enclosed inner) (.mark "(" :: (ts ++ [.mark ")"])) next P := by
  refine .afterMark ?_
  exact h.bind (fun a ha => (reads_mark ")").map fun _ _ => ha) fun _ _ => rfl

theorem reads_after {keyword w : String} {part : Parse α} {ts : List Token}
    (hw : Keyword.upper w = keyword) (h : Reads part ts next P) :
    Reads (after keyword part) (.word w :: ts) next fun a => ∃ b, a = some b ∧ P b :=
  .whenKeyword (List.mem_singleton.2 hw) (h.map fun a ha => ⟨a, rfl, ha⟩)

theorem reads_not_after {keyword : String} {part : Parse α} :
    Reads (after keyword part) [] (fun t => ¬ IsKeyword [keyword] t) (· = none) :=
  .unlessKeyword (fun _ ht => ht) (.pure rfl)

/-! ### Lists -/

/-- A list that is not longer than the depth that is left is read part by part. -/
theorem reads_separated {ι : Type} {tokens : ι → List Token} {R : ι → α → Prop}
    {part : Parse α} {xs : List ι} (hne : xs ≠ [])
    (h : ∀ x ∈ xs, Reads part (tokens x) (OrComma next) (R x))
    (hcomma : ∀ t, next t → t ≠ some (.mark ",")) :
    ∀ {fuel}, xs.length ≤ fuel →
      Reads (separated part fuel) (joinedTokens (.mark ",") tokens xs) next
        (List.Forall₂ R xs) := by
  induction xs with
  | nil => exact absurd rfl hne
  | cons x rest ih =>
    intro fuel hfuel
    obtain ⟨hx, hrest⟩ := List.forall_mem_cons.1 h
    obtain ⟨fuel, rfl⟩ : ∃ n, fuel = n + 1 := Nat.exists_eq_add_of_le' (Nat.le_of_add_left_le hfuel)
    have hshort : rest.length ≤ fuel := Nat.le_of_succ_le_succ hfuel
    cases rest with
    | nil =>
      exact (hx.mono (fun t ht => .inr ht) fun _ ha => ha).bind_nil fun a ha =>
        .unlessMark hcomma (.pure (.cons ha .nil))
    | cons y more =>
      refine hx.bind (fun a ha => .whenMark ?_) fun t ht => .inl rfl
      exact (ih (List.cons_ne_nil y more) hrest hshort).map fun l hl => .cons ha hl

/-- Tests with a keyword between them are read one by one, if there are not more of them
than the depth that is left. -/
theorem reads_sequence {ι : Type} {tokens : ι → List Token} {R : ι → Test → Prop}
    {keyword w : String} (hw : Keyword.upper w = keyword) {part : Parse Test} {xs : List ι}
    (hne : xs ≠ [])
    (h : ∀ x ∈ xs, Reads part (tokens x) (fun t => IsKeyword [keyword] t ∨ next t) (R x))
    (hstop : ∀ t, next t → ¬ IsKeyword [keyword] t) :
    ∀ {fuel}, xs.length ≤ fuel →
      Reads (sequence keyword part fuel) (joinedTokens (.word w) tokens xs) next
        (List.Forall₂ R xs) := by
  induction xs with
  | nil => exact absurd rfl hne
  | cons x rest ih =>
    intro fuel hfuel
    obtain ⟨hx, hrest⟩ := List.forall_mem_cons.1 h
    obtain ⟨fuel, rfl⟩ : ∃ n, fuel = n + 1 := Nat.exists_eq_add_of_le' (Nat.le_of_add_left_le hfuel)
    have hshort : rest.length ≤ fuel := Nat.le_of_succ_le_succ hfuel
    cases rest with
    | nil =>
      exact (hx.mono (fun t ht => .inr ht) fun _ ha => ha).bind_nil fun a ha =>
        .unlessKeyword hstop (.pure (.cons ha .nil))
    | cons y more =>
      have hkeyword : Keyword.upper w ∈ [keyword] := List.mem_singleton.2 hw
      refine hx.bind (fun a ha => .whenKeyword hkeyword ?_) fun t ht => .inl ⟨w, rfl, hkeyword⟩
      exact (ih (List.cons_ne_nil y more) hrest hshort).map fun l hl => .cons ha hl

/-- A test without a keyword after it is read alone. -/
theorem reads_sequence_one {keyword : String} {part : Parse Test} {ts : List Token}
    {P : Test → Prop} (h : Reads part ts (fun t => IsKeyword [keyword] t ∨ next t) P)
    (hstop : ∀ t, next t → ¬ IsKeyword [keyword] t) (fuel : Nat) :
    Reads (sequence keyword part (fuel + 1)) ts next fun l => ∃ t, l = [t] ∧ P t :=
  (h.mono (fun _ ht => .inr ht) fun _ ha => ha).bind_nil fun a ha =>
    .unlessKeyword hstop (.pure ⟨a, rfl, ha⟩)

end Basics

/-! ### Operands -/

section Operands

variable {next : Option Token → Prop} {ts us : List Token} {P : Term → Prop}

theorem reads_operand_bound (c : Cell) (fuel : Nat) :
    Reads (operand (fuel + 1)) [.bound c] next (· = .literal c) := by
  refine .peeked fun l hl => ?_
  simp only [hl]
  exact .advanced (.pure rfl)

theorem reads_operand_text (s : String) (fuel : Nat) :
    Reads (operand (fuel + 1)) [.text s] next (· = .literal (.text s)) := by
  refine .peeked fun l hl => ?_
  simp only [hl]
  exact .advanced (.pure rfl)

/-- The number one, which stands where any value may. -/
theorem reads_operand_one (fuel : Nat) :
    Reads (operand (fuel + 1)) [.number "1"] next (· = .literal (.ofInt 1)) := by
  refine .peeked fun l hl => ?_
  simp only [hl]
  have hnumber : numberTerm l "1" = .ok (.literal (.ofInt 1)) := by
    have hread : Numeral.read "1" = .ok (.natural 1) := by decide +kernel
    rw [numberTerm, hread]
    rfl
  rw [hnumber]
  intro ls rest hls _
  obtain ⟨l', more, rfl, -, hmore⟩ := List.map_eq_cons_iff.1 hls
  rw [List.map_eq_nil_iff.1 hmore]
  exact ⟨_, rfl, rfl⟩

/-- A plain word in front of what is neither a member of it nor arguments is a column. -/
theorem reads_afterWord {w : String} {l : Lexeme} {inner : Parse Term}
    (hnext : ∀ t, next t → EndsWord t) :
    Reads (afterWord l w inner) [] next (SameTerm · (.column w 0)) := by
  intro ls rest hls hrest
  rw [List.map_eq_nil_iff.1 hls, List.nil_append]
  have hcolumn : Reads (columnAfter w l.offset) [] next (SameTerm · (.column w 0)) :=
    .unlessMark (fun t ht => (hnext t ht).2) (.pure rfl)
  rw [afterWord_eq_columnAfter (hnext _ hrest)]
  exact hcolumn [] rest rfl hrest

theorem reads_operand_word {w : String} (hplain : IsPlain w)
    (hnext : ∀ t, next t → EndsWord t) (fuel : Nat) :
    Reads (operand (fuel + 1)) [.word w] next (SameTerm · (.ofWord w)) := by
  rw [Term.ofWord_eq hplain.constant]
  refine .peeked fun l hl => ?_
  simp only [hl]
  rw [wordTerm_of_isPlain hplain]
  exact .advanced (reads_afterWord hnext)

/-! ### Terms -/

theorem reads_factor {fuel : Nat} (h : Reads (operand fuel) ts next P)
    (hnext : ∀ t, next t → EndsTerm t) : Reads (factor (fuel + 1)) ts next P :=
  h.bind_nil fun _ ha => .unlessMark (fun t ht => (hnext t ht).1) (.pure ha)

theorem reads_term_factor {fuel : Nat} (h : Reads (factor fuel) ts next P)
    (hnext : ∀ t, next t → EndsTerm t) : Reads (term (fuel + 1)) ts next P :=
  h.bind_nil fun _ ha => .unlessMark (fun t ht => (hnext t ht).2.1)
    (.unlessMark (fun t ht => (hnext t ht).2.2) (.pure ha))

theorem reads_term {fuel : Nat} (h : Reads (operand fuel) ts next P)
    (hnext : ∀ t, next t → EndsTerm t) : Reads (term (fuel + 2)) ts next P :=
  reads_term_factor (reads_factor h hnext) hnext

/-- The part of a document. -/
theorem reads_part {w path : String} (hplain : IsPlain w) (fuel : Nat) :
    Reads (factor (fuel + 2)) ([.word w] ++ .mark "->>" :: [.text path]) next
      (SameTerm · (.part (.ofWord w) (.literal (.text path)))) := by
  have hdocument : Reads (operand (fuel + 1)) [.word w] (· = some (.mark "->>"))
      (SameTerm · (.ofWord w)) := by
    refine reads_operand_word hplain ?_ fuel
    rintro t rfl
    exact endsWord_mark (by decide)
  refine hdocument.bind (fun a ha => .whenMark ?_) fun _ _ => rfl
  refine (reads_operand_text path fuel).map fun b hb => ?_
  rw [hb]
  exact ha.congr₂ (.refl _) .part fun _ _ => rfl

/-! ### Functions -/

/-- A word before a parenthesis is the name of a function, if there is one of its name. -/
theorem reads_call {f : String} (hplain : IsPlain f) {call : Lexeme → Parse Term → Parse Term}
    (hcall : ∀ l inner, call? l f inner = some (call l inner)) {fuel : Nat}
    (h : ∀ l, Reads (call l (term fuel)) (.mark "(" :: us) next P) :
    Reads (operand (fuel + 1)) (.word f :: .mark "(" :: us) next P := by
  refine .peeked fun l hl => ?_
  simp only [hl]
  rw [wordTerm_of_isPlain hplain]
  refine .advanced (.peeked fun l' hl' => ?_)
  obtain ⟨token, written, offset⟩ := l'
  obtain rfl : token = .mark "(" := hl'
  simp only [hcall]
  exact h l

/-- The arguments of a function, the first of which begins with a plain word. -/
theorem reads_arguments {inner : Parse α} {w : String} {R : α → Prop} (hplain : IsPlain w)
    (h : Reads inner (.word w :: us) (· = some (.mark ")")) R) :
    Reads (arguments inner) (.mark "(" :: (.word w :: us ++ [.mark ")"])) next R := by
  -- The words about arguments, and the one that orders them, are reserved.
  have hnot (ks : List String) (hks : ∀ k ∈ ks, k ∈ Keyword.reserved) :
      ¬ IsKeyword ks (some (.word w)) := by
    intro hw
    have hreserved := hplain.reserved
    rw [Keyword.isReserved, List.contains_iff_mem.2 (hks _ (isKeyword_word.1 hw))] at hreserved
    cases hreserved
  refine reads_enclosed (.unlessKeyword (fun _ _ => hnot _ (by decide)) ?_)
  exact .unlessKeyword (fun _ _ => hnot _ (by decide)) h

theorem reads_term_word {w m : String} (hplain : IsPlain w)
    (hm : m ∉ ["->>", "+", "-", "(", "."]) (fuel : Nat) :
    Reads (term (fuel + 3)) [.word w] (· = some (.mark m)) (SameTerm · (.ofWord w)) := by
  have hterm : EndsTerm (some (.mark m)) := endsTerm_mark fun h => hm (by simp at h ⊢; tauto)
  have hword : EndsWord (some (.mark m)) := endsWord_mark fun h => hm (by simp at h ⊢; tauto)
  refine reads_term (reads_operand_word hplain ?_ fuel) ?_
  · rintro t rfl
    exact hword
  · rintro t rfl
    exact hterm

/-- A document and a path. -/
theorem reads_couple {w : String} (hplain : IsPlain w) (path : String) (fuel : Nat) :
    Reads (couple (term (fuel + 3))) [.word w, .mark ",", .text path] (· = some (.mark ")"))
      fun ab => SameTerm ab.1 (.ofWord w) ∧ SameTerm ab.2 (.literal (.text path)) := by
  have hpath : Reads (term (fuel + 3)) [.text path] (· = some (.mark ")"))
      (· = .literal (.text path)) := by
    refine reads_term (reads_operand_text path fuel) ?_
    rintro t rfl
    exact endsTerm_mark (by decide)
  have hrest (a : Term) (ha : SameTerm a (.ofWord w)) :
      Reads (do mark ","; return (a, ← term (fuel + 3))) [.mark ",", .text path]
        (· = some (.mark ")"))
        fun ab => SameTerm ab.1 (.ofWord w) ∧ SameTerm ab.2 (.literal (.text path)) :=
    .afterMark (hpath.map fun b hb => ⟨ha, hb ▸ .refl _⟩)
  exact (reads_term_word hplain (m := ",") (by decide) fuel).bind hrest fun _ _ => rfl

theorem reads_lower {w : String} (hplain : IsPlain w) (fuel : Nat) :
    Reads (operand (fuel + 4)) [.word "LOWER", .mark "(", .word w, .mark ")"] next
      (SameTerm · (.lower (.ofWord w))) := by
  refine reads_call isPlain_lower call?_lower fun l => ?_
  have hargument : Reads (lowered l.offset (term (fuel + 3))) [.word w] (· = some (.mark ")"))
      (SameTerm · (.lower (.ofWord w))) := by
    refine .peeked fun l' hl' => ?_
    obtain ⟨token, written, offset⟩ := l'
    obtain rfl : token = .word w := hl'
    exact (reads_term_word hplain (m := ")") (by decide) fuel).map fun a ha =>
      congrArg Term.lower ha
  exact reads_arguments hplain hargument

/-- A function of a document and a path. -/
theorem reads_function {f : String} (hfunction : IsPlain f) {make : Term → Term → Term}
    (hmake : ∀ a b, (make a b).unplaced = make a.unplaced b.unplaced)
    (hcall : ∀ l inner, call? l f inner = some do
      let ab ← twoArguments inner
      return make ab.1 ab.2) {w : String} (hplain : IsPlain w) (path : String) (fuel : Nat) :
    Reads (operand (fuel + 4))
      [.word f, .mark "(", .word w, .mark ",", .text path, .mark ")"] next
      (SameTerm · (make (.ofWord w) (.literal (.text path)))) := by
  refine reads_call hfunction hcall fun l => ?_
  have hcouple : Reads (twoArguments (term (fuel + 3)))
      (.mark "(" :: (.word w :: [.mark ",", .text path] ++ [.mark ")"])) next
      fun ab => SameTerm ab.1 (.ofWord w) ∧ SameTerm ab.2 (.literal (.text path)) :=
    reads_arguments hplain (reads_couple hplain path fuel)
  exact hcouple.map fun ab hab => hab.1.congr₂ hab.2 make hmake

end Operands

end ResourceTable.Sql.Parse
