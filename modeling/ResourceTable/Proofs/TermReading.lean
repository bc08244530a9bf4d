import ResourceTable.Proofs.Covering

/-!
# Reading terms

A bare word where a value is expected is a column, unless it is one of the words that
stand for values of their own.  What else a word can begin does not come up, because
readers then refuse what follows: the comparisons, keywords and marks after a column.

## Main definitions

* `Term.ofWord`, `IsWord`: the term that a bare word stands for.
* `Barred`: the tokens that no term begins with.

## Main results

* `covers_operand_word` — a bare word is read as the term that it stands for.
* `covers_lower`, `covers_document` — functions are read with their arguments.
-/

namespace ResourceTable.Sql

open Parse

/-- The term that a bare word stands for, wherever it stands. -/
def Term.ofWord (w : String) : Term := (constant? w).getD (.column w 0)

/-- A word without a meaning of its own stands for a column. -/
theorem Term.ofWord_eq {w : String} (h : constant? w = none) : ofWord w = .column w 0 := by
  rw [ofWord, h]
  rfl

namespace Parse

/-- The term that a bare word stands for where it was read. -/
def IsWord (w : String) (t : Term) : Prop :=
  constant? w = some t ∨ constant? w = none ∧ ∃ offset, t = .column w offset

variable {α : Type}

theorem refuse_bind_ne_ok {β : Type} (f : α → Parse β) (ls : List Lexeme) (x : β × List Lexeme) :
    ((refuse : Parse α) >>= f) ls ≠ .ok x := by
  intro h
  rw [bind_run] at h
  obtain ⟨y, hy, -⟩ := Test.bind_eq_ok h
  exact refuse_ne_ok ls y hy

theorem bind_ne_ok {β : Type} {p : Parse α} {f : α → Parse β} {ls : List Lexeme}
    {x : β × List Lexeme} (h : ∀ a out, p ls = .ok (a, out) → f a out ≠ .ok x) :
    (p >>= f) ls ≠ .ok x := by
  intro hx
  rw [bind_run] at hx
  obtain ⟨y, hy, hf⟩ := Test.bind_eq_ok hx
  exact h y.1 y.2 hy hf

/-! ### Words -/

/-- A word that is no keyword, for the reader of terms. -/
structure IsPlain (w : String) : Prop where
  constant : constant? w = none
  call : Keyword.opensCall w = false
  negation : Keyword.upper w ≠ "NOT"
  choice : Keyword.upper w ≠ "CASE"
  reserved : Keyword.isReserved w = false

instance (w : String) : Decidable (IsPlain w) :=
  decidable_of_iff (constant? w = none ∧ Keyword.opensCall w = false ∧
      Keyword.upper w ≠ "NOT" ∧ Keyword.upper w ≠ "CASE" ∧ Keyword.isReserved w = false)
    ⟨fun ⟨hconstant, hcall, hnot, hcase, hfree⟩ => ⟨hconstant, hcall, hnot, hcase, hfree⟩,
      fun h => ⟨h.constant, h.call, h.negation, h.choice, h.reserved⟩⟩

/-- The call of a function, or a column, after its word. -/
def afterWord (l : Lexeme) (w : String) (inner : Parse Term) : Parse Term := do
  match ← peek, call? l w inner with
  | some ⟨.mark "(", _, _⟩, some call => call
  | _, _ => columnAfter w l.offset

theorem wordTerm_of_isPlain {w : String} (h : IsPlain w) (l : Lexeme) (inner : Parse Term) :
    wordTerm l w inner = advance >>= fun _ => afterWord l w inner := by
  unfold wordTerm
  simp only [h.constant, h.call, if_neg h.negation, if_neg h.choice, h.reserved, Bool.false_eq_true,
    if_false]
  rfl

/-- A word that is no constant and not plain is read as the negation of a term, if it is
read at all. -/
theorem wordTerm_ne_ok {w : String} (hconstant : constant? w = none) (hplain : ¬ IsPlain w)
    (l : Lexeme) (inner : Parse Term) (ls : List Lexeme)
    (hinner : Keyword.upper w = "NOT" → ∀ x, inner ls.tail ≠ .ok x) (x : Term × List Lexeme) :
    wordTerm l w inner ls ≠ .ok x := by
  -- These are asked of the word one after the other, and one that passes them all is plain.
  unfold wordTerm
  simp only [hconstant]
  by_cases hcall : Keyword.opensCall w = true
  · rw [if_pos hcall]
    exact bind_ne_ok fun _ out _ => refuse_bind_ne_ok _ out x
  rw [if_neg hcall]
  by_cases hnot : Keyword.upper w = "NOT"
  · rw [if_pos hnot]
    refine bind_ne_ok fun _ out hout => bind_ne_ok fun t out' ht => ?_
    cases hout
    exact absurd ht (hinner hnot _)
  rw [if_neg hnot]
  by_cases hcase : Keyword.upper w = "CASE"
  · rw [if_pos hcase]
    refine bind_ne_ok fun _ out hout => bind_ne_ok fun t out' ht => ?_
    exact refuse_bind_ne_ok _ _ x
  rw [if_neg hcase]
  by_cases hreserved : Keyword.isReserved w = true
  · rw [if_pos hreserved]
    exact refuse_bind_ne_ok _ ls x
  · exact absurd ⟨hconstant, Bool.eq_false_iff.2 hcall, hnot, hcase,
      Bool.eq_false_iff.2 hreserved⟩ hplain

/-! ### What no term begins with -/

/-- The keywords that end a term. -/
def endings : List String := ["AND", "AS", "FROM", "IN", "IS", "OR", "ORDER", "WHERE"]

/-- A token that no term begins with. -/
def Barred (t : Option Token) : Prop := t = none ∨ (∃ m, t = some (.mark m)) ∨ IsKeyword endings t

theorem constant_of_ending {w : String} (hw : Keyword.upper w ∈ endings) : constant? w = none := by
  unfold constant?
  simp only [endings, List.mem_cons, List.not_mem_nil, or_false] at hw
  rcases hw with h | h | h | h | h | h | h | h <;> rw [h] <;> rfl

theorem not_isPlain_of_ending {w : String} (hw : Keyword.upper w ∈ endings) : ¬ IsPlain w := by
  intro h
  have hreserved := h.reserved
  unfold Keyword.isReserved at hreserved
  simp only [endings, List.mem_cons, List.not_mem_nil, or_false] at hw
  rcases hw with h | h | h | h | h | h | h | h <;> rw [h] at hreserved <;>
    exact absurd hreserved (by decide)

theorem ne_not_of_ending {w : String} (hw : Keyword.upper w ∈ endings) :
    Keyword.upper w ≠ "NOT" := by
  intro h
  rw [h] at hw
  revert hw
  decide

/-- No term begins with a barred token. -/
theorem operand_barred_ne_ok {ls : List Lexeme} (h : Barred (headToken ls)) (fuel : Nat)
    (x : Term × List Lexeme) : operand fuel ls ≠ .ok x := by
  cases fuel with
  | zero => exact refuse_ne_ok ls x
  | succ fuel =>
    rcases ls with _ | ⟨⟨token, written, offset⟩, rest⟩
    · exact refuse_ne_ok [] x
    · rcases h with h | ⟨m, h⟩ | ⟨w, h, hw⟩
      · cases h
      · obtain rfl : token = .mark m := Option.some.inj h
        exact refuse_ne_ok (⟨.mark m, written, offset⟩ :: rest) x
      · obtain rfl : token = .word w := Option.some.inj h
        exact wordTerm_ne_ok (constant_of_ending hw) (not_isPlain_of_ending hw) _ _ _
          (fun hnot => absurd hnot (ne_not_of_ending hw)) x

theorem term_barred_ne_ok {ls : List Lexeme} (h : Barred (headToken ls)) (fuel : Nat)
    (x : Term × List Lexeme) : term fuel ls ≠ .ok x := by
  cases fuel with
  | zero => exact refuse_ne_ok ls x
  | succ fuel =>
    refine bind_ne_ok fun a out ha => ?_
    cases fuel with
    | zero => exact absurd ha (refuse_ne_ok ls _)
    | succ fuel =>
      exfalso
      revert ha
      exact bind_ne_ok fun a out ha => absurd ha (operand_barred_ne_ok h fuel _)

/-! ### Operands -/

section Operands

variable {next : Option Token → Prop}

/-- What may follow a column: neither a member of it nor the arguments of a function. -/
def EndsWord (t : Option Token) : Prop := t ≠ some (.mark "(") ∧ t ≠ some (.mark ".")

theorem covers_operand_bound (c : Cell) : ∀ fuel,
    Covers (operand fuel) [.bound c] next (· = .literal c) := by
  intro fuel
  cases fuel with
  | zero => exact .refuse
  | succ fuel =>
    refine .peeked fun l hl => ?_
    simp only [hl]
    exact .advanced (.pure rfl)

theorem covers_operand_text (s : String) : ∀ fuel,
    Covers (operand fuel) [.text s] next (· = .literal (.text s)) := by
  intro fuel
  cases fuel with
  | zero => exact .refuse
  | succ fuel =>
    refine .peeked fun l hl => ?_
    simp only [hl]
    exact .advanced (.pure rfl)

theorem covers_operand_number (s : String) : ∀ fuel,
    Covers (operand fuel) [.number s] next fun t => ∃ l, numberTerm l s = .ok t := by
  intro fuel
  cases fuel with
  | zero => exact .refuse
  | succ fuel =>
    refine .peeked fun l hl => ?_
    simp only [hl]
    intro ls rest out t hls hrest ht
    obtain ⟨l', more, rfl, -, hmore⟩ := List.map_eq_cons_iff.1 hls
    rw [List.map_eq_nil_iff.1 hmore] at ht
    cases hnumber : numberTerm l s with
    | error e =>
      rw [hnumber] at ht
      cases ht
    | ok u =>
      rw [hnumber] at ht
      cases ht
      exact ⟨rfl, l, hnumber⟩

/-- Where no parenthesis opens behind a word, it is not the name of a call. -/
theorem afterWord_eq_columnAfter {w : String} {l : Lexeme} {inner : Parse Term} {rest : List Lexeme}
    (h : EndsWord (headToken rest)) : afterWord l w inner rest = columnAfter w l.offset rest := by
  rcases rest with _ | ⟨⟨token, written, offset⟩, more⟩
  · rfl
  · cases token with
    | mark m =>
      have hm : m ≠ "(" := fun he => h.1 (by rw [he]; rfl)
      cases hcall : call? l w inner with
      | none => simp only [afterWord, hcall]; rfl
      | some call => simp [afterWord, hcall, bind_run, peek, Test.ok_bind, hm]
    | _ => rfl

/-- A plain word in front of what is neither a member of it nor arguments is a column. -/
theorem covers_afterWord {w : String} {l : Lexeme} {inner : Parse Term} (hplain : IsPlain w)
    (hnext : ∀ t, next t → EndsWord t) : Covers (afterWord l w inner) [] next (IsWord w) := by
  intro ls rest out t hls hrest ht
  rw [List.map_eq_nil_iff.1 hls, List.nil_append, afterWord_eq_columnAfter (hnext _ hrest)] at ht
  have hcovers : Covers (columnAfter w l.offset) [] next (IsWord w) :=
    .unlessMark (fun t ht => (hnext t ht).2) (.pure (.inr ⟨hplain.constant, _, rfl⟩))
  exact hcovers [] rest out t rfl hrest ht

/-- **A bare word is read as the term that it stands for.**  The word `NOT` would be read
with a term after it, but there is none. -/
theorem covers_operand_word {w : String} (hends : ∀ t, next t → EndsWord t)
    (hnot : Keyword.upper w = "NOT" → ∀ t, next t → Barred t) : ∀ fuel,
    Covers (operand fuel) [.word w] next (IsWord w) := by
  intro fuel
  cases fuel with
  | zero => exact .refuse
  | succ fuel =>
    refine .peeked fun l hl => ?_
    simp only [hl]
    cases hconstant : constant? w with
    | some t =>
      have hrun : wordTerm l w (term fuel) = advance >>= fun _ => pure t := by
        unfold wordTerm
        simp only [hconstant]
      rw [hrun]
      exact .advanced (.pure (.inl hconstant))
    | none =>
      by_cases hplain : IsPlain w
      · rw [wordTerm_of_isPlain hplain]
        exact .advanced (covers_afterWord hplain hends)
      · intro ls rest out t hls hrest ht
        obtain ⟨l', more, rfl, -, hmore⟩ := List.map_eq_cons_iff.1 hls
        refine absurd ht (wordTerm_ne_ok hconstant hplain _ _ _ (fun h x => ?_) _)
        rw [List.map_eq_nil_iff.1 hmore]
        exact term_barred_ne_ok (hnot h _ hrest) fuel x

/-! ### Terms -/

/-- What may follow a term: no operator that goes on with it. -/
def EndsTerm (t : Option Token) : Prop :=
  t ≠ some (.mark "->>") ∧ t ≠ some (.mark "+") ∧ t ≠ some (.mark "-")

variable {ts us : List Token} {P Q : Term → Prop}

theorem covers_factor (h : ∀ fuel, Covers (operand fuel) ts next P)
    (hnext : ∀ t, next t → EndsTerm t) : ∀ fuel, Covers (factor fuel) ts next P := by
  intro fuel
  cases fuel with
  | zero => exact .refuse
  | succ fuel =>
    have hall : Covers (factor (fuel + 1)) (ts ++ []) next P :=
      (h fuel).bind (fun a ha => .unlessMark (fun t ht => (hnext t ht).1) (.pure ha)) fun t ht => ht
    rwa [List.append_nil] at hall

/-- The part of a document. -/
theorem covers_part (hdocument : ∀ fuel, Covers (operand fuel) ts (· = some (.mark "->>")) P)
    (hpath : ∀ fuel, Covers (operand fuel) us next Q) : ∀ fuel,
    Covers (factor fuel) (ts ++ .mark "->>" :: us) next
      fun t => ∃ a b, t = .part a b ∧ P a ∧ Q b := by
  intro fuel
  cases fuel with
  | zero => exact .refuse
  | succ fuel =>
    refine (hdocument fuel).bind (fun a ha => .whenMark ?_) fun t _ => rfl
    exact (hpath fuel).map fun b hb => ⟨a, b, rfl, ha, hb⟩

theorem covers_term (h : ∀ fuel, Covers (factor fuel) ts next P)
    (hnext : ∀ t, next t → EndsTerm t) : ∀ fuel, Covers (term fuel) ts next P := by
  intro fuel
  cases fuel with
  | zero => exact .refuse
  | succ fuel =>
    have hall : Covers (term (fuel + 1)) (ts ++ []) next P :=
      (h fuel).bind (fun a ha => .unlessMark (fun t ht => (hnext t ht).2.1)
        (.unlessMark (fun t ht => (hnext t ht).2.2) (.pure ha))) fun t ht => ht
    rwa [List.append_nil] at hall

theorem covers_term_operand (h : ∀ fuel, Covers (operand fuel) ts next P)
    (hnext : ∀ t, next t → EndsTerm t) : ∀ fuel, Covers (term fuel) ts next P :=
  covers_term (covers_factor h hnext) hnext

theorem endsTerm_mark {m : String} (h : m ∉ ["->>", "+", "-"]) : EndsTerm (some (.mark m)) := by
  simp only [List.mem_cons, List.not_mem_nil, or_false, not_or] at h
  refine ⟨fun he => h.1 ?_, fun he => h.2.1 ?_, fun he => h.2.2 ?_⟩ <;>
    exact Token.mark.inj (Option.some.inj he)

theorem endsWord_mark {m : String} (h : m ∉ ["(", "."]) : EndsWord (some (.mark m)) := by
  simp only [List.mem_cons, List.not_mem_nil, or_false, not_or] at h
  refine ⟨fun he => h.1 ?_, fun he => h.2 ?_⟩ <;> exact Token.mark.inj (Option.some.inj he)

/-- A bare word in front of a mark that does not go on with it. -/
theorem covers_term_word_mark {m : String} (w : String) (hm : m ∉ ["->>", "+", "-", "(", "."]) :
    ∀ fuel, Covers (term fuel) [.word w] (· = some (.mark m)) (IsWord w) := by
  have hterm : EndsTerm (some (.mark m)) := endsTerm_mark fun h => hm (by simp at h ⊢; tauto)
  have hword : EndsWord (some (.mark m)) := endsWord_mark fun h => hm (by simp at h ⊢; tauto)
  refine covers_term_operand (covers_operand_word (fun t ht => ?_) fun _ t ht => ?_) fun t ht => ?_
  · rwa [ht]
  · exact .inr (.inl ⟨m, ht⟩)
  · rwa [ht]

/-! ### Functions -/

/-- A word before a parenthesis is the name of a function, if there is one of its name. -/
theorem covers_call {f : String} (hplain : IsPlain f) {call : Lexeme → Parse Term → Parse Term}
    (hcall : ∀ l inner, call? l f inner = some (call l inner))
    (h : ∀ l fuel, Covers (call l (term fuel)) (.mark "(" :: us) next P) : ∀ fuel,
    Covers (operand fuel) (.word f :: .mark "(" :: us) next P := by
  intro fuel
  cases fuel with
  | zero => exact .refuse
  | succ fuel =>
    refine .peeked fun l hl => ?_
    simp only [hl]
    rw [wordTerm_of_isPlain hplain]
    refine .advanced (.peeked fun l' hl' => ?_)
    obtain ⟨token, written, offset⟩ := l'
    obtain rfl : token = .mark "(" := hl'
    simp only [hcall]
    exact h l fuel

/-- The arguments of a function, the first of which begins with a word.  The word may be
taken for one about the arguments. -/
theorem covers_arguments {inner : Parse α} {w : String} {R : α → Prop}
    (hword : Covers inner (.word w :: us) (· = some (.mark ")")) R)
    (hskip : Covers inner us (· = some (.mark ")")) R)
    (horder : ¬ IsKeyword ["ORDER"] (us.head?.or (some (.mark ")")))) :
    Covers (arguments inner) (.mark "(" :: (.word w :: us ++ [.mark ")"])) next R := by
  refine covers_enclosed ?_
  have hrest {vs : List Token} (hinner : Covers inner vs (· = some (.mark ")")) R)
      (hvs : ¬ IsKeyword ["ORDER"] (vs.head?.or (some (.mark ")")))) :
      Covers (do if ← accept "ORDER" then Parse.refuse else inner) vs (· = some (.mark ")")) R :=
    .unlessKeyword (fun t ht => ht ▸ hvs) hinner
  by_cases habout : Keyword.upper w ∈ ["DISTINCT", "ALL"]
  · exact .whenKeyword habout (hrest hskip horder)
  · have hnot : ¬ IsKeyword ["DISTINCT", "ALL"] (some (.word w)) := fun ⟨v, hv, hmem⟩ =>
      habout (Token.word.inj (Option.some.inj hv) ▸ hmem)
    refine .unlessKeyword (fun t _ => hnot) ?_
    by_cases hw : Keyword.upper w = "ORDER"
    · exact .whenKeyword (List.mem_singleton.2 hw) .refuse
    · exact hrest hword fun ⟨v, hv, hmem⟩ =>
        hw (Token.word.inj (Option.some.inj hv) ▸ List.mem_singleton.1 hmem)

/-- A document and a path. -/
theorem covers_couple (w path : String) (fuel : Nat) :
    Covers (couple (term fuel)) [.word w, .mark ",", .text path] (· = some (.mark ")"))
      fun ab => IsWord w ab.1 ∧ ab.2 = .literal (.text path) := by
  have hdocument := covers_term_word_mark (m := ",") w (by decide) fuel
  have hpath : Covers (term fuel) [.text path] (· = some (.mark ")"))
      (· = .literal (.text path)) := by
    refine covers_term_operand (covers_operand_text path) (fun t ht => ?_) fuel
    rw [ht]
    exact endsTerm_mark (by decide)
  have hrest (a : Term) (ha : IsWord w a) :
      Covers (do mark ","; return (a, ← term fuel)) [.mark ",", .text path]
        (· = some (.mark ")")) fun ab => IsWord w ab.1 ∧ ab.2 = .literal (.text path) :=
    .afterMark (hpath.map fun b hb => ⟨ha, hb⟩)
  exact hdocument.bind hrest fun t _ => rfl

/-- No couple begins with a comma. -/
theorem covers_couple_comma (fuel : Nat) {next' : Option Token → Prop} {R : Term × Term → Prop} :
    Covers (couple (term fuel)) (.mark "," :: us) next' R := by
  refine .refused fun ls rest x hls => bind_ne_ok fun a out ha => absurd ha ?_
  refine term_barred_ne_ok (.inr (.inl ⟨",", ?_⟩)) fuel _
  rw [headToken_append hls]
  rfl

/-- What stands between the parentheses of `LOWER`: nothing, with which it is misused, or
an argument. -/
def lowered (offset : Nat) (argument : Parse Term) : Parse Term := do
  match ← peek with
  | some ⟨.mark ")", _, _⟩ => return .misused "LOWER" offset
  | _ => return .lower (← argument)

theorem isPlain_lower : IsPlain "LOWER" := ⟨by rfl, by decide, by decide, by decide, by decide⟩

theorem call?_lower (l : Lexeme) (argument : Parse Term) :
    call? l "LOWER" argument = some (arguments (lowered l.offset argument)) := by
  have hname : "LOWER".toLower = "lower" := by decide +kernel
  unfold call?
  rw [hname]
  rfl

/-- A word in lower case.  A word about arguments leaves none, and the function is
misused. -/
theorem covers_lower (w : String) : ∀ fuel,
    Covers (operand fuel) [.word "LOWER", .mark "(", .word w, .mark ")"] next fun t =>
      (∃ a, IsWord w a ∧ t = .lower a) ∨ ∃ offset, t = .misused "LOWER" offset := by
  refine covers_call isPlain_lower call?_lower fun l fuel => ?_
  have horder : ¬ IsKeyword ["ORDER"] (([] : List Token).head?.or (some (.mark ")"))) := by
    rintro ⟨v, hv, -⟩
    cases hv
  refine covers_arguments (.peeked fun l' hl' => ?_) ?_ horder
  · obtain ⟨token, written, offset⟩ := l'
    obtain rfl : token = .word w := hl'
    exact (covers_term_word_mark w (by decide) fuel).map fun a ha => .inl ⟨a, ha, rfl⟩
  · intro ls rest out t hls hrest ht
    rw [List.map_eq_nil_iff.1 hls, List.nil_append] at ht
    obtain ⟨⟨token, written, offset⟩, more, rfl, -⟩ : ∃ l' more, rest = l' :: more ∧ True := by
      cases rest with
      | nil => cases hrest
      | cons l' more => exact ⟨l', more, rfl, trivial⟩
    obtain rfl : token = .mark ")" := Option.some.inj hrest
    cases ht
    exact ⟨rfl, .inr ⟨_, rfl⟩⟩

/-- A function of a document and a path. -/
theorem covers_document {f : String} (hplain : IsPlain f) {make : Term → Term → Term}
    (hcall : ∀ l inner, call? l f inner = some do
      let ab ← twoArguments inner
      return make ab.1 ab.2) (w path : String) : ∀ fuel,
    Covers (operand fuel)
      [.word f, .mark "(", .word w, .mark ",", .text path, .mark ")"] next fun t =>
        ∃ a, IsWord w a ∧ t = make a (.literal (.text path)) := by
  refine covers_call hplain hcall fun l fuel => ?_
  have hcouple : Covers (twoArguments (term fuel))
      (.mark "(" :: ([.word w, .mark ",", .text path] ++ [.mark ")"])) next
      fun ab => IsWord w ab.1 ∧ ab.2 = .literal (.text path) :=
    covers_arguments (covers_couple w path fuel) (covers_couple_comma fuel)
      fun ⟨v, hv, _⟩ => nomatch hv
  exact hcouple.map fun ab hab => ⟨ab.1, hab.1, by rw [hab.2]⟩

theorem isPlain_kind : IsPlain "json_type" := ⟨by rfl, by decide, by decide, by decide, by decide⟩

theorem call?_kind (l : Lexeme) (inner : Parse Term) : call? l "json_type" inner = some do
    let ab ← twoArguments inner
    return .partKind ab.1 ab.2 := by
  have hname : "json_type".toLower = "json_type" := by decide +kernel
  unfold call?
  rw [hname]
  rfl

theorem covers_kind (w path : String) : ∀ fuel,
    Covers (operand fuel)
      [.word "json_type", .mark "(", .word w, .mark ",", .text path, .mark ")"] next fun t =>
        ∃ a, IsWord w a ∧ t = .partKind a (.literal (.text path)) :=
  covers_document isPlain_kind call?_kind w path

theorem isPlain_length : IsPlain "json_array_length" :=
  ⟨by rfl, by decide, by decide, by decide, by decide⟩

theorem call?_length (l : Lexeme) (inner : Parse Term) :
    call? l "json_array_length" inner = some do
      let ab ← twoArguments inner
      return .partLength ab.1 ab.2 := by
  have hname : "json_array_length".toLower = "json_array_length" := by decide +kernel
  unfold call?
  rw [hname]
  rfl

theorem covers_length (w path : String) : ∀ fuel,
    Covers (operand fuel)
      [.word "json_array_length", .mark "(", .word w, .mark ",", .text path, .mark ")"] next
        fun t => ∃ a, IsWord w a ∧ t = .partLength a (.literal (.text path)) :=
  covers_document isPlain_length call?_length w path

end Operands

end Parse

end ResourceTable.Sql
