import ResourceTable.Proofs.ConditionReading
import ResourceTable.Proofs.Reading
import ResourceTable.Proofs.RowTruth

/-!
# Reading rules

The database reads the print of a rule as a test that says no more than the rule, if it
reads it at all.  A column may be named like a keyword: then the reader refuses, or it
takes the keyword for a column, and there is no third way.

## Main definitions

* `Test.StandsFor`: a test without parts that says no more than another one.
* `Question.Suits`: a parameter is one that a question can be asked with.

## Main results

* `covers_question` — what is asked is read after what is looked at.
* `covers_rule` — **a rule is read as a test that stands for it.**
-/

namespace ResourceTable

open Sql Sql.Parse

namespace Sql

/-! ### Tests without parts -/

namespace Test

/-- Whether the test has no parts. -/
def IsSimple : Test → Prop
  | .both _ _ | .either _ _ => False
  | _ => True

theorem IsSimple.holds {t : Test} (h : t.IsSimple) {s : Scope} (hp : t.Passes s) :
    t.holds s = .ok true := by
  cases t with
  | both a b | either a b => exact h.elim
  | _ => exact hp

/-- The test has no parts and says no more than another one. -/
structure StandsFor (t d : Test) : Prop where
  refines : t.Refines d
  simple : t.IsSimple

end Test

end Sql

/-! ### What is asked -/

/-- The tokens of a parameter are its cells with commas between them. -/
theorem Param.tokens_eq (p : Param) :
    p.tokens = joinedTokens (.mark ",") (fun c => [.bound c]) (p.values.map Value.cell) := by
  unfold tokens
  generalize p.values = vs
  induction vs with
  | nil => rfl
  | cons v rest ih =>
    cases rest with
    | nil => rfl
    | cons w more =>
      rw [Ink.holes_cons_cons, tokensOf_append, ih]
      rfl

theorem Param.tokens_of_single {p : Param} {v : Value} (h : p.values = [v]) :
    p.tokens = [.bound v.cell] := by
  rw [Param.tokens_eq, h]
  rfl

namespace Question

/-- Whether a parameter is one that the question can be asked with. -/
def Suits (p : Param) : Question → Prop
  | compare mark => (∃ op, Comparison.ofText? mark = some op) ∧ ∃ v, p.values = [v]
  | listed _ => p.values ≠ []
  | fits keyword => (keyword = "LIKE" ∨ keyword = "GLOB") ∧ ∃ v, p.values = [v]
  | missing _ => True

/-- The first token of a question. -/
def opening : Question → Token
  | compare mark => .mark mark
  | listed negated => .word (if negated then "NOT" else "IN")
  | fits keyword => .word keyword
  | missing _ => .word "IS"

theorem head?_tokens (q : Question) (p : Param) :
    (tokensOf Param.tokens (q.print p)).head? = some q.opening := by
  cases q with
  | listed negated | missing negated => cases negated <;> rfl
  | _ => rfl

theorem tokens_compare {p : Param} {v : Value} (hv : p.values = [v]) {mark : String} :
    tokensOf Param.tokens ((compare mark).print p) = [.mark mark, .bound v.cell] := by
  rw [← Param.tokens_of_single hv]
  exact congrArg (Token.mark mark :: ·) (List.append_nil _)

theorem tokens_fits {p : Param} {v : Value} (hv : p.values = [v]) {keyword : String} :
    tokensOf Param.tokens ((fits keyword).print p) = [.word keyword, .bound v.cell] := by
  rw [← Param.tokens_of_single hv]
  exact congrArg (Token.word keyword :: ·) (List.append_nil _)

/-- **What is asked is read after what is looked at.** -/
theorem covers_question {q : Question} {p : Param} (h : q.Suits p) (a : Term) (fuel : Nat) :
    Covers (testAfter fuel a) (tokensOf Param.tokens (q.print p)) EndsTest
      (· = q.test (p.values.map Value.cell) a) := by
  cases q with
  | compare mark =>
    obtain ⟨⟨op, hop⟩, v, hv⟩ := h
    rw [tokens_compare hv, test, hv, hop]
    refine (covers_testAfter_compare a hop fuel (covers_bound v.cell fuel)).mono (fun _ ht => ht) ?_
    rintro t ⟨b, rfl, rfl⟩
    rfl
  | listed negated =>
    have hne : p.values.map Value.cell ≠ [] := fun he => h (List.map_eq_nil_iff.1 he)
    have hlist := covers_listed a hne negated fuel
    rw [← Param.tokens_eq] at hlist
    cases negated with
    | false => exact covers_testAfter_in a fuel hlist
    | true => exact covers_testAfter_notIn a fuel hlist
  | fits keyword =>
    obtain ⟨hkeyword, v, hv⟩ := h
    rw [tokens_fits hv, test, hv]
    rcases hkeyword with rfl | rfl
    · exact covers_testAfter_like a v.cell fuel
    · exact covers_testAfter_glob a v.cell fuel
  | missing negated =>
    have hnull : ["NULL"].map Keyword.upper = ["NULL"] := by decide
    cases negated with
    | false =>
      refine covers_testAfter_is a fuel (.unlessKeyword ?_ (.afterKeywords hnull (.pure rfl)))
      exact fun _ _ => mt isKeyword_word.1 (by decide)
    | true =>
      exact covers_testAfter_is a fuel (.whenKeyword (by decide) (.afterKeywords hnull (.pure rfl)))

/-- The same is asked about what is read as about what is meant. -/
theorem standsFor_test {q : Question} (cells : List Cell) {a d : Term} (h : a.Refines d) :
    (q.test cells a).StandsFor (q.test cells d) := by
  cases q with
  | compare mark => exact ⟨Test.Refines.compare h _ _, trivial⟩
  | listed negated =>
    refine ⟨Test.Refines.listTest h negated _, ?_⟩
    rw [test]
    unfold listTest
    split
    · split <;> trivial
    · trivial
  | fits keyword => exact ⟨Test.Refines.fits h _ _, trivial⟩
  | missing negated => exact ⟨Test.Refines.missing h negated, trivial⟩

theorem Suits.endsTerm_opening {q : Question} {p : Param} (h : q.Suits p) :
    EndsTerm (some q.opening) ∧ EndsWord (some q.opening) := by
  cases q with
  | compare mark =>
    obtain ⟨⟨op, hop⟩, -⟩ := h
    have hmem : mark ∉ ["->>", "+", "-"] ∧ mark ∉ ["(", "."] := by
      have hall : ∀ c ∈ Comparison.all, c.text ∉ ["->>", "+", "-"] ∧ c.text ∉ ["(", "."] := by
        decide
      have htext := List.find?_some hop
      rw [beq_iff_eq] at htext
      exact htext ▸ hall op (List.mem_of_find?_eq_some hop)
    exact ⟨endsTerm_mark hmem.1, endsWord_mark hmem.2⟩
  | _ => exact ⟨⟨nofun, nofun, nofun⟩, nofun, nofun⟩

/-- A test of what is looked at. -/
theorem covers_after_term {q : Question} {p : Param} (h : q.Suits p) {d : Term} {ts : List Token}
    (hterm : ∀ fuel, Covers (term fuel) ts (· = some q.opening) fun t => t.Refines d) (fuel : Nat) :
    Covers (do testAfter fuel (← term fuel)) (ts ++ tokensOf Param.tokens (q.print p)) EndsTest
      fun t => t.StandsFor (q.test (p.values.map Value.cell) d) := by
  refine (hterm fuel).bind (fun a ha => ?_) fun t _ => by rw [head?_tokens]; rfl
  refine (covers_question h a fuel).mono (fun _ ht => ht) fun t ht => ?_
  rw [ht]
  exact standsFor_test _ ha

end Question

/-! ### What is looked at -/

namespace Sql.Parse

theorem mark_ne_ok {s : String} {ls : List Lexeme} (h : headToken ls ≠ some (.mark s))
    (x : Unit × List Lexeme) : mark s ls ≠ .ok x := by
  refine bind_ne_ok fun b out hb => ?_
  rw [acceptMark_run, if_neg h] at hb
  cases hb
  exact refuse_ne_ok ls x

/-- A test that begins with a word.  The word `EXISTS` would need a parenthesis. -/
theorem covers_simpleTest {w : String} {us : List Token} {P : Test → Prop}
    (hopen : Keyword.upper w = "EXISTS" → ∃ t, us.head? = some t ∧ t ≠ .mark "(")
    (h : ∀ fuel, Covers (do testAfter fuel (← term fuel)) (.word w :: us) EndsTest P) : ∀ fuel,
    Covers (simpleTest fuel) (.word w :: us) EndsTest P := by
  intro fuel
  cases fuel with
  | zero => exact .refuse
  | succ fuel =>
    refine .unlessMark (fun _ _ => nofun) ?_
    by_cases hw : Keyword.upper w = "EXISTS"
    · refine .whenKeyword (List.mem_singleton.2 hw) ?_
      obtain ⟨t, ht, hne⟩ := hopen hw
      refine .refused fun ls rest x hls => bind_ne_ok fun _ out hout => absurd hout ?_
      refine mark_ne_ok (fun hhead => hne ?_) _
      rw [headToken_append hls, ht] at hhead
      exact Option.some.inj hhead
    · exact .unlessKeyword (fun _ _ => mt isKeyword_word.1 (mt List.mem_singleton.1 hw)) (h fuel)

/-- The word `NOT` is read with the term after it. -/
theorem covers_negation {w : String} (hw : Keyword.upper w = "NOT") {ts : List Token}
    {next : Option Token → Prop} {P : Term → Prop}
    (h : ∀ fuel, Covers (term fuel) ts next P) (hnext : ∀ t, next t → EndsTerm t) : ∀ fuel,
    Covers (term fuel) (.word w :: ts) next fun t => ∃ a, t = .negated a ∧ P a := by
  refine covers_term_operand (fun fuel => ?_) hnext
  cases fuel with
  | zero => exact .refuse
  | succ fuel =>
    refine .peeked fun l hl => ?_
    have hconstant : constant? w = none := by
      unfold constant?
      rw [hw]
      rfl
    have hcall : Keyword.opensCall w = false := by
      unfold Keyword.opensCall
      rw [hw]
      decide
    have hrun : wordTerm l w (term fuel) = do advance; return .negated (← term fuel) := by
      unfold wordTerm
      simp only [hconstant, hcall, if_pos hw]
      rfl
    simp only [hl, hrun]
    exact .advanced ((h fuel).map fun a ha => ⟨a, rfl, ha⟩)

/-- There is no term in front of a token that no term begins with. -/
theorem covers_term_nothing {next : Option Token → Prop} (h : ∀ t, next t → Barred t)
    (fuel : Nat) : Covers (term fuel) [] next fun _ => False := by
  intro ls rest out a hls hrest ha
  rw [List.map_eq_nil_iff.1 hls] at ha
  exact absurd ha (term_barred_ne_ok (h _ hrest) fuel _)

/-- Nothing is asked by a value alone. -/
theorem covers_testAfter_bound (a : Term) (c : Cell) {P : Test → Prop} (fuel : Nat) :
    Covers (testAfter fuel a) [.bound c] EndsTest P := by
  have hnot (ks : List String) (t : Option Token) : ¬ IsKeyword ks ((some (.bound c)).or t) :=
    fun ⟨_, hw, _⟩ => nomatch hw
  refine .unlessKeyword (fun t _ => hnot _ t) (.unlessKeyword (fun t _ => hnot _ t)
    (.unlessKeyword (fun t _ => hnot _ t) (.unlessKeyword (fun t _ => hnot _ t)
      (.unlessKeyword (fun t _ => hnot _ t) (.peeked fun l hl => ?_)))))
  obtain ⟨token, written, offset⟩ := l
  obtain rfl : token = .bound c := hl
  exact .refuse

end Sql.Parse

section Subjects

variable {q : Question} {p : Param}

/-- A column is read as the term that its name stands for, where that ends it. -/
theorem covers_plainColumn {w : String} (h : q.Suits p)
    (hnot : Keyword.upper w = "NOT" → Barred (some q.opening)) (fuel : Nat) :
    Covers (do testAfter fuel (← term fuel)) ([.word w] ++ tokensOf Param.tokens (q.print p))
      EndsTest fun t => t.StandsFor (q.test (p.values.map Value.cell) (.ofWord w)) := by
  obtain ⟨hterm, hword⟩ := h.endsTerm_opening
  refine Question.covers_after_term h (fun fuel => ?_) fuel
  have hcolumn : Covers (term fuel) [.word w] (· = some q.opening) (IsWord w) := by
    refine covers_term_operand (covers_operand_word ?_ ?_) ?_ fuel
    · rintro t rfl
      exact hword
    · rintro hw t rfl
      exact hnot hw
    · rintro t rfl
      exact hterm
  exact hcolumn.mono (fun _ ht => ht) fun t ht => .of_isWord ht

/-- A test of a column.  With the name `NOT` before another keyword, nothing is read. -/
theorem covers_column (w : String) (h : q.Suits p) (fuel : Nat) :
    Covers (do testAfter fuel (← term fuel)) ([.word w] ++ tokensOf Param.tokens (q.print p))
      EndsTest fun t => t.StandsFor (q.test (p.values.map Value.cell) (.ofWord w)) := by
  by_cases hw : Keyword.upper w = "NOT"
  · cases q with
    | compare mark => exact covers_plainColumn h (fun _ => .inr (.inl ⟨mark, rfl⟩)) fuel
    | missing negated =>
      exact covers_plainColumn h (fun _ => .inr (.inr (isKeyword_word.2 (by decide)))) fuel
    | listed negated =>
      cases negated with
      | false =>
        exact covers_plainColumn h (fun _ => .inr (.inr (isKeyword_word.2 (by decide)))) fuel
      | true =>
        -- The second `NOT` is taken for another negation, and no term begins with `IN`.
        have hends : ∀ t, t = some (.word "IN") → EndsTerm t := by
          rintro t rfl
          exact ⟨nofun, nofun, nofun⟩
        have hbarred : ∀ t, t = some (.word "IN") → Barred t := by
          rintro t rfl
          exact .inr (.inr (isKeyword_word.2 (by decide)))
        have hsecond (fuel : Nat) : Covers (term fuel) [.word "NOT"] (· = some (.word "IN"))
            fun t => ∃ a, t = .negated a ∧ False :=
          covers_negation (by decide) (covers_term_nothing hbarred) hends fuel
        refine (covers_negation hw hsecond hends fuel).bind ?_ fun t _ => rfl
        rintro a ⟨b, -, c, -, hfalse⟩
        exact hfalse.elim
    | fits keyword =>
      -- The keyword is taken for a column, and a value alone asks nothing.
      obtain ⟨hkeyword, v, hv⟩ := h
      have hnot : Keyword.upper keyword ≠ "NOT" := by
        rcases hkeyword with rfl | rfl <;> decide
      have hends : ∀ t, t = some (.bound v.cell) → EndsTerm t := by
        rintro t rfl
        exact ⟨nofun, nofun, nofun⟩
      have hword (fuel : Nat) :
          Covers (term fuel) [.word keyword] (· = some (.bound v.cell)) (IsWord keyword) := by
        refine covers_term_operand (covers_operand_word ?_ fun he => absurd he hnot) hends fuel
        rintro t rfl
        exact ⟨nofun, nofun⟩
      have htokens : tokensOf Param.tokens ((Question.fits keyword).print p) =
          [.word keyword] ++ [.bound v.cell] := Question.tokens_fits hv
      rw [htokens, ← List.append_assoc]
      refine (covers_negation hw hword hends fuel).bind (fun a _ => ?_) fun t _ => rfl
      exact covers_testAfter_bound a v.cell fuel
  · exact covers_plainColumn h (fun he => absurd he hw) fuel

/-- The tokens of what is looked at, and of the question about it. -/
theorem tokens_front_question (s : Subject) (w path : String) (q : Question) (p : Param) :
    tokensOf Param.tokens (s.front w path ++ q.print p) =
      tokensOf Param.tokens (s.front w path) ++ tokensOf Param.tokens (q.print p) :=
  tokensOf_append _ _ _

/-- **What is looked at is read before what is asked.** -/
theorem covers_front {s : Subject} (hs : s ≠ .element) (w path : String) (h : q.Suits p)
    (fuel : Nat) :
    Covers (do testAfter fuel (← term fuel))
      (tokensOf Param.tokens (s.front w path ++ q.print p)) EndsTest
      fun t => t.StandsFor
        (q.test (p.values.map Value.cell) (s.term (.ofWord w) (.literal (.text path)))) := by
  have hends : ∀ t, t = some q.opening → EndsTerm t := by
    rintro t rfl
    exact h.endsTerm_opening.1
  rw [tokens_front_question]
  cases s with
  | column => exact covers_column w h fuel
  | lowered =>
    refine Question.covers_after_term h (covers_term_operand (fun fuel => ?_) hends) fuel
    refine (covers_lower w fuel).mono (fun _ ht => ht) ?_
    rintro t (⟨a, ha, rfl⟩ | ⟨offset, rfl⟩)
    · exact (Term.Refines.of_isWord ha).lower
    · exact .of_misused _ offset _
  | part =>
    have hdocument (fuel : Nat) :
        Covers (operand fuel) [.word w] (· = some (.mark "->>")) (IsWord w) := by
      refine covers_operand_word ?_ (fun _ => ?_) fuel
      · rintro t rfl
        exact endsWord_mark (by decide)
      · rintro t rfl
        exact .inr (.inl ⟨"->>", rfl⟩)
    -- A part is no operand: it is read as a factor, up to the question.
    have hpart (fuel : Nat) : Covers (factor fuel) ([.word w] ++ .mark "->>" :: [.text path])
        (· = some q.opening)
        fun t => ∃ a b, t = .part a b ∧ IsWord w a ∧ b = .literal (.text path) :=
      covers_part hdocument (covers_operand_text path) fuel
    refine Question.covers_after_term h (covers_term (fun fuel => ?_) hends) fuel
    refine (hpart fuel).mono (fun _ ht => ht) ?_
    rintro t ⟨a, b, rfl, ha, rfl⟩
    exact (Term.Refines.of_isWord ha).part _
  | element => exact absurd rfl hs
  | length =>
    refine Question.covers_after_term h (covers_term_operand (fun fuel => ?_) hends) fuel
    refine (covers_length w path fuel).mono (fun _ ht => ht) ?_
    rintro t ⟨a, ha, rfl⟩
    exact (Term.Refines.of_isWord ha).partLength _
  | kind =>
    refine Question.covers_after_term h (covers_term_operand (fun fuel => ?_) hends) fuel
    refine (covers_kind w path fuel).mono (fun _ ht => ht) ?_
    rintro t ⟨a, ha, rfl⟩
    exact (Term.Refines.of_isWord ha).partKind _

/-- What does not look at elements is a test without parentheses of its own. -/
theorem covers_outside {s : Subject} (hs : s ≠ .element) (w path : String) (h : q.Suits p) : ∀ fuel,
    Covers (simpleTest fuel) (tokensOf Param.tokens (s.front w path ++ q.print p)) EndsTest
      fun t => t.StandsFor
        (q.test (p.values.map Value.cell) (s.term (.ofWord w) (.literal (.text path)))) := by
  have hfront := covers_front hs w path h
  cases s with
  | column =>
    refine covers_simpleTest (fun _ => ⟨q.opening, Question.head?_tokens q p, fun he => ?_⟩) hfront
    exact h.endsTerm_opening.2.1 (congrArg some he)
  | part => exact covers_simpleTest (fun _ => ⟨_, rfl, nofun⟩) hfront
  | element => exact absurd rfl hs
  | _ => exact covers_simpleTest (fun he => absurd he (by decide)) hfront

/-- The tokens of a test of elements, with those of the test of one of them. -/
theorem tokens_element (w path : String) (q : Question) (p : Param) :
    tokensOf Param.tokens
        (Subject.element.front w path ++ q.print p ++ Subject.element.back) =
      .word "EXISTS" :: .mark "(" :: (["SELECT"].map Token.word ++ ([.number "1"] ++
        (["FROM", "json_each"].map Token.word ++
          (.mark "(" :: ([.word w, .mark ",", .text path] ++ [.mark ")"]) ++
            (["WHERE"].map Token.word ++
              (tokensOf Param.tokens (Subject.column.front "value" "" ++ q.print p) ++
                [.mark ")"])))))) := by
  rw [tokensOf_append, tokensOf_append, tokens_front_question, List.append_assoc]
  rfl

/-- **A test of elements is read with the test of one of them.** -/
theorem covers_element (w path : String) (h : q.Suits p) : ∀ fuel,
    Covers (simpleTest fuel)
      (tokensOf Param.tokens (Subject.element.front w path ++ q.print p ++ Subject.element.back))
      EndsTest fun t => t.StandsFor (.someElement (.ofWord w) (.literal (.text path))
        (q.test (p.values.map Value.cell) (.column "value" 0))) := by
  intro fuel
  cases fuel with
  | zero => exact .refuse
  | succ fuel =>
    have hselect : ["SELECT"].map Keyword.upper = ["SELECT"] := by decide
    have hfrom : ["FROM", "json_each"].map Keyword.upper = ["FROM", "JSON_EACH"] := by decide
    have hwhere : ["WHERE"].map Keyword.upper = ["WHERE"] := by decide
    have hvalue : Term.ofWord "value" = .column "value" 0 := by rfl
    -- The test inside asks the same question of the column `value`.
    have htest : Covers (test fuel)
        (tokensOf Param.tokens (Subject.column.front "value" "" ++ q.print p))
        (· = some (.mark ")"))
        fun t => t.StandsFor (q.test (p.values.map Value.cell) (.column "value" 0)) := by
      have hinner := covers_test (covers_outside (s := .column) nofun "value" "" h) fuel
      rw [Subject.term, hvalue] at hinner
      refine hinner.mono ?_ fun _ ht => ht
      rintro t rfl
      exact .inr (.inl rfl)
    have hcouple : Covers (enclosed (couple (term fuel)))
        (.mark "(" :: ([.word w, .mark ",", .text path] ++ [.mark ")"])) (fun _ => True)
        fun ab => IsWord w ab.1 ∧ ab.2 = .literal (.text path) :=
      covers_enclosed (covers_couple w path fuel)
    have hone : Covers (operand fuel) [.number "1"] (fun _ => True) fun _ => True :=
      (covers_operand_number "1" fuel).mono (fun _ ht => ht) fun _ _ => trivial
    -- Read in the order of the tokens: `EXISTS (SELECT 1 FROM json_each(w, path) WHERE ...)`.
    rw [tokens_element]
    refine .unlessMark (fun _ _ => nofun) (.whenKeyword (by decide) (.afterMark
      (.afterKeywords hselect (hone.bind (fun _ _ => ?_) fun _ _ => trivial))))
    refine .afterKeywords hfrom (hcouple.bind (fun ab hab => ?_) fun _ _ => trivial)
    refine .afterKeywords hwhere (htest.bind (fun t ht => ?_) fun _ _ => rfl)
    refine (covers_mark ")").map fun _ _ => ?_
    rw [hab.2]
    have hcolumn := Term.Refines.isElementColumn_of_isWord hab.1
    exact ⟨Test.Refines.someElement (.of_isWord hab.1) hcolumn _ ht.refines, trivial⟩

end Subjects

/-! ### The rule -/

namespace Rule

variable {rules : FilterRules} {r : Rule} {type : ColumnType}

/-- A single operand binds a single value. -/
theorem Passed.payload_single (h : Passed rules r type) (hop : r.op.takesList = false) :
    ∃ v, (r.payload (some type)).values = [v] := by
  obtain ⟨v, hv⟩ := h.single hop
  unfold payload
  split
  · exact ⟨_, rfl⟩
  · exact ⟨_, rfl⟩
  · exact ⟨_, rfl⟩
  · next hlist =>
    rw [hv.operand] at hlist
    cases hlist

/-- **What a rule that passes the check binds suits what its operator asks.** -/
theorem Passed.suits (h : Passed rules r type) : r.op.question.Suits (r.payload (some type)) := by
  have hsingle := h.payload_single
  have hlist := h.payload_values
  cases hr : r.op with
  | oneOf | noneOf | jsonOneOf | jsonOverlaps =>
    rw [hr] at hlist
    exact (hlist rfl).1
  | jsonHasPath | jsonLacksPath => trivial
  | contains =>
    rw [hr] at hsingle
    exact ⟨.inr rfl, hsingle rfl⟩
  | containsAnyCase =>
    rw [hr] at hsingle
    exact ⟨.inl rfl, hsingle rfl⟩
  | _ =>
    rw [hr] at hsingle
    exact ⟨Option.isSome_iff_exists.1 (by decide), hsingle rfl⟩

/-- **A rule is read as a test that stands for it.** -/
theorem covers_rule (h : r.check rules = .ok ()) : ∀ fuel,
    Covers (simpleTest fuel) (r.tokens rules.fields) EndsTest
      fun t => t.StandsFor (r.asTest (rules.fields.get? r.field)) := by
  obtain ⟨type, hpassed⟩ := passed_of_check h
  have hsuits := hpassed.suits
  rw [tokens, asTest, hpassed.known, print]
  cases hs : r.op.subject with
  | element => exact covers_element r.place.1 r.place.2 hsuits
  | _ =>
    simp only [Subject.back, List.append_nil]
    refine covers_outside ?_ r.place.1 r.place.2 hsuits
    intro helement
    cases helement

end Rule

end ResourceTable
