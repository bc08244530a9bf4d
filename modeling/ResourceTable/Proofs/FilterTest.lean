import Mathlib
import ResourceTable.Proofs.SuccessfulReading

/-!
# The test that a filter is read as

If the words of its fields are plain, the clause of a filter is read, at a depth that its
own tokens bound, as the tests of its rules joined as the rules are.  What the clause says
of a row is thus told by the filter alone, wherever the clause stands.

## Main definitions

* `IsColumnWord`: a word that a condition may begin with.
* `Filter.asTest`: a filter as a test of rows.

## Main results

* `reads_question`, `reads_front` — what is looked at and what is asked are read.
* `reads_rule` — a rule is read as its test.
* `reads_filter`, `reads_condition` — **a filter is read as its test, but for places.**
-/

namespace ResourceTable

open Sql Sql.Parse

namespace Sql.Parse

variable {α : Type}

/-! ### After a term -/

section After

variable (a : Term)

theorem reads_bound (c : Cell) (fuel : Nat) :
    Reads (term (fuel + 3)) [.bound c] EndsTest (· = .literal c) :=
  reads_term (reads_operand_bound c fuel) fun _ ht => ht.endsTerm

/-- A comparison with a term. -/
theorem reads_compare {m : String} {op : Comparison} {ts : List Token}
    {next : Option Token → Prop} {P : Term → Prop} (hm : Comparison.ofText? m = some op)
    {fuel : Nat} (h : Reads (term fuel) ts next P) :
    Reads (testAfter fuel a) (.mark m :: ts) next fun t => ∃ b, t = .compare op a b ∧ P b := by
  have hnot (ks : List String) (t : Option Token) : ¬ IsKeyword ks ((some (.mark m)).or t) :=
    not_isKeyword_mark
  refine .unlessKeyword (fun t _ => hnot _ t) (.unlessKeyword (fun t _ => hnot _ t)
    (.unlessKeyword (fun t _ => hnot _ t) (.unlessKeyword (fun t _ => hnot _ t)
      (.unlessKeyword (fun t _ => hnot _ t) (.peeked fun l hl => ?_)))))
  obtain ⟨token, written, offset⟩ := l
  obtain rfl : token = .mark m := hl
  simp only [hm]
  exact .advanced (h.map fun b hb => ⟨b, rfl, hb⟩)

/-- The values of a list, in parentheses. -/
theorem reads_listed {cells : List Cell} (hne : cells ≠ []) (negated : Bool) {fuel : Nat}
    (hmany : cells.length ≤ fuel + 3) :
    Reads (listed (fuel + 3) negated a)
      (.mark "(" :: (joinedTokens (.mark ",") (fun c => [.bound c]) cells ++ [.mark ")"])) EndsTest
      (· = listTest negated a (cells.map .literal)) := by
  have hitem (c : Cell) : Reads (term (fuel + 3)) [.bound c] (OrComma (· = some (.mark ")")))
      (· = .literal c) := by
    refine reads_term (reads_operand_bound c fuel) fun t ht => ?_
    rcases ht with ht | ht <;> rw [ht] <;> exact endsTerm_mark (by decide)
  have hitems := reads_separated (R := fun c t => t = Term.literal c) hne (fun c _ => hitem c)
    (fun t ht => by rw [ht]; decide) hmany
  refine (reads_enclosed hitems).map fun l hl => ?_
  rw [eq_map_of_forall₂ hl]

theorem reads_in {ts : List Token} {P : Test → Prop} {fuel : Nat}
    (h : Reads (listed fuel false a) ts EndsTest P) :
    Reads (testAfter fuel a) (.word "IN" :: ts) EndsTest P :=
  .whenKeyword (by decide) h

theorem reads_notIn {ts : List Token} {P : Test → Prop} {fuel : Nat}
    (h : Reads (listed fuel true a) ts EndsTest P) :
    Reads (testAfter fuel a) (.word "NOT" :: .word "IN" :: ts) EndsTest P := by
  have hupper : ["IN"].map Keyword.upper = ["IN"] := by decide
  have hin : Reads (do keywords ["IN"]; listed fuel true a) (.word "IN" :: ts) EndsTest P :=
    .afterKeywords hupper h
  exact .unlessKeyword (fun _ _ => mt isKeyword_word.1 (by decide)) (.whenKeyword (by decide) hin)

theorem reads_like (c : Cell) (fuel : Nat) :
    Reads (testAfter (fuel + 3) a) [.word "LIKE", .bound c] EndsTest
      (· = .fits .like a (.literal c)) := by
  have hpattern := (reads_bound c fuel).map (f := Test.fits .like a)
    (Q := (· = Test.fits .like a (.literal c))) fun b hb => by rw [hb]
  exact .unlessKeyword (fun _ _ => mt isKeyword_word.1 (by decide))
    (.unlessKeyword (fun _ _ => mt isKeyword_word.1 (by decide))
      (.whenKeyword (by decide) hpattern))

theorem reads_glob (c : Cell) (fuel : Nat) :
    Reads (testAfter (fuel + 3) a) [.word "GLOB", .bound c] EndsTest
      (· = .fits .glob a (.literal c)) := by
  have hpattern := (reads_bound c fuel).map (f := Test.fits .glob a)
    (Q := (· = Test.fits .glob a (.literal c))) fun b hb => by rw [hb]
  exact .unlessKeyword (fun _ _ => mt isKeyword_word.1 (by decide))
    (.unlessKeyword (fun _ _ => mt isKeyword_word.1 (by decide))
      (.unlessKeyword (fun _ _ => mt isKeyword_word.1 (by decide))
        (.whenKeyword (by decide) hpattern)))

theorem reads_is {ts : List Token} {P : Test → Prop} {fuel : Nat}
    (h : Reads (do let negated ← accept "NOT"; keywords ["NULL"]; return Test.missing negated a)
      ts EndsTest P) :
    Reads (testAfter fuel a) (.word "IS" :: ts) EndsTest P :=
  .unlessKeyword (fun _ _ => mt isKeyword_word.1 (by decide))
    (.unlessKeyword (fun _ _ => mt isKeyword_word.1 (by decide))
      (.unlessKeyword (fun _ _ => mt isKeyword_word.1 (by decide))
        (.unlessKeyword (fun _ _ => mt isKeyword_word.1 (by decide))
          (.whenKeyword (by decide) h))))

end After

/-! ### Conditions -/

section Conditions

variable {ts : List Token} {next : Option Token → Prop} {P : Test → Prop} {fuel : Nat}

/-- A list of tests is read as one test, the left-most joined first. -/
theorem reads_joined {join : Test → Test → Test} {p : Parse (List Test)}
    {P : List Test → Prop} {Q : Test → Prop} (h : Reads p ts next P) (hne : ¬ P [])
    (hQ : ∀ t rest, P (t :: rest) → Q (rest.foldl join t)) :
    Reads (do joined join (← p)) ts next Q := by
  refine h.bind_nil fun l hl => ?_
  cases l with
  | nil => exact absurd hl hne
  | cons t rest => exact .pure (hQ t rest hl)

/-- A part of a disjunction that has no parts. -/
theorem reads_alone (h : Reads (simpleTest (fuel + 1)) ts EndsTest P) :
    Reads (do joined .both (← sequence "AND" (simpleTest (fuel + 1)) (fuel + 1))) ts
      EndsPart P := by
  have hpart :=
    h.mono (endsTest_of_keyword (k := "AND") (by decide) EndsPart.endsTest) fun _ ht => ht
  refine reads_joined (reads_sequence_one hpart EndsPart.not_and fuel) ?_ ?_
  · rintro ⟨u, hu, -⟩
    cases hu
  · rintro t rest ⟨u, hu, hP⟩
    cases hu
    exact hP

/-- A test without parts as a condition. -/
theorem reads_test (h : Reads (simpleTest (fuel + 1)) ts EndsTest P) :
    Reads (test (fuel + 2)) ts EndsCondition P := by
  have hone := reads_alone h
  refine reads_joined (reads_sequence_one hone EndsCondition.not_or fuel) ?_ ?_
  · rintro ⟨u, hu, -⟩
    cases hu
  · rintro t rest ⟨u, hu, hP⟩
    cases hu
    exact hP

section Conjunctions

variable {ι : Type} {tokens : ι → List Token} {R : ι → Test → Prop} {xs : List ι}

theorem reads_and (hne : xs ≠ []) (hmany : xs.length ≤ fuel + 1)
    (h : ∀ x ∈ xs, Reads (simpleTest (fuel + 1)) (tokens x) EndsTest (R x)) :
    Reads (test (fuel + 2)) (joinedTokens (.word "AND") tokens xs) EndsCondition
      fun t => ∃ u rest, List.Forall₂ R xs (u :: rest) ∧ t = rest.foldl .both u := by
  have hparts (x : ι) (hx : x ∈ xs) : Reads (simpleTest (fuel + 1)) (tokens x)
      (fun t => IsKeyword ["AND"] t ∨ EndsPart t) (R x) :=
    (h x hx).mono (endsTest_of_keyword (by decide) EndsPart.endsTest) fun _ ht => ht
  have hone : Reads (do joined .both (← sequence "AND" (simpleTest (fuel + 1)) (fuel + 1)))
      (joinedTokens (.word "AND") tokens xs) EndsPart
      fun t => ∃ u rest, List.Forall₂ R xs (u :: rest) ∧ t = rest.foldl .both u := by
    refine reads_joined (reads_sequence (by decide) hne hparts EndsPart.not_and hmany) ?_
      fun u rest hall => ⟨u, rest, hall, rfl⟩
    intro hall
    exact hne (List.forall₂_nil_right_iff.1 hall)
  refine reads_joined (reads_sequence_one hone EndsCondition.not_or fuel) ?_ ?_
  · rintro ⟨u, hu, -⟩
    cases hu
  · rintro t rest ⟨u, hu, hall⟩
    cases hu
    exact hall

theorem reads_or (hne : xs ≠ []) (hmany : xs.length ≤ fuel + 1)
    (h : ∀ x ∈ xs, Reads (simpleTest (fuel + 1)) (tokens x) EndsTest (R x)) :
    Reads (test (fuel + 2)) (joinedTokens (.word "OR") tokens xs) EndsCondition
      fun t => ∃ u rest, List.Forall₂ R xs (u :: rest) ∧ t = rest.foldl .either u := by
  have hparts (x : ι) (hx : x ∈ xs) := reads_alone (h x hx)
  refine reads_joined (reads_sequence (by decide) hne hparts EndsCondition.not_or hmany) ?_
    fun t rest hrest => ⟨t, rest, hrest, rfl⟩
  intro hall
  exact hne (List.forall₂_nil_right_iff.1 hall)

end Conjunctions

/-- A test of a term that begins with a word. -/
theorem reads_simpleTest {w : String} {us : List Token} (hw : Keyword.upper w ≠ "EXISTS")
    (h : Reads (do testAfter fuel (← term fuel)) (.word w :: us) EndsTest P) :
    Reads (simpleTest (fuel + 1)) (.word w :: us) EndsTest P :=
  .unlessMark (fun _ _ => nofun)
    (.unlessKeyword (fun _ _ => mt isKeyword_word.1 (mt List.mem_singleton.1 hw)) h)

/-- The words that begin a statement. -/
def openings : List String := ["SELECT", "WITH", "VALUES"]

theorem reads_noInnerStatement :
    Reads noInnerStatement [] (fun t => ¬ IsKeyword openings t) fun _ => True := by
  have hsub (k : String) (hk : k ∈ openings) (t : Option Token) (ht : ¬ IsKeyword openings t) :
      ¬ IsKeyword [k] t := by
    refine mt (isKeyword_mono ?_) ht
    simpa using hk
  exact .unlessKeyword (hsub "SELECT" (by decide)) (.unlessKeyword (hsub "WITH" (by decide))
    (.unlessKeyword (hsub "VALUES" (by decide)) (.pure trivial)))

/-- A test in parentheses is read as the test, if it does not look like a statement. -/
theorem reads_group (hopen : ¬ IsKeyword openings (ts.head?.or (some (.mark ")"))))
    (h : Reads (test fuel) ts EndsCondition P) :
    Reads (simpleTest (fuel + 1)) (.mark "(" :: (ts ++ [.mark ")"])) next P := by
  have hrest (t : Test) (ht : P t) :
      Reads (do mark ")"; return t) [.mark ")"] next P := (reads_mark ")").map fun _ _ => ht
  have hinner : Reads (do let t ← test fuel; mark ")"; return t) (ts ++ [.mark ")"]) next P :=
    h.bind hrest fun _ _ => .inr (.inl rfl)
  have hhead (t : Option Token) :
      (ts ++ [Token.mark ")"]).head?.or t = ts.head?.or (some (.mark ")")) := by
    cases ts with
    | nil => rfl
    | cons u us => rfl
  refine .whenMark (reads_noInnerStatement.bind (fun _ _ => hinner) fun t _ => ?_)
  show ¬ IsKeyword openings ((ts ++ [Token.mark ")"]).head?.or t)
  rwa [hhead]

end Conditions

end Sql.Parse

/-! ### What is asked -/

namespace Question

variable {q : Question} {p : Param}

/-- **What is asked is read after what is looked at**, if the depth suffices for its
tokens. -/
theorem reads_question (h : q.Suits p) (a : Term) {fuel : Nat}
    (hfuel : (tokensOf Param.tokens (q.print p)).length ≤ fuel + 3) :
    Reads (testAfter (fuel + 3) a) (tokensOf Param.tokens (q.print p)) EndsTest
      (· = q.test (p.values.map Value.cell) a) := by
  cases q with
  | compare mark =>
    obtain ⟨⟨op, hop⟩, v, hv⟩ := h
    rw [tokens_compare hv, test, hv, hop]
    refine (reads_compare a hop (reads_bound v.cell fuel)).mono (fun _ ht => ht) ?_
    rintro t ⟨b, rfl, rfl⟩
    rfl
  | listed negated =>
    have hne : p.values.map Value.cell ≠ [] := fun he => h (List.map_eq_nil_iff.1 he)
    have hmany : (p.values.map Value.cell).length ≤ fuel + 3 := by
      have hparts := length_le_joinedTokens (.mark ",") (fun c => [Token.bound c])
        (p.values.map Value.cell)
      rw [← Param.tokens_eq] at hparts
      have hprint : p.tokens.length + 3 ≤ (tokensOf Param.tokens ((listed negated).print p)).length := by
        cases negated <;> simp [Question.print, tokensOf, Ink.tokens]
      omega
    have hlist := reads_listed a hne negated hmany
    rw [← Param.tokens_eq] at hlist
    cases negated with
    | false => exact reads_in a hlist
    | true => exact reads_notIn a hlist
  | fits keyword =>
    obtain ⟨hkeyword, v, hv⟩ := h
    rw [tokens_fits hv, test, hv]
    rcases hkeyword with rfl | rfl
    · exact reads_like a v.cell fuel
    · exact reads_glob a v.cell fuel
  | missing negated =>
    have hnull : ["NULL"].map Keyword.upper = ["NULL"] := by decide
    cases negated with
    | false =>
      refine reads_is a (.unlessKeyword ?_ (.afterKeywords hnull (.pure rfl)))
      exact fun _ _ => mt isKeyword_word.1 (by decide)
    | true => exact reads_is a (.whenKeyword (by decide) (.afterKeywords hnull (.pure rfl)))

/-- The same is asked about terms that differ in their places. -/
theorem sameTest_test (q : Question) (cells : List Cell) {a b : Term} (h : SameTerm a b) :
    SameTest (q.test cells a) (q.test cells b) := by
  cases q with
  | compare mark => exact .compare _ h (.refl _)
  | listed negated =>
    exact sameTest_listTest negated h (List.forall₂_same.2 fun c _ => SameTerm.refl c)
  | fits keyword => rw [SameTest, test, test, Test.unplaced, Test.unplaced, h]
  | missing negated => rw [SameTest, test, test, Test.unplaced, Test.unplaced, h]

/-- A test of what is looked at. -/
theorem reads_after_term (h : q.Suits p) {d : Term} {ts : List Token} {fuel : Nat}
    (hfuel : (tokensOf Param.tokens (q.print p)).length ≤ fuel + 3)
    (hterm : Reads (term (fuel + 3)) ts (· = some q.opening) (SameTerm · d)) :
    Reads (do testAfter (fuel + 3) (← term (fuel + 3))) (ts ++ tokensOf Param.tokens (q.print p))
      EndsTest (SameTest · (q.test (p.values.map Value.cell) d)) := by
  refine hterm.bind (fun a ha => ?_) fun t _ => by rw [head?_tokens]; rfl
  refine (reads_question h a hfuel).mono (fun _ ht => ht) fun t ht => ?_
  rw [ht]
  exact q.sameTest_test _ ha

end Question

/-! ### What is looked at -/

section Subjects

variable {q : Question} {p : Param} {s : Subject} {w : String} {fuel : Nat}

/-- **What is looked at is read before what is asked.** -/
theorem reads_front (hs : s ≠ .element) (hplain : IsPlain w) (path : String) (h : q.Suits p)
    (hfuel : (tokensOf Param.tokens (q.print p)).length ≤ fuel + 6) :
    Reads (do testAfter (fuel + 6) (← term (fuel + 6)))
      (tokensOf Param.tokens (s.front w path ++ q.print p)) EndsTest
      (SameTest ·
        (q.test (p.values.map Value.cell) (s.term (.ofWord w) (.literal (.text path))))) := by
  have hterm : ∀ t, t = some q.opening → EndsTerm t := by
    rintro t rfl
    exact h.endsTerm_opening.1
  have hword : ∀ t, t = some q.opening → EndsWord t := by
    rintro t rfl
    exact h.endsTerm_opening.2
  rw [tokens_front_question]
  refine Question.reads_after_term h hfuel ?_
  cases s with
  | column => exact reads_term (reads_operand_word hplain hword (fuel + 3)) hterm
  | lowered => exact reads_term (reads_lower hplain fuel) hterm
  | part => exact reads_term_factor (reads_part hplain (fuel + 3)) hterm
  | element => exact absurd rfl hs
  | length =>
    have hmake (a b : Term) :
        (Term.partLength a b).unplaced = .partLength a.unplaced b.unplaced := rfl
    exact reads_term (reads_function isPlain_length hmake call?_length hplain path fuel) hterm
  | kind =>
    have hmake (a b : Term) :
        (Term.partKind a b).unplaced = .partKind a.unplaced b.unplaced := rfl
    exact reads_term (reads_function isPlain_kind hmake call?_kind hplain path fuel) hterm

theorem ne_exists_of_isPlain (h : IsPlain w) : Keyword.upper w ≠ "EXISTS" := by
  intro hw
  have hcall := h.call
  rw [Keyword.opensCall, hw] at hcall
  cases hcall

/-- What does not look at elements is a test without parentheses of its own. -/
theorem reads_outside (hs : s ≠ .element) (hplain : IsPlain w) (path : String) (h : q.Suits p)
    (hfuel : (tokensOf Param.tokens (q.print p)).length ≤ fuel + 6) :
    Reads (simpleTest (fuel + 7)) (tokensOf Param.tokens (s.front w path ++ q.print p)) EndsTest
      (SameTest ·
        (q.test (p.values.map Value.cell) (s.term (.ofWord w) (.literal (.text path))))) := by
  have hfront := reads_front hs hplain path h hfuel
  cases s with
  | column | part => exact reads_simpleTest (ne_exists_of_isPlain hplain) hfront
  | element => exact absurd rfl hs
  | _ => exact reads_simpleTest (by decide) hfront

theorem isPlain_value : IsPlain "value" := ⟨by rfl, by decide, by decide, by decide, by decide⟩

/-- **A test of elements is read with the test of one of them.** -/
theorem reads_element (hplain : IsPlain w) (path : String) (h : q.Suits p)
    (hfuel : (tokensOf Param.tokens (q.print p)).length ≤ fuel + 6) :
    Reads (simpleTest (fuel + 9))
      (tokensOf Param.tokens (Subject.element.front w path ++ q.print p ++ Subject.element.back))
      EndsTest (SameTest · (.someElement (.ofWord w) (.literal (.text path))
        (q.test (p.values.map Value.cell) (.column "value" 0)))) := by
  have hselect : ["SELECT"].map Keyword.upper = ["SELECT"] := by decide
  have hfrom : ["FROM", "json_each"].map Keyword.upper = ["FROM", "JSON_EACH"] := by decide
  have hwhere : ["WHERE"].map Keyword.upper = ["WHERE"] := by decide
  have hvalue : Term.ofWord "value" = .column "value" 0 := by rfl
  -- The test inside asks the same question of the column `value`.
  have htest : Reads (test (fuel + 8))
      (tokensOf Param.tokens (Subject.column.front "value" "" ++ q.print p))
      (· = some (.mark ")"))
      (SameTest · (q.test (p.values.map Value.cell) (.column "value" 0))) := by
    have hinner := reads_test (reads_outside (s := .column) (by rintro ⟨⟩) isPlain_value "" h hfuel)
    rw [Subject.term, hvalue] at hinner
    refine hinner.mono ?_ fun _ ht => ht
    rintro t rfl
    exact .inr (.inl rfl)
  have hcouple : Reads (enclosed (couple (term (fuel + 8))))
      (.mark "(" :: ([.word w, .mark ",", .text path] ++ [.mark ")"])) (fun _ => True)
      fun ab => SameTerm ab.1 (.ofWord w) ∧ SameTerm ab.2 (.literal (.text path)) :=
    reads_enclosed (reads_couple hplain path (fuel + 5))
  have hone : Reads (operand (fuel + 8)) [.number "1"] (fun _ => True) fun _ => True :=
    (reads_operand_one (fuel + 7)).mono (fun _ ht => ht) fun _ _ => trivial
  -- Read in the order of the tokens: `EXISTS (SELECT 1 FROM json_each(w, path) WHERE ...)`.
  rw [tokens_element]
  refine .unlessMark (fun _ _ h => by cases h) (.whenKeyword (by decide) (.afterMark
    (.afterKeywords hselect (hone.bind (fun _ _ => ?_) fun _ _ => trivial))))
  refine .afterKeywords hfrom (hcouple.bind (fun ab hab => ?_) fun _ _ => trivial)
  refine .afterKeywords hwhere (htest.bind (fun t ht => ?_) fun _ _ => rfl)
  refine (reads_mark ")").map fun _ _ => ?_
  rw [SameTest, Test.unplaced, Test.unplaced, hab.1, hab.2, ht]

end Subjects

/-! ### Rules -/

/-- A word that is read as a column where a condition may begin: it is plain and does not
begin a statement. -/
structure IsColumnWord (w : String) : Prop extends IsPlain w where
  begins : Keyword.upper w ≠ "WITH"

instance (w : String) : Decidable (IsColumnWord w) :=
  decidable_of_iff (IsPlain w ∧ Keyword.upper w ≠ "WITH")
    ⟨fun ⟨hplain, hwith⟩ => ⟨hplain, hwith⟩, fun h => ⟨h.toIsPlain, h.begins⟩⟩

theorem IsColumnWord.not_opening {w : String} (h : IsColumnWord w) :
    Keyword.upper w ∉ openings := by
  have hreserved := h.reserved
  rw [Keyword.isReserved] at hreserved
  intro hmem
  simp only [openings, List.mem_cons, List.not_mem_nil, or_false] at hmem
  rcases hmem with hw | hw | hw
  · rw [hw] at hreserved
    exact absurd hreserved (by decide)
  · exact h.begins hw
  · rw [hw] at hreserved
    exact absurd hreserved (by decide)

namespace Rule

variable {rules : FilterRules} {r : Rule}

/-- **A rule is read as its test**, if the depth suffices for its tokens. -/
theorem reads_rule (h : r.check rules = .ok ()) (hplain : IsPlain r.place.1) {fuel : Nat}
    (hfuel : (r.tokens rules.fields).length + 8 ≤ fuel) :
    Reads (simpleTest fuel) (r.tokens rules.fields) EndsTest
      (SameTest · (r.asTest (rules.fields.get? r.field))) := by
  obtain ⟨type, hpassed⟩ := passed_of_check h
  have hsuits := hpassed.suits
  rw [tokens, hpassed.known, print] at hfuel ⊢
  rw [asTest]
  generalize r.payload (some type) = p at hsuits hfuel ⊢
  cases hs : r.op.subject with
  | element =>
    rw [hs, tokens_element] at hfuel
    simp only [tokens_front_question, List.length_cons, List.length_append, List.length_map,
      List.length_nil] at hfuel
    obtain ⟨n, rfl⟩ : ∃ n, fuel = n + 9 := Nat.exists_eq_add_of_le' (le_trans (by omega) hfuel)
    exact reads_element hplain r.place.2 hsuits (by omega)
  | _ =>
    rw [tokensOf_append, tokensOf_append, List.length_append, List.length_append] at hfuel
    obtain ⟨n, rfl⟩ : ∃ n, fuel = n + 7 := Nat.exists_eq_add_of_le' (le_trans (by omega) hfuel)
    simp only [Subject.back, List.append_nil]
    refine reads_outside ?_ hplain r.place.2 hsuits (by omega)
    intro helement
    cases helement

end Rule

/-! ### Filters -/

/-- Joins two tests. -/
def Connective.joinTests : Connective → Test → Test → Test
  | and => .both
  | or => .either

namespace Filter

/-- A test that asks nothing. -/
def noTest : Test := .compare .equal (.literal (.ofInt 1)) (.literal (.ofInt 1))

mutual

/-- The filter as a test of rows, for fields of the given types. -/
def asTest (fields : Schema) : Filter → Test
  | .rule r => r.asTest (fields.get? r.field)
  | .group _ [] => noTest
  | .group op (f :: rest) => (asTests fields rest).foldl op.joinTests (asTest fields f)
termination_by structural f => f

/-- Filters as tests of rows. -/
def asTests (fields : Schema) : List Filter → List Test
  | [] => []
  | f :: rest => asTest fields f :: asTests fields rest
termination_by structural fs => fs

end

theorem asTests_eq_map (fields : Schema) (fs : List Filter) :
    asTests fields fs = fs.map (asTest fields) := by
  induction fs with
  | nil => rfl
  | cons f rest ih => rw [asTests, ih, List.map_cons]

/-- The words of the columns that the rules of a filter look at are read as columns. -/
def HasColumnWords (f : Filter) : Prop := ∀ r ∈ f.rules, IsColumnWord r.place.1

theorem hasColumnWords_group {op : Connective} {fs : List Filter}
    (h : (group op fs).HasColumnWords) : ∀ f ∈ fs, f.HasColumnWords := by
  intro f hf r hr
  refine h r ?_
  rw [rules, rulesAll_eq_flatMap]
  exact List.mem_flatMap.2 ⟨f, hf, hr⟩

variable {rules : FilterRules}

/-- No filter begins like a statement. -/
theorem not_opening {f : Filter} (h : f.HasColumnWords) (fields : Schema) :
    ∃ t, (f.tokens fields).head? = some t ∧ ¬ IsKeyword openings (some t) := by
  cases f with
  | rule r =>
    have hw : IsColumnWord r.place.1 := h r (List.mem_singleton.2 rfl)
    have htokens : (Filter.rule r).tokens fields = r.tokens fields := rfl
    rw [htokens, Rule.tokens, Rule.print]
    cases r.op.subject with
    | column | part => exact ⟨_, rfl, mt isKeyword_word.1 hw.not_opening⟩
    | _ => exact ⟨_, rfl, mt isKeyword_word.1 (by decide)⟩
  | group op fs =>
    cases fs with
    | nil =>
      refine ⟨.number "1", rfl, ?_⟩
      rintro ⟨_, hw, _⟩
      cases hw
    | cons f rest =>
      rw [tokens_group]
      exact ⟨.mark "(", rfl, not_isKeyword_mark⟩

/-- A comparison of two numbers asks nothing. -/
theorem reads_always {next : Option Token → Prop} (hnext : ∀ t, next t → EndsTest t) (fuel : Nat) :
    Reads (simpleTest (fuel + 4)) [.number "1", .mark "=", .number "1"] next (· = noTest) := by
  have hone {following : Option Token → Prop} (h : ∀ t, following t → EndsTerm t) :
      Reads (term (fuel + 3)) [.number "1"] following (· = .literal (.ofInt 1)) :=
    reads_term (reads_operand_one fuel) h
  have hleft : Reads (term (fuel + 3)) [.number "1"] (· = some (.mark "="))
      (· = .literal (.ofInt 1)) := by
    refine hone ?_
    rintro t rfl
    exact endsTerm_mark (by decide)
  have hequal : Comparison.ofText? "=" = some .equal := by decide
  have hnumber (ks : List String) : ¬ IsKeyword ks (some (.number "1")) :=
    fun ⟨_, hw, _⟩ => nomatch hw
  have hright (a : Term) (ha : a = .literal (.ofInt 1)) :
      Reads (testAfter (fuel + 3) a) [.mark "=", .number "1"] next (· = noTest) := by
    refine (reads_compare a hequal (hone fun t ht => (hnext t ht).endsTerm)).mono
      (fun _ ht => ht) ?_
    rintro t ⟨b, rfl, rfl⟩
    rw [ha]
    rfl
  exact .unlessMark (fun _ _ => nofun) (.unlessKeyword (fun _ _ => hnumber _)
    (hleft.bind hright fun _ _ => rfl))

/-- What the parts of a group are read as is joined to what they are joined to. -/
theorem sameTest_group (op : Connective) {R : Filter → Test} {f : Filter} {fs : List Filter}
    {u : Test} {us : List Test}
    (h : List.Forall₂ (fun f t => SameTest t (R f)) (f :: fs) (u :: us)) :
    SameTest (us.foldl op.joinTests u) ((fs.map R).foldl op.joinTests (R f)) := by
  have hjoin (t u : Test) : (op.joinTests t u).unplaced = op.joinTests t.unplaced u.unplaced := by
    cases op <;> rfl
  cases h with
  | cons hfirst hrest =>
    refine sameTest_foldl hjoin ?_ hfirst
    rw [List.forall₂_map_right_iff]
    exact hrest.flip

/-- **A filter is read as its test, but for places.**  Each group passes through two kinds
of parts and has two parentheses, so that its tokens bound how deep it goes. -/
theorem reads_filter {f : Filter} (h : f.RulesPass rules) (hwords : f.HasColumnWords) :
    ∀ {fuel}, (f.tokens rules.fields).length + 8 ≤ fuel →
      Reads (simpleTest fuel) (f.tokens rules.fields) EndsTest
        (SameTest · (f.asTest rules.fields)) := by
  induction f using treeInduction with
  | rule r =>
    intro fuel hfuel
    exact Rule.reads_rule (rulesPass_rule.1 h) (hwords r (List.mem_singleton.2 rfl)).toIsPlain hfuel
  | group op fs ih =>
    intro fuel hfuel
    have hparts := rulesPass_group.1 h
    cases fs with
    | nil =>
      obtain ⟨n, rfl⟩ : ∃ n, fuel = n + 4 := Nat.exists_eq_add_of_le' (le_trans (by omega) hfuel)
      refine (reads_always (fun _ ht => ht) n).mono (fun _ ht => ht) fun t ht => ?_
      rw [ht]
      rfl
    | cons f rest =>
      rw [tokens_group] at hfuel ⊢
      simp only [List.length_cons, List.length_append, List.length_nil] at hfuel
      obtain ⟨n, rfl⟩ : ∃ n, fuel = n + 3 := Nat.exists_eq_add_of_le' (le_trans (by omega) hfuel)
      have hinner := hasColumnWords_group hwords
      have hall : ∀ g ∈ f :: rest, Reads (simpleTest (n + 1)) (g.tokens rules.fields) EndsTest
          (SameTest · (g.asTest rules.fields)) := by
        intro g hg
        have hlength := length_le_joinedTokens_of_mem op.token (tokens rules.fields) hg
        exact ih g hg (hparts g hg) (hinner g hg) (by omega)
      have hmany : (f :: rest).length ≤ n + 1 := by
        have hlength := length_le_joinedTokens op.token (tokens rules.fields) (f :: rest)
        omega
      have hne := List.cons_ne_nil f rest
      have hopen : ¬ IsKeyword openings
          ((joinedTokens op.token (tokens rules.fields) (f :: rest)).head?.or
            (some (.mark ")"))) := by
        obtain ⟨t, ht, hnot⟩ := not_opening (hinner f List.mem_cons_self) rules.fields
        rw [head?_joinedTokens ht]
        exact hnot
      have hsame : ∀ {t : Test}, (∃ u us, List.Forall₂
          (fun g t => SameTest t (g.asTest rules.fields)) (f :: rest) (u :: us) ∧
            t = us.foldl op.joinTests u) → SameTest t ((group op (f :: rest)).asTest rules.fields) := by
        rintro _ ⟨u, us, hus, rfl⟩
        rw [asTest, asTests_eq_map]
        exact sameTest_group op hus
      refine reads_group hopen ?_
      cases op with
      | and => exact (reads_and hne hmany hall).mono (fun _ ht => ht) fun _ ht => hsame ht
      | or => exact (reads_or hne hmany hall).mono (fun _ ht => ht) fun _ ht => hsame ht

/-- **The condition of a statement is read as the test of its filter.** -/
theorem reads_condition {f : Filter} (h : f.RulesPass rules) (hwords : f.HasColumnWords) :
    Reads condition (.word "WHERE" :: f.tokens rules.fields) EndsCondition
      fun c => ∃ t, c = some t ∧ SameTest t (f.asTest rules.fields) := by
  intro ls rest hls hrest
  -- The depth is counted from the lexemes that are left, those of the filter among them.
  have hlength : (f.tokens rules.fields).length + 1 ≤ (ls ++ rest).length := by
    have hmap := congrArg List.length hls
    simp only [List.length_map, List.length_cons] at hmap
    rw [List.length_append, hmap]
    omega
  obtain ⟨n, hn⟩ : ∃ n, depth (ls ++ rest).length = n + 2 := ⟨_, rfl⟩
  have htest : Reads (after "WHERE" (test (depth (ls ++ rest).length)))
      (.word "WHERE" :: f.tokens rules.fields) EndsCondition
      fun c => ∃ t, c = some t ∧ SameTest t (f.asTest rules.fields) := by
    rw [hn]
    refine reads_after (by decide) (reads_test (reads_filter h hwords ?_))
    have hdepth : depth (ls ++ rest).length = 6 * (ls ++ rest).length + 12 := rfl
    omega
  exact htest ls rest hls hrest

end Filter

end ResourceTable
