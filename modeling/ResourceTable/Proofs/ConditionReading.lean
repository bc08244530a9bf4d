import ResourceTable.Proofs.TermReading

/-!
# Reading conditions

A test is read after the term that it is about, and tests with a connective between them
are read as one condition.  What may follow decides where a reader ends.

## Main definitions

* `EndsTest`, `EndsCondition`: the tokens that may follow a test, and a condition.

## Main results

* `covers_testAfter_compare`, `covers_listed` — a test after its term.
* `covers_and`, `covers_or` — **conjunctions and disjunctions are read as their tests
  joined.**
-/

namespace ResourceTable

namespace Sql

namespace Parse

/-- What may follow a test. -/
def EndsTest (t : Option Token) : Prop :=
  t = none ∨ t = some (.mark ")") ∨ IsKeyword ["AND", "OR", "ORDER"] t

theorem not_isKeyword_mark {ks : List String} {m : String} : ¬ IsKeyword ks (some (.mark m)) :=
  fun ⟨_, hw, _⟩ => nomatch hw

theorem isKeyword_word {ks : List String} {w : String} :
    IsKeyword ks (some (.word w)) ↔ Keyword.upper w ∈ ks :=
  ⟨fun ⟨_, hv, hmem⟩ => Token.word.inj (Option.some.inj hv) ▸ hmem, fun h => ⟨w, rfl, h⟩⟩

theorem EndsTest.ne_mark {t : Option Token} (h : EndsTest t) {m : String} (hm : m ≠ ")") :
    t ≠ some (.mark m) := by
  rintro rfl
  rcases h with h | h | h
  · cases h
  · exact hm (Token.mark.inj (Option.some.inj h))
  · exact not_isKeyword_mark h

theorem EndsTest.endsTerm {t : Option Token} (h : EndsTest t) : EndsTerm t :=
  ⟨h.ne_mark (by decide), h.ne_mark (by decide), h.ne_mark (by decide)⟩

/-! ### After a term -/

section After

variable (a : Term)

theorem covers_bound (c : Cell) (fuel : Nat) :
    Covers (term fuel) [.bound c] EndsTest (· = .literal c) :=
  covers_term_operand (covers_operand_bound c) (fun _ ht => ht.endsTerm) fuel

/-- A comparison with a term. -/
theorem covers_testAfter_compare {m : String} {op : Comparison} {ts : List Token}
    {next : Option Token → Prop} {P : Term → Prop} (hm : Comparison.ofText? m = some op)
    (fuel : Nat) (h : Covers (term fuel) ts next P) :
    Covers (testAfter fuel a) (.mark m :: ts) next fun t => ∃ b, t = .compare op a b ∧ P b := by
  have hnot (ks : List String) (t : Option Token) : ¬ IsKeyword ks ((some (.mark m)).or t) :=
    not_isKeyword_mark
  refine .unlessKeyword (fun t _ => hnot _ t) (.unlessKeyword (fun t _ => hnot _ t)
    (.unlessKeyword (fun t _ => hnot _ t) (.unlessKeyword (fun t _ => hnot _ t)
      (.unlessKeyword (fun t _ => hnot _ t) (.peeked fun l hl => ?_)))))
  obtain ⟨token, written, offset⟩ := l
  obtain rfl : token = .mark m := hl
  simp only [hm]
  exact .advanced (h.map fun b hb => ⟨b, rfl, hb⟩)

/-- The values of a list, in parentheses. -/
theorem covers_listed {cells : List Cell} (hne : cells ≠ []) (negated : Bool) (fuel : Nat) :
    Covers (listed fuel negated a)
      (.mark "(" :: (joinedTokens (.mark ",") (fun c => [.bound c]) cells ++ [.mark ")"])) EndsTest
      (· = listTest negated a (cells.map .literal)) := by
  have hitem (c : Cell) : Covers (term fuel) [.bound c] (OrComma (· = some (.mark ")")))
      (· = .literal c) := by
    refine covers_term_operand (covers_operand_bound c) (fun t ht => ?_) fuel
    rcases ht with ht | ht <;> rw [ht] <;> exact endsTerm_mark (by decide)
  have hitems := covers_separated (R := fun c t => t = Term.literal c) hne (fun c _ => hitem c)
    (fun t ht => by rw [ht]; decide) fuel
  refine (covers_enclosed hitems).map fun l hl => ?_
  rw [eq_map_of_forall₂ hl]

theorem covers_testAfter_in {ts : List Token} {P : Test → Prop} (fuel : Nat)
    (h : Covers (listed fuel false a) ts EndsTest P) :
    Covers (testAfter fuel a) (.word "IN" :: ts) EndsTest P :=
  .whenKeyword (by decide) h

theorem covers_testAfter_notIn {ts : List Token} {P : Test → Prop} (fuel : Nat)
    (h : Covers (listed fuel true a) ts EndsTest P) :
    Covers (testAfter fuel a) (.word "NOT" :: .word "IN" :: ts) EndsTest P := by
  have hupper : ["IN"].map Keyword.upper = ["IN"] := by decide
  have hin : Covers (do keywords ["IN"]; listed fuel true a) (.word "IN" :: ts) EndsTest P :=
    .afterKeywords hupper h
  exact .unlessKeyword (fun _ _ => mt isKeyword_word.1 (by decide)) (.whenKeyword (by decide) hin)

theorem covers_testAfter_like (c : Cell) (fuel : Nat) :
    Covers (testAfter fuel a) [.word "LIKE", .bound c] EndsTest
      (· = .fits .like a (.literal c)) := by
  have hpattern := (covers_bound c fuel).map (f := Test.fits .like a)
    (Q := (· = Test.fits .like a (.literal c))) fun b hb => by rw [hb]
  exact .unlessKeyword (fun _ _ => mt isKeyword_word.1 (by decide))
    (.unlessKeyword (fun _ _ => mt isKeyword_word.1 (by decide))
      (.whenKeyword (by decide) hpattern))

theorem covers_testAfter_glob (c : Cell) (fuel : Nat) :
    Covers (testAfter fuel a) [.word "GLOB", .bound c] EndsTest
      (· = .fits .glob a (.literal c)) := by
  have hpattern := (covers_bound c fuel).map (f := Test.fits .glob a)
    (Q := (· = Test.fits .glob a (.literal c))) fun b hb => by rw [hb]
  exact .unlessKeyword (fun _ _ => mt isKeyword_word.1 (by decide))
    (.unlessKeyword (fun _ _ => mt isKeyword_word.1 (by decide))
      (.unlessKeyword (fun _ _ => mt isKeyword_word.1 (by decide))
        (.whenKeyword (by decide) hpattern)))

theorem covers_testAfter_is {ts : List Token} {P : Test → Prop} (fuel : Nat)
    (h : Covers (do let negated ← accept "NOT"; keywords ["NULL"]; return Test.missing negated a)
      ts EndsTest P) :
    Covers (testAfter fuel a) (.word "IS" :: ts) EndsTest P :=
  .unlessKeyword (fun _ _ => mt isKeyword_word.1 (by decide))
    (.unlessKeyword (fun _ _ => mt isKeyword_word.1 (by decide))
      (.unlessKeyword (fun _ _ => mt isKeyword_word.1 (by decide))
        (.unlessKeyword (fun _ _ => mt isKeyword_word.1 (by decide))
          (.whenKeyword (by decide) h))))

end After

/-! ### Conditions -/

/-- What may follow a condition. -/
def EndsCondition (t : Option Token) : Prop :=
  t = none ∨ t = some (.mark ")") ∨ IsKeyword ["ORDER"] t

theorem isKeyword_mono {ks vs : List String} (h : ks ⊆ vs) {t : Option Token} :
    IsKeyword ks t → IsKeyword vs t :=
  fun ⟨w, hw, hmem⟩ => ⟨w, hw, h hmem⟩

theorem EndsCondition.endsTest {t : Option Token} (h : EndsCondition t) : EndsTest t :=
  h.imp_right (Or.imp_right (isKeyword_mono (by simp)))

theorem EndsCondition.not_isKeyword {t : Option Token} (h : EndsCondition t) {k : String}
    (hk : k ≠ "ORDER") : ¬ IsKeyword [k] t := by
  rintro ⟨w, rfl, hw⟩
  rcases h with h | h | h
  · cases h
  · cases h
  · rw [isKeyword_word, List.mem_singleton, List.mem_singleton.1 hw] at h
    exact hk h

/-- What may follow a part of a conjunction is what may follow a test. -/
theorem endsTest_of_keyword {k : String} (hk : k ∈ ["AND", "OR"]) {next : Option Token → Prop}
    (hnext : ∀ t, next t → EndsTest t) :
    ∀ t, IsKeyword [k] t ∨ next t → EndsTest t := by
  rintro t (ht | ht)
  · refine .inr (.inr (isKeyword_mono ?_ ht))
    intro v hv
    rw [List.mem_singleton.1 hv]
    exact List.mem_append_left ["ORDER"] hk
  · exact hnext t ht

/-- A list of tests is read as one test, the left-most joined first. -/
theorem covers_joined {join : Test → Test → Test} {p : Parse (List Test)} {ts : List Token}
    {next : Option Token → Prop} {P : List Test → Prop} {Q : Test → Prop}
    (h : Covers p ts next P) (hQ : ∀ t rest, P (t :: rest) → Q (rest.foldl join t)) :
    Covers (do joined join (← p)) ts next Q := by
  have hall : Covers (do joined join (← p)) (ts ++ []) next Q := by
    refine h.bind (fun l hl => ?_) fun t ht => ht
    cases l with
    | nil => exact .refuse
    | cons t rest => exact .pure (hQ t rest hl)
  rwa [List.append_nil] at hall

/-- What may follow a part of a disjunction. -/
def EndsPart (t : Option Token) : Prop := IsKeyword ["OR"] t ∨ EndsCondition t

theorem EndsPart.endsTest : ∀ t, EndsPart t → EndsTest t :=
  endsTest_of_keyword (by decide) fun _ ht => ht.endsTest

theorem EndsPart.not_and : ∀ t, EndsPart t → ¬ IsKeyword ["AND"] t := by
  rintro t (⟨w, rfl, hw⟩ | ht)
  · rw [isKeyword_word, List.mem_singleton, List.mem_singleton.1 hw]
    decide
  · exact ht.not_isKeyword (by decide)

theorem EndsCondition.not_or (t : Option Token) (h : EndsCondition t) : ¬ IsKeyword ["OR"] t :=
  h.not_isKeyword (by decide)

/-- A part of a disjunction that has no parts. -/
theorem covers_alone {ts : List Token} {P : Test → Prop} (fuel : Nat)
    (h : Covers (simpleTest fuel) ts EndsTest P) :
    Covers (do joined .both (← sequence "AND" (simpleTest fuel) fuel)) ts EndsPart P := by
  have hpart :=
    h.mono (endsTest_of_keyword (k := "AND") (by decide) EndsPart.endsTest) fun _ ht => ht
  refine covers_joined (covers_sequence_one hpart EndsPart.not_and fuel) ?_
  rintro t rest ⟨u, hu, hP⟩
  cases hu
  exact hP

section Conjunctions

variable {ι : Type} {tokens : ι → List Token} {R : ι → Test → Prop} {xs : List ι}

/-- **A conjunction is read as its tests joined.** -/
theorem covers_and (hne : xs ≠ [])
    (h : ∀ x ∈ xs, ∀ fuel, Covers (simpleTest fuel) (tokens x) EndsTest (R x)) : ∀ fuel,
    Covers (test fuel) (joinedTokens (.word "AND") tokens xs) EndsCondition
      fun t => ∃ u rest, List.Forall₂ R xs (u :: rest) ∧ t = rest.foldl .both u := by
  intro fuel
  cases fuel with
  | zero => exact .refuse
  | succ fuel =>
    have hparts (x : ι) (hx : x ∈ xs) : Covers (simpleTest fuel) (tokens x)
        (fun t => IsKeyword ["AND"] t ∨ EndsPart t) (R x) :=
      (h x hx fuel).mono (endsTest_of_keyword (by decide) EndsPart.endsTest) fun _ ht => ht
    have hone : Covers (do joined .both (← sequence "AND" (simpleTest fuel) fuel))
        (joinedTokens (.word "AND") tokens xs) EndsPart
        fun t => ∃ u rest, List.Forall₂ R xs (u :: rest) ∧ t = rest.foldl .both u :=
      covers_joined (covers_sequence (by decide) hne hparts EndsPart.not_and fuel)
        fun u rest hall => ⟨u, rest, hall, rfl⟩
    refine covers_joined (covers_sequence_one hone EndsCondition.not_or fuel) ?_
    rintro t rest ⟨u, hu, hall⟩
    cases hu
    exact hall

/-- **A disjunction is read as its tests joined.** -/
theorem covers_or (hne : xs ≠ [])
    (h : ∀ x ∈ xs, ∀ fuel, Covers (simpleTest fuel) (tokens x) EndsTest (R x)) : ∀ fuel,
    Covers (test fuel) (joinedTokens (.word "OR") tokens xs) EndsCondition
      fun t => ∃ u rest, List.Forall₂ R xs (u :: rest) ∧ t = rest.foldl .either u := by
  intro fuel
  cases fuel with
  | zero => exact .refuse
  | succ fuel =>
    have hparts (x : ι) (hx : x ∈ xs) := covers_alone fuel (h x hx fuel)
    exact covers_joined (covers_sequence (by decide) hne hparts EndsCondition.not_or fuel)
      fun t rest hrest => ⟨t, rest, hrest, rfl⟩

/-- A test without parts as a condition. -/
theorem covers_test {ts : List Token} {P : Test → Prop}
    (h : ∀ fuel, Covers (simpleTest fuel) ts EndsTest P) : ∀ fuel,
    Covers (test fuel) ts EndsCondition P := by
  intro fuel
  cases fuel with
  | zero => exact .refuse
  | succ fuel =>
    have hone := covers_alone fuel (h fuel)
    refine covers_joined (covers_sequence_one hone EndsCondition.not_or fuel) ?_
    rintro t rest ⟨u, hu, hP⟩
    cases hu
    exact hP

end Conjunctions

end Parse

end Sql

end ResourceTable
