import ResourceTable.Proofs.RuleReading

/-!
# Reading filters

What the database reads of a filter passes only for rows of which the filter holds: the
tests of its rules are joined as the rules are, and a group without rules asks nothing.

## Main definitions

* `Test.Implies`: a test passes only where a filter holds.

## Main results

* `holdsIn_and`, `holdsIn_or` — a group holds by its parts.
* `covers_filter` — **what is read of a filter implies it.**
-/

namespace ResourceTable

open Sql Sql.Parse

/-! ### Filters of rows -/

namespace Filter

variable {fields : Schema} {s : Scope}

theorem holdsIn_rule {r : Rule} :
    (rule r).HoldsIn fields s ↔ r.holdsIn fields s = true := by
  rw [HoldsIn, truth_rule]
  cases r.holdsIn fields s <;> simp [Truth.ofBool]

/-- A conjunction holds of a row exactly if its parts do. -/
theorem holdsIn_and {fs : List Filter} :
    (group .and fs).HoldsIn fields s ↔ ∀ f ∈ fs, f.HoldsIn fields s := by
  cases fs with
  | nil => exact iff_of_true rfl (List.forall_mem_nil _)
  | cons f rest =>
    rw [HoldsIn, truth_group .and (List.cons_ne_nil f rest), Connective.value,
      Truth.every_eq_yes_iff, List.forall_mem_map]
    rfl

/-- A disjunction holds of a row exactly if one of its parts does. -/
theorem holdsIn_or {fs : List Filter} (hne : fs ≠ []) :
    (group .or fs).HoldsIn fields s ↔ ∃ f ∈ fs, f.HoldsIn fields s := by
  rw [HoldsIn, truth_group .or hne, Connective.value, Truth.any_eq_yes_iff]
  simp only [List.mem_map, exists_exists_and_eq_and]
  rfl

theorem holdsIn_nil (op : Connective) : (group op []).HoldsIn fields s := by
  cases op <;> rfl

end Filter

/-- A test passes only for rows of which the filter holds. -/
def Sql.Test.Implies (fields : Schema) (t : Test) (f : Filter) : Prop :=
  ∀ s, t.Passes s → f.HoldsIn fields s

/-! ### Groups -/

namespace Sql.Parse

variable {α : Type} {ts : List Token} {next : Option Token → Prop} {P : α → Prop}

/-- A reader that refuses after some keywords, and else goes on, goes on. -/
theorem covers_unless_refused {ks vs : List String} {f : Unit → Parse α}
    (h : Covers (f ()) ts next P) :
    Covers (do
      if ← acceptAny ks then
        let _ ← acceptAny vs
        refuse
      f ()) ts next P := by
  intro ls rest out a hls hrest ha
  rw [bind_run] at ha
  rcases acceptAny_run ks (ls ++ rest) with ⟨-, hrun⟩ | ⟨-, hrun⟩
  · rw [hrun] at ha
    exact absurd ha (bind_ne_ok fun _ out _ => refuse_bind_ne_ok _ out _)
  · rw [hrun] at ha
    exact h ls rest out a hls hrest ha

theorem covers_noInnerStatement : Covers noInnerStatement [] next fun _ => True := by
  have hvalues : Covers (do if ← accept "VALUES" then refuse) [] next fun _ => True := by
    intro ls rest out a hls _ ha
    rw [bind_run] at ha
    rcases acceptAny_run ["VALUES"] (ls ++ rest) with ⟨-, hrun⟩ | ⟨-, hrun⟩
    · rw [accept, hrun] at ha
      exact absurd ha (refuse_ne_ok _ _)
    · rw [accept, hrun] at ha
      cases ha
      exact ⟨by rw [List.map_eq_nil_iff.1 hls, List.nil_append], trivial⟩
  have hwith : Covers (do
      if ← accept "WITH" then
        let _ ← accept "GLOB"
        refuse
      if ← accept "VALUES" then refuse) [] next fun _ => True :=
    covers_unless_refused (f := fun _ => do if ← accept "VALUES" then refuse) hvalues
  exact covers_unless_refused (f := fun _ => do
    if ← accept "WITH" then
      let _ ← accept "GLOB"
      refuse
    if ← accept "VALUES" then refuse) hwith

/-- A test in parentheses is read as the test. -/
theorem covers_group {Q : Test → Prop} (h : ∀ fuel, Covers (test fuel) ts EndsCondition Q) : ∀ fuel,
    Covers (simpleTest fuel) (.mark "(" :: (ts ++ [.mark ")"])) next Q := by
  intro fuel
  cases fuel with
  | zero => exact .refuse
  | succ fuel =>
    have hrest (t : Test) (ht : Q t) :
        Covers (do mark ")"; return t) [.mark ")"] next Q := (covers_mark ")").map fun _ _ => ht
    have hinner : Covers (do let t ← test fuel; mark ")"; return t) (ts ++ [.mark ")"]) next Q :=
      (h fuel).bind hrest fun _ _ => .inr (.inl rfl)
    have hstatement : Covers noInnerStatement [] (fun _ => True) fun _ => True :=
      covers_noInnerStatement
    exact .whenMark (hstatement.bind (fun _ _ => hinner) fun _ _ => trivial)

end Sql.Parse

namespace Filter

variable {rules : FilterRules}

/-- The tokens of a group: those of its parts, with the connective between them, in
parentheses. -/
theorem tokens_group (fields : Schema) (op : Connective) (f : Filter) (rest : List Filter) :
    tokens fields (.group op (f :: rest)) =
      .mark "(" :: (joinedTokens op.token (tokens fields) (f :: rest) ++ [.mark ")"]) := by
  have hrest : ∀ (g : Filter) (l : List Filter), tokens fields g ++
      tokensOf Param.tokens (printRest (fun r => r.payload (fields.get? r.field)) op l) =
        joinedTokens op.token (tokens fields) (g :: l) := by
    intro g l
    induction l generalizing g with
    | nil => exact List.append_nil _
    | cons a more ih =>
      rw [printRest, tokensOf_append, tokensOf_append, Connective.tokens_ink, joinedTokens,
        ← ih a]
      rfl
  rw [← hrest, tokens, print, tokens, List.append_assoc]
  show Token.mark "(" :: tokensOf Param.tokens (_ ++ (_ ++ [.mark ")"])) = _
  rw [tokensOf_append, tokensOf_append]
  rfl

/-- A comparison of two numbers asks nothing. -/
theorem covers_always {next : Option Token → Prop} (hnext : ∀ t, next t → EndsTest t) : ∀ fuel,
    Covers (simpleTest fuel) [.number "1", .mark "=", .number "1"] next fun _ => True := by
  intro fuel
  cases fuel with
  | zero => exact .refuse
  | succ fuel =>
    have hone {following : Option Token → Prop} (h : ∀ t, following t → EndsTerm t) :
        Covers (term fuel) [.number "1"] following fun _ => True :=
      covers_term_operand (fun fuel => (covers_operand_number "1" fuel).mono (fun _ ht => ht)
        fun _ _ => trivial) h fuel
    have hleft : Covers (term fuel) [.number "1"] (· = some (.mark "=")) fun _ => True := by
      refine hone ?_
      rintro t rfl
      exact endsTerm_mark (by decide)
    have hequal : Comparison.ofText? "=" = some .equal := by decide
    have htest (a : Term) :
        Covers (testAfter fuel a) [.mark "=", .number "1"] next fun _ => True :=
      (covers_testAfter_compare a hequal fuel
        (hone fun t ht => (hnext t ht).endsTerm)).mono (fun _ ht => ht) fun _ _ => trivial
    have hnumber (ks : List String) : ¬ IsKeyword ks (some (.number "1")) :=
      fun ⟨_, hw, _⟩ => nomatch hw
    exact .unlessMark (fun _ _ => nofun) (.unlessKeyword (fun _ _ => hnumber _)
      (hleft.bind (fun a _ => htest a) fun _ _ => rfl))

/-- All of some filters hold of a row if tests that imply them pass. -/
theorem holdsIn_of_forall₂ {fields : Schema} {s : Scope} {fs : List Filter} {ts : List Test}
    (h : List.Forall₂ (fun f t => Test.Implies fields t f) fs ts) :
    ((∀ t ∈ ts, t.Passes s) → ∀ f ∈ fs, f.HoldsIn fields s) ∧
      ((∃ t ∈ ts, t.Passes s) → ∃ f ∈ fs, f.HoldsIn fields s) := by
  induction h with
  | nil => simp
  | cons hft _ ih =>
    rw [List.forall_mem_cons, List.forall_mem_cons, List.exists_mem_cons_iff,
      List.exists_mem_cons_iff]
    exact ⟨And.imp (hft s) ih.1, Or.imp (hft s) ih.2⟩

/-- **What is read of a filter implies it.** -/
theorem covers_filter {f : Filter} (h : f.RulesPass rules) : ∀ fuel,
    Covers (simpleTest fuel) (f.tokens rules.fields) EndsTest (Test.Implies rules.fields · f) := by
  induction f using treeInduction with
  | rule r =>
    intro fuel
    refine (Rule.covers_rule (rulesPass_rule.1 h) fuel).mono (fun _ ht => ht) fun t ht s hs => ?_
    rw [holdsIn_rule]
    exact Rule.holdsIn_of_holds (ht.refines s true (ht.simple.holds hs))
  | group op fs ih =>
    have hparts := rulesPass_group.1 h
    cases fs with
    | nil =>
      intro fuel
      exact (covers_always (fun _ ht => ht) fuel).mono (fun _ ht => ht)
        fun _ _ s _ => holdsIn_nil op
    | cons f rest =>
      rw [tokens_group]
      have hall : ∀ g ∈ f :: rest, ∀ fuel, Covers (simpleTest fuel) (g.tokens rules.fields) EndsTest
          (Test.Implies rules.fields · g) := fun g hg => ih g hg (hparts g hg)
      have hne := List.cons_ne_nil f rest
      refine covers_group fun fuel => ?_
      cases op with
      | and =>
        refine (covers_and hne hall fuel).mono (fun _ ht => ht) ?_
        rintro _ ⟨u, us, hus, rfl⟩ s hs
        rw [Test.passes_foldl_both, ← List.forall_mem_cons] at hs
        exact holdsIn_and.2 ((holdsIn_of_forall₂ hus).1 hs)
      | or =>
        refine (covers_or hne hall fuel).mono (fun _ ht => ht) ?_
        rintro _ ⟨u, us, hus, rfl⟩ s hs
        rw [Test.passes_foldl_either, ← List.exists_mem_cons_iff] at hs
        exact (holdsIn_or hne).2 ((holdsIn_of_forall₂ hus).2 hs)

end Filter

end ResourceTable
