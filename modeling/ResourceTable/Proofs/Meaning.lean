import Mathlib.Data.List.Perm.Basic
import ResourceTable.Filter.Clause
import ResourceTable.Sql.Evaluation

/-!
# What filters mean

A filter is a formula over its rules.  Once every rule has a truth value, the filter
has one: an AND is the least of its parts, an OR the greatest, and a group without
rules holds.  The order of rules does not matter to the value, so that rules may be
put in order before they are compiled.

## Main definitions

* `Truth.every`, `Connective.value`: the value of a group.
* `Filter.truth`: the value of a filter, given the values of its rules.
* `Filter.rules`: the rules of a filter, from left to right.
* `Filter.crownedBy`: the filter that a crown makes of a filter.

## Main results

* `truth_prioritize`, `rules_prioritize_perm` — putting rules in order keeps the
  value and the rules.
* `matchesAll_iff` — **a filter matches all by its shape exactly if it holds under
  every assignment of values to its rules.**
-/

namespace ResourceTable

open Sql (Truth)

namespace Sql.Truth

/-! ### The laws of the connectives -/

theorem both_assoc (a b c : Truth) : (a.both b).both c = a.both (b.both c) := by
  cases a <;> cases b <;> cases c <;> rfl

theorem both_comm (a b : Truth) : a.both b = b.both a := by
  cases a <;> cases b <;> rfl

theorem either_assoc (a b c : Truth) : (a.either b).either c = a.either (b.either c) := by
  cases a <;> cases b <;> cases c <;> rfl

theorem either_comm (a b : Truth) : a.either b = b.either a := by
  cases a <;> cases b <;> rfl

@[simp] theorem both_yes (a : Truth) : a.both yes = a := by
  cases a <;> rfl

@[simp] theorem either_no (a : Truth) : a.either no = a := by
  cases a <;> rfl

theorem both_eq_yes_iff (a b : Truth) : a.both b = yes ↔ a = yes ∧ b = yes := by
  cases a <;> cases b <;> decide

theorem either_eq_yes_iff (a b : Truth) : a.either b = yes ↔ a = yes ∨ b = yes := by
  cases a <;> cases b <;> decide

/-- Whether all of a list hold. -/
def every : List Truth → Truth
  | [] => yes
  | t :: rest => t.both (every rest)

theorem every_eq_yes_iff : ∀ l : List Truth, every l = yes ↔ ∀ t ∈ l, t = yes := by
  intro l
  induction l with
  | nil => simp [every]
  | cons t rest ih => rw [every, both_eq_yes_iff, ih, List.forall_mem_cons]

theorem any_eq_yes_iff : ∀ l : List Truth, any l = yes ↔ ∃ t ∈ l, t = yes := by
  intro l
  induction l with
  | nil => simp [any]
  | cons t rest ih => rw [any, either_eq_yes_iff, ih, List.exists_mem_cons_iff]

theorem every_perm {l l' : List Truth} (h : l.Perm l') : every l = every l' := by
  induction h with
  | nil => rfl
  | cons t _ ih => rw [every, every, ih]
  | swap s t l => rw [every, every, every, every, ← both_assoc, ← both_assoc, both_comm s t]
  | trans _ _ ih₁ ih₂ => rw [ih₁, ih₂]

theorem any_perm {l l' : List Truth} (h : l.Perm l') : any l = any l' := by
  induction h with
  | nil => rfl
  | cons t _ ih => rw [any, any, ih]
  | swap s t l => rw [any, any, any, any, ← either_assoc, ← either_assoc, either_comm s t]
  | trans _ _ ih₁ ih₂ => rw [ih₁, ih₂]

end Sql.Truth

namespace Connective

/-- What a connective makes of two values. -/
def join : Connective → Truth → Truth → Truth
  | and => Truth.both
  | or => Truth.either

/-- The value that a connective has without parts. -/
def unit : Connective → Truth
  | and => .yes
  | or => .no

/-- The value of a group with parts of these values. -/
def value : Connective → List Truth → Truth
  | and => Truth.every
  | or => Truth.any

theorem value_perm (op : Connective) {l l' : List Truth} (h : l.Perm l') :
    op.value l = op.value l' := by
  cases op
  · exact Truth.every_perm h
  · exact Truth.any_perm h

end Connective

namespace Filter

/-! ### Induction over a filter -/

mutual

/-- What holds of every rule, and of every group if it holds of its parts, holds of
every filter. -/
@[elab_as_elim]
theorem treeInduction {P : Filter → Prop} (rule : ∀ r, P (.rule r))
    (group : ∀ op fs, (∀ f ∈ fs, P f) → P (.group op fs)) : ∀ f, P f
  | .rule r => rule r
  | .group op fs => group op fs (treeInductionAll rule group fs)
termination_by structural f => f

theorem treeInductionAll {P : Filter → Prop} (rule : ∀ r, P (.rule r))
    (group : ∀ op fs, (∀ f ∈ fs, P f) → P (.group op fs)) : ∀ fs : List Filter, ∀ f ∈ fs, P f
  | [] => fun _ hf => nomatch hf
  | g :: rest =>
    List.forall_mem_cons.2 ⟨treeInduction rule group g, treeInductionAll rule group rest⟩
termination_by structural fs => fs

end

/-! ### The value of a filter -/

mutual

/-- The value of a filter whose rules have the values `τ`. -/
def truth (τ : Rule → Truth) : Filter → Truth
  | .group _ [] => .yes
  | .group op (f :: rest) => op.value (truth τ f :: truths τ rest)
  | .rule r => τ r
termination_by structural f => f

/-- The values of filters. -/
def truths (τ : Rule → Truth) : List Filter → List Truth
  | [] => []
  | f :: rest => truth τ f :: truths τ rest
termination_by structural l => l

end

variable {τ : Rule → Truth}

theorem truths_eq_map (l : List Filter) : truths τ l = l.map (truth τ) := by
  induction l with
  | nil => rfl
  | cons f rest ih => rw [truths, ih, List.map_cons]

@[simp] theorem truth_rule (r : Rule) : truth τ (.rule r) = τ r := rfl

@[simp] theorem truth_nil (op : Connective) : truth τ (.group op []) = .yes := rfl

theorem truth_group {l : List Filter} (op : Connective) (h : l ≠ []) :
    truth τ (.group op l) = op.value (l.map (truth τ)) := by
  cases l with
  | nil => exact absurd rfl h
  | cons f rest => rw [truth, truths_eq_map, List.map_cons]

mutual

/-- The rules of a filter, from left to right. -/
def rules : Filter → List Rule
  | .group _ fs => rulesAll fs
  | .rule r => [r]
termination_by structural f => f

/-- The rules of filters, from left to right. -/
def rulesAll : List Filter → List Rule
  | [] => []
  | f :: rest => rules f ++ rulesAll rest
termination_by structural l => l

end

theorem rulesAll_eq_flatMap (l : List Filter) : rulesAll l = l.flatMap rules := by
  induction l with
  | nil => rfl
  | cons f rest ih => rw [rulesAll, ih, List.flatMap_cons]

/-! ### Priority -/

theorem byRank_perm (priority : List String) (l : List Filter) : (byRank priority l).Perm l :=
  List.mergeSort_perm _ _

theorem byRank_ne_nil {priority : List String} {l : List Filter} (h : l ≠ []) :
    byRank priority l ≠ [] := by
  intro hn
  have hp := byRank_perm priority l
  rw [hn] at hp
  exact h hp.nil_eq.symm

theorem prioritizeAll_eq_map (priority : List String) (l : List Filter) :
    prioritizeAll priority l = l.map (prioritize priority) := by
  induction l with
  | nil => rfl
  | cons f rest ih => rw [prioritizeAll, ih, List.map_cons]

theorem prioritize_nil (priority : List String) (op : Connective) :
    prioritize priority (.group op []) = .group op [] := by
  rw [prioritize, prioritizeAll, byRank, List.mergeSort_nil]

/-- Without a priority the rules stay in their order. -/
theorem prioritize_unranked (f : Filter) : f.prioritize [] = f := by
  have hrank : ∀ g : Filter, g.rank [] = 0 := by
    intro g
    induction g using treeInduction with
    | rule r => rfl
    | group op fs ih =>
      cases fs with
      | nil => rfl
      | cons g rest => rw [rank, bestRank, ih g List.mem_cons_self, Nat.zero_min]
  induction f using treeInduction with
  | rule r => rfl
  | group op fs ih =>
    have hparts : prioritizeAll [] fs = fs := by
      rw [prioritizeAll_eq_map, List.map_congr_left ih]
      exact List.map_id' fs
    have hordered : fs.Pairwise fun f g => decide (f.rank [] ≤ g.rank []) = true :=
      List.pairwise_of_forall fun f g => by simp [hrank]
    rw [prioritize, hparts, byRank, List.mergeSort_of_pairwise hordered]

/-- Putting rules in order keeps the value of a filter. -/
theorem truth_prioritize (priority : List String) (τ : Rule → Truth) (f : Filter) :
    truth τ (prioritize priority f) = truth τ f := by
  induction f using treeInduction with
  | rule r => rfl
  | group op fs ih =>
    by_cases hfs : fs = []
    · rw [hfs, prioritize_nil]
    · have hne : prioritizeAll priority fs ≠ [] := by
        rw [prioritizeAll_eq_map]
        intro hn
        exact hfs (List.map_eq_nil_iff.1 hn)
      rw [prioritize, truth_group op (byRank_ne_nil hne), truth_group op hfs]
      rw [op.value_perm ((byRank_perm _ _).map _), prioritizeAll_eq_map, List.map_map]
      exact congrArg op.value (List.map_congr_left ih)

/-- Putting rules in order keeps the rules, each as often as it occurs. -/
theorem rules_prioritize_perm (priority : List String) (f : Filter) :
    (prioritize priority f).rules.Perm f.rules := by
  induction f using treeInduction with
  | rule r => exact .refl _
  | group op fs ih =>
    rw [prioritize, rules, rules, rulesAll_eq_flatMap, rulesAll_eq_flatMap]
    refine ((byRank_perm _ _).flatMap_right rules).trans ?_
    rw [prioritizeAll_eq_map, List.flatMap_map]
    exact List.Perm.flatMap_left fs ih

/-! ### Filters that hold by their shape -/

/-- A filter that matches all by its shape holds, whatever its rules are worth. -/
theorem truth_of_matchesAll (τ : Rule → Truth) (f : Filter) (h : f.matchesAll = true) :
    truth τ f = .yes := by
  induction f using treeInduction with
  | rule r => simp at h
  | group op fs ih =>
    by_cases hfs : fs = []
    · rw [hfs, truth_nil]
    · rw [truth_group op hfs]
      cases op with
      | and =>
        rw [matchesAll_and, List.all_eq_true] at h
        refine (Truth.every_eq_yes_iff _).2 fun t ht => ?_
        obtain ⟨g, hg, rfl⟩ := List.mem_map.1 ht
        exact ih g hg (h g hg)
      | or =>
        rw [matchesAll_or hfs, List.any_eq_true] at h
        obtain ⟨g, hg, hall⟩ := h
        exact (Truth.any_eq_yes_iff _).2 ⟨truth τ g, List.mem_map.2 ⟨g, hg, rfl⟩, ih g hg hall⟩

/-- If no rule holds, a filter holds only by its shape. -/
theorem matchesAll_of_truth_no (f : Filter) (h : truth (fun _ => .no) f = .yes) :
    f.matchesAll = true := by
  induction f using treeInduction with
  | rule r => simp at h
  | group op fs ih =>
    by_cases hfs : fs = []
    · rw [hfs, matchesAll_nil]
    · rw [truth_group op hfs] at h
      cases op with
      | and =>
        have hall := (Truth.every_eq_yes_iff _).1 h
        rw [matchesAll_and, List.all_eq_true]
        exact fun g hg => ih g hg (hall _ (List.mem_map.2 ⟨g, hg, rfl⟩))
      | or =>
        obtain ⟨t, ht, hyes⟩ := (Truth.any_eq_yes_iff _).1 h
        obtain ⟨g, hg, rfl⟩ := List.mem_map.1 ht
        rw [matchesAll_or hfs, List.any_eq_true]
        exact ⟨g, hg, ih g hg hyes⟩

/-- **A filter matches all by its shape exactly if it holds under every assignment**
of values to its rules.  The assignment under which no rule holds is enough to tell. -/
theorem matchesAll_iff (f : Filter) : f.matchesAll = true ↔ ∀ τ, truth τ f = .yes :=
  ⟨fun h τ => truth_of_matchesAll τ f h, fun h => matchesAll_of_truth_no f (h _)⟩

/-! ### The crown -/

/-- The filter that a crown makes of a filter: the filter itself if the crown has no
rules, the crown alone if the filter has none, and otherwise both, joined. -/
def crownedBy (f : Filter) : Option (Connective × List Filter) → Filter
  | some (op, c :: cs) =>
    if f.isEmpty then .group .and (c :: cs) else .group op [f, .group .and (c :: cs)]
  | _ => f

/-- Crown rules, if there are any, are ones that callers may use. -/
def CrownPasses (rules : FilterRules) (crown : Option (Connective × List Filter)) : Prop :=
  ∀ op fs, crown = some (op, fs) → checkAll rules fs = .ok ()

theorem crownPasses_of_none (rules : FilterRules) {crown : Option (Connective × List Filter)}
    (h : crown = none) : CrownPasses rules crown := by
  subst h
  intro op fs hsome
  cases hsome

/-! ### Rules that pass the check -/

/-- Every rule of the filter is one that callers may use. -/
def RulesPass (rules : FilterRules) (f : Filter) : Prop := ∀ r ∈ f.rules, r.check rules = .ok ()

section Pass

variable {rules : FilterRules}

theorem rulesPass_rule {r : Rule} : RulesPass rules (.rule r) ↔ r.check rules = .ok () := by
  rw [RulesPass, Filter.rules, List.forall_mem_singleton]

theorem rulesPass_group {op : Connective} {fs : List Filter} :
    RulesPass rules (.group op fs) ↔ ∀ f ∈ fs, RulesPass rules f := by
  simp only [RulesPass, Filter.rules, rulesAll_eq_flatMap, List.mem_flatMap]
  exact ⟨fun h f hf r hr => h r ⟨f, hf, hr⟩, fun h r ⟨f, hf, hr⟩ => h f hf r hr⟩

/-- A filter that passes the check has rules that do. -/
theorem rulesPass_of_check {f : Filter} (h : f.check rules = .ok ()) : RulesPass rules f := by
  induction f using treeInduction with
  | rule r => exact rulesPass_rule.2 h
  | group op fs ih =>
    rw [check] at h
    split at h
    · cases h
    · exact rulesPass_group.2 fun f hf => ih f hf (checkAll_eq_ok_iff.1 h f hf)

theorem rulesPass_prioritize {f : Filter} (priority : List String) (h : RulesPass rules f) :
    RulesPass rules (f.prioritize priority) :=
  fun r hr => h r ((rules_prioritize_perm priority f).mem_iff.1 hr)

/-- The crowned filter has rules that pass, if the filter and the crown do. -/
theorem rulesPass_crownedBy {f : Filter} {crown : Option (Connective × List Filter)}
    (h : RulesPass rules f) (hcrown : CrownPasses rules crown) :
    RulesPass rules (f.crownedBy crown) := by
  have hgroup : ∀ op cs, crown = some (op, cs) → RulesPass rules (.group .and cs) :=
    fun op cs hc => rulesPass_group.2 fun g hg =>
      rulesPass_of_check (checkAll_eq_ok_iff.1 (hcrown op cs hc) g hg)
  unfold crownedBy
  split
  · next op c cs =>
    split
    · exact hgroup op (c :: cs) rfl
    · refine rulesPass_group.2 (List.forall_mem_cons.2 ⟨h, List.forall_mem_singleton.2 ?_⟩)
      exact hgroup op (c :: cs) rfl
  · exact h

end Pass

end Filter

namespace ValidFilter

variable {rules : FilterRules}

theorem crowned_eq_ok {v : ValidFilter rules} {options : CompileOptions}
    (h : Filter.CrownPasses rules options.crown) :
    v.crowned options = .ok (v.filter.crownedBy options.crown) := by
  unfold crowned
  split
  · next op c cs hc => rw [h op (c :: cs) hc, hc, Filter.crownedBy]; rfl
  · next hnone => rw [Filter.crownedBy]; exact hnone

/-- What a filter is crowned with has passed the check. -/
theorem crowned_ok {v : ValidFilter rules} {options : CompileOptions} {f : Filter}
    (h : v.crowned options = .ok f) :
    f = v.filter.crownedBy options.crown ∧
      ∀ op c cs, options.crown = some (op, c :: cs) → Filter.checkAll rules (c :: cs) = .ok () := by
  unfold crowned at h
  split at h
  · next op c cs hc =>
    cases hcheck : Filter.checkAll rules (c :: cs) with
    | error e => rw [hcheck] at h; cases h
    | ok u =>
      rw [hcheck] at h
      refine ⟨?_, ?_⟩
      · rw [hc, Filter.crownedBy]
        exact (Except.ok.inj h).symm
      · intro op' c' cs' hc'
        rw [hc] at hc'
        cases hc'
        exact hcheck
  · next hnone =>
    refine ⟨?_, fun op c cs hc => absurd hc (hnone op c cs)⟩
    rw [← Except.ok.inj h, Filter.crownedBy]
    exact hnone

theorem crownPasses_of_crowned {v : ValidFilter rules} {options : CompileOptions} {f : Filter}
    (h : v.crowned options = .ok f) : Filter.CrownPasses rules options.crown := by
  intro op fs hcrown
  cases fs with
  | nil => rfl
  | cons c cs => exact (crowned_ok h).2 op c cs hcrown

end ValidFilter

end ResourceTable
