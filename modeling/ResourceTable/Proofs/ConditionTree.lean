import Mathlib.Data.List.Forall2
import ResourceTable.Proofs.Meaning

/-!
# The tree behind a condition

The compiler turns a filter into a tree of tests and prints the tree.  The tree mirrors
the filter group by group, whatever the texts of its tests are, and that is enough to
decide whether it holds whatever its tests are worth.

## Main definitions

* `Condition.truth`: the value of a condition, given the values of its tests.
* `Mirrors f c`: the condition `c` has a test for every rule of `f`, joined alike.

## Main results

* `mirrors_lower` — **the compiled condition mirrors the filter.**
* `Mirrors.truth_iff` — a condition that mirrors a filter holds under every assignment
  exactly if the filter matches all by its shape.
-/

namespace ResourceTable

open Sql (Truth)

namespace Condition

mutual

/-- The value of a condition whose tests have the values `τ`. -/
def truth (τ : String → Truth) : Condition → Truth
  | .always => .yes
  | .group op parts => op.value (truths τ parts)
  | .test sql => τ sql
termination_by structural c => c

/-- The values of conditions. -/
def truths (τ : String → Truth) : List Condition → List Truth
  | [] => []
  | c :: rest => truth τ c :: truths τ rest
termination_by structural l => l

end

theorem truths_eq_map (τ : String → Truth) (l : List Condition) :
    truths τ l = l.map (truth τ) := by
  induction l with
  | nil => rfl
  | cons c rest ih => rw [truths, ih, List.map_cons]

theorem partTexts_eq_map (l : List Condition) : partTexts l = l.map text := by
  induction l with
  | nil => rfl
  | cons c rest ih => rw [partTexts, ih, List.map_cons]

theorem toList_intercalate (separator first : String) (rest : List String) :
    (String.intercalate separator (first :: rest)).toList =
      first.toList ++ rest.flatMap fun s => separator.toList ++ s.toList := by
  induction rest generalizing first with
  | nil => simp
  | cons s more ih => simp [String.intercalate_cons_cons, ih]

/-- The characters of a group: its parts, with the keyword before all but the first. -/
theorem toList_text_group (op : Connective) (c : Condition) (cs : List Condition) :
    (text (.group op (c :: cs))).toList = '(' :: (c.text.toList ++
      ((cs.flatMap fun d => op.keyword.toList ++ d.text.toList) ++ [')'])) := by
  rw [text, partTexts, String.toList_append, String.toList_append, toList_intercalate,
    partTexts_eq_map, List.flatMap_map]
  simp

end Condition

/-- The condition has a test for every rule of the filter, in groups joined alike. -/
inductive Mirrors : Filter → Condition → Prop
  | rule (r : Rule) (sql : String) : Mirrors (.rule r) (.test sql)
  | empty (op : Connective) : Mirrors (.group op []) .always
  | group (op : Connective) {f : Filter} {fs : List Filter} {c : Condition}
      {cs : List Condition} (hf : Mirrors f c) (hfs : List.Forall₂ Mirrors fs cs) :
      Mirrors (.group op (f :: fs)) (.group op (c :: cs))

namespace Filter

variable {fields : Schema} {f : Filter} {rest : List Filter} {n n' : Naming}

/-- Filters are compiled one after the other. -/
theorem lowerAll_cons_ok {cs : List Condition}
    (h : lowerAll fields (f :: rest) n = .ok (cs, n')) :
    ∃ c m ds, f.lower fields n = .ok (c, m) ∧ lowerAll fields rest m = .ok (ds, n') ∧
      cs = c :: ds := by
  rw [lowerAll] at h
  cases hc : f.lower fields n with
  | error e => rw [hc] at h; cases h
  | ok first =>
    rw [hc] at h
    cases hds : lowerAll fields rest first.2 with
    | error e =>
      simp only [bind, Except.bind, hds] at h
      cases h
    | ok more =>
      simp only [bind, Except.bind, hds] at h
      cases h
      exact ⟨first.1, first.2, more.1, rfl, hds, rfl⟩

/-- A group is compiled as its parts are. -/
theorem lower_group (op : Connective) :
    (Filter.group op (f :: rest)).lower fields n =
      (lowerAll fields (f :: rest) n).map fun p => (.group op p.1, p.2) := by
  rw [lower, lowerAll]
  cases hf : f.lower fields n with
  | error e => rfl
  | ok first =>
    simp only [bind, Except.bind]
    cases hrest : lowerAll fields rest first.2 <;> rfl

theorem lower_group_ok {op : Connective} {c : Condition}
    (h : (Filter.group op (f :: rest)).lower fields n = .ok (c, n')) :
    ∃ d m ds, f.lower fields n = .ok (d, m) ∧ lowerAll fields rest m = .ok (ds, n') ∧
      c = .group op (d :: ds) := by
  rw [lower_group] at h
  cases hall : lowerAll fields (f :: rest) n with
  | error e => rw [hall] at h; cases h
  | ok p =>
    rw [hall] at h
    cases h
    obtain ⟨d, m, ds, hd, hds, hp⟩ := lowerAll_cons_ok hall
    exact ⟨d, m, ds, hd, hds, congrArg (Condition.group op) hp⟩

end Filter

namespace Mirrors

/-- What is compiled mirrors the filter. -/
theorem lowerAll {fields : Schema} : ∀ {fs : List Filter} {n n' : Naming} {cs : List Condition},
    (∀ f ∈ fs, ∀ n c n', f.lower fields n = .ok (c, n') → Mirrors f c) →
      Filter.lowerAll fields fs n = .ok (cs, n') → List.Forall₂ Mirrors fs cs := by
  intro fs
  induction fs with
  | nil =>
    intro n n' cs _ h
    cases h
    exact .nil
  | cons f rest ih =>
    intro n n' cs hall h
    obtain ⟨hf, hrest⟩ := List.forall_mem_cons.1 hall
    obtain ⟨c, m, ds, hc, hds, rfl⟩ := Filter.lowerAll_cons_ok h
    exact .cons (hf n c m hc) (ih hrest hds)

end Mirrors

/-- **The compiled condition mirrors the filter.** -/
theorem mirrors_lower {fields : Schema} {f : Filter} : ∀ {n n' : Naming} {c : Condition},
    f.lower fields n = .ok (c, n') → Mirrors f c := by
  induction f using Filter.treeInduction with
  | rule r =>
    intro n n' c h
    rw [Filter.lower, Rule.lower] at h
    split at h
    · cases hkey : r.keyTest with
      | error e => rw [hkey] at h; cases h
      | ok sql =>
        rw [hkey] at h
        cases h
        exact .rule r sql
    · dsimp only at h
      cases htest : r.test (fields.get? r.field) (n.next (placeholderBase r.field)) with
      | error e => rw [htest] at h; cases h
      | ok p =>
        rw [htest] at h
        cases h
        exact .rule r p.1
  | group op fs ih =>
    intro n n' c h
    cases fs with
    | nil =>
      cases h
      exact .empty op
    | cons f rest =>
      obtain ⟨hf, hrest⟩ := List.forall_mem_cons.1 ih
      obtain ⟨c, m, ds, hc, hds, rfl⟩ := Filter.lower_group_ok h
      exact .group op (hf hc) (Mirrors.lowerAll (fun g hg _ _ _ => hrest g hg) hds)

/-! ### Conditions that hold by their shape -/

/-- What follows for the members of one list follows for the pairs. -/
theorem forall₂_of_mem {α β : Type} {R S : α → β → Prop} {l : List α} {l' : List β}
    (h : List.Forall₂ R l l') (himp : ∀ a ∈ l, ∀ b, R a b → S a b) : List.Forall₂ S l l' := by
  induction h with
  | nil => exact .nil
  | cons hr _ ih =>
    obtain ⟨ha, hrest⟩ := List.forall_mem_cons.1 himp
    exact .cons (ha _ hr) (ih hrest)

theorem map_eq_of_forall₂ {α β γ : Type} {f : α → γ} {g : β → γ} {l : List α} {l' : List β}
    (h : List.Forall₂ (fun a b => f a = g b) l l') : l.map f = l'.map g := by
  induction h with
  | nil => rfl
  | cons hr _ ih => rw [List.map_cons, List.map_cons, hr, ih]

namespace Mirrors

/-- If no test and no rule holds, the condition and the filter have the same value. -/
theorem truth_no {f : Filter} : ∀ {c : Condition}, Mirrors f c →
    c.truth (fun _ => .no) = f.truth fun _ => .no := by
  induction f using Filter.treeInduction with
  | rule r =>
    intro c h
    cases h
    rfl
  | group op fs ih =>
    intro c h
    cases h with
    | empty => rfl
    | @group _ f fs c cs hf hfs =>
      have hequal := map_eq_of_forall₂
        (forall₂_of_mem (.cons hf hfs) fun g hg d hd => (ih g hg (c := d) hd).symm)
      rw [Condition.truth, Condition.truths_eq_map, ← hequal,
        Filter.truth_group op (List.cons_ne_nil f fs)]

/-- A condition holds under every assignment if it mirrors a filter that matches all by
its shape. -/
theorem truth_of_matchesAll (τ : String → Truth) {f : Filter} : ∀ {c : Condition},
    Mirrors f c → f.matchesAll = true → c.truth τ = .yes := by
  induction f using Filter.treeInduction with
  | rule r =>
    intro c _ hall
    rw [Filter.matchesAll_rule] at hall
    cases hall
  | group op fs ih =>
    intro c h hall
    cases h with
    | empty => rfl
    | @group _ f fs c cs hf hfs =>
      have hholds := forall₂_of_mem (.cons hf hfs) fun g hg d => ih g hg (c := d)
      rw [Condition.truth, Condition.truths_eq_map]
      clear ih hf hfs
      cases op with
      | and =>
        rw [Filter.matchesAll_and] at hall
        generalize f :: fs = gs at hholds hall
        generalize c :: cs = ds at hholds
        induction hholds with
        | nil => rfl
        | cons hg _ ihs =>
          rw [List.all_cons, Bool.and_eq_true] at hall
          exact (Truth.both_eq_yes_iff _ _).2 ⟨hg hall.1, ihs hall.2⟩
      | or =>
        rw [Filter.matchesAll_or (List.cons_ne_nil f fs)] at hall
        generalize f :: fs = gs at hholds hall
        generalize c :: cs = ds at hholds
        induction hholds with
        | nil => cases hall
        | cons hg _ ihs =>
          rw [List.any_cons, Bool.or_eq_true] at hall
          exact (Truth.either_eq_yes_iff _ _).2 (hall.imp hg ihs)

/-- **A condition that mirrors a filter holds under every assignment exactly if the
filter matches all by its shape.** -/
theorem truth_iff {f : Filter} {c : Condition} (h : Mirrors f c) :
    f.matchesAll = true ↔ ∀ τ, c.truth τ = .yes := by
  refine ⟨fun hall τ => h.truth_of_matchesAll τ hall, fun hall => ?_⟩
  exact Filter.matchesAll_of_truth_no f (h.truth_no.symm.trans (hall _))

end Mirrors

end ResourceTable
