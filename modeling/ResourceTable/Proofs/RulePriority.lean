import ResourceTable.Proofs.CellOrder
import ResourceTable.Proofs.ConditionTree
import ResourceTable.Proofs.Totality

/-!
# Rules in order of priority

A priority list names fields, and the rules on these fields come first in every group.  A
rule has the position of its field in the list, a group the least position of a rule in it,
and what is not in the list comes last.  Rules of one position stay in the order that they
had, so that there is one way to arrange a filter: it has the same rules in every group, and
arranging it again changes nothing.

The compiler goes through a filter once.  When it reaches a group it puts the rules in
order, by the positions that they have before anything within them is arranged, and gives
out names as it goes on.  That is the same as to arrange the filter first, because a filter
has the position that it has when it is arranged; and so a priority list does no more than
arrange the filter and its crown.

## Main definitions

* `SortedBy`: a list in the order of a key, and otherwise in the order of another list.
* `Filter.position`: the least position of a rule's field in a priority list.
* `Filter.Arranged`: a filter with the rules of every group in order.
* `Filter.Permuted`: a filter with the rules of every group in another order.
* `Filter.lowerInTurn`: the condition of a filter whose groups are put in order when they
  are reached.

## Main results

* `SortedBy.unique` — there is one list in the order of a key.
* `rank_eq_position` — the rank by which rules are sorted is their position.
* `arranged_iff` — **a filter is arranged in one way.**
* `lowerInTurn_eq` — arranging in turn is arranging first.
* `priority_reorders` — **a priority list arranges the filter and its crown, and changes
  nothing else.**
-/

namespace ResourceTable

/-! ### Lists in the order of a key -/

section Sorting

variable {α : Type} {key : α → Nat} {l m m' : List α}

/-- The members of `l` in the order of a key, and those of one key in the order of `l`. -/
structure SortedBy (key : α → Nat) (l m : List α) : Prop where
  /-- The keys ascend. -/
  ascending : m.Pairwise fun a b => key a ≤ key b
  /-- The members of one key are those of `l` in the same order. -/
  stable : ∀ n, (m.filter fun a => key a == n) = l.filter fun a => key a == n

namespace SortedBy

theorem perm (h : SortedBy key l m) : m.Perm l := by
  classical
  rw [List.perm_iff_count]
  intro a
  have hkept := congrArg (List.count a) (h.stable (key a))
  rwa [List.count_filter (by simp), List.count_filter (by simp)] at hkept

/-- **There is one list in the order of a key.** -/
theorem unique (h : SortedBy key l m) (h' : SortedBy key l m') : m = m' := by
  induction m generalizing l m' with
  | nil =>
    have hempty := h'.perm.trans h.perm.symm
    exact hempty.eq_nil.symm
  | cons a rest ih =>
    have hperm : m'.Perm (a :: rest) := h'.perm.trans h.perm.symm
    cases m' with
    | nil => exact absurd hperm.symm.eq_nil (List.cons_ne_nil a rest)
    | cons b rest' =>
      obtain ⟨hfirst, hrest⟩ := List.pairwise_cons.1 h.ascending
      obtain ⟨hfirst', hrest'⟩ := List.pairwise_cons.1 h'.ascending
      -- Neither head has a greater key than the other, so that each leads the members of its key.
      have hkeys : key a = key b := by
        have hb : b = a ∨ b ∈ rest := by simpa using hperm.mem_iff.1 List.mem_cons_self
        have ha : a = b ∨ a ∈ rest' := by simpa using hperm.mem_iff.2 List.mem_cons_self
        rcases hb with rfl | hb
        · rfl
        · rcases ha with rfl | ha
          · rfl
          · exact Nat.le_antisymm (hfirst b hb) (hfirst' a ha)
      have hsame (n : Nat) := (h.stable n).trans (h'.stable n).symm
      have hheads := hsame (key a)
      simp only [List.filter_cons, hkeys, beq_self_eq_true, if_true] at hheads
      obtain ⟨rfl, -⟩ := List.cons.inj hheads
      have hrests (n : Nat) :
          (rest.filter fun c => key c == n) = rest'.filter fun c => key c == n := by
        have hn := hsame n
        simp only [List.filter_cons] at hn
        split at hn
        · exact (List.cons.inj hn).2
        · exact hn
      rw [ih ⟨hrest, fun n => rfl⟩ ⟨hrest', fun n => (hrests n).symm⟩]

/-- A list whose keys ascend is in order already. -/
theorem self (h : l.Pairwise fun a b => key a ≤ key b) : SortedBy key l l := ⟨h, fun _ => rfl⟩

end SortedBy

/-- Sorting puts a list in the order of the key. -/
theorem sortedBy_mergeSort (key : α → Nat) (l : List α) :
    SortedBy key l (l.mergeSort fun a b => key a ≤ key b) := by
  have htrans : ∀ a b c : α, decide (key a ≤ key b) → decide (key b ≤ key c) →
      decide (key a ≤ key c) := by
    simp only [decide_eq_true_eq]
    intro a b c hab hbc
    omega
  have htotal : ∀ a b : α, decide (key a ≤ key b) || decide (key b ≤ key a) := by
    simp only [Bool.or_eq_true, decide_eq_true_eq]
    intro a b
    omega
  refine ⟨?_, fun n => ?_⟩
  · exact (List.pairwise_mergeSort htrans htotal l).imp fun h => of_decide_eq_true h
  · rw [filter_mergeSort htrans htotal]
    -- Members of one key are in order as they stand.
    refine List.mergeSort_of_pairwise (List.pairwise_of_forall_mem_list fun a ha b hb => ?_)
    have hn : key a = n := by simpa using (List.mem_filter.1 ha).2
    have hn' : key b = n := by simpa using (List.mem_filter.1 hb).2
    simp [hn, hn']

/-- The first member with one of two properties is the first with either. -/
theorem findIdx_or (p q : α → Bool) (l : List α) :
    l.findIdx (fun a => p a || q a) = min (l.findIdx p) (l.findIdx q) := by
  induction l with
  | nil => rfl
  | cons a rest ih =>
    simp only [List.findIdx_cons, ih]
    cases p a <;> cases q a <;> simp

end Sorting

namespace Filter

variable {priority : List String}

/-! ### Positions -/

/-- The first position in the priority list that names the field of a rule of the filter, or
the length of the list if there is none. -/
def position (priority : List String) (f : Filter) : Nat :=
  priority.findIdx fun name => f.rules.any fun r => r.field == name

theorem position_rule (priority : List String) (r : Rule) :
    position priority (.rule r) = priority.findIdx (· == r.field) := by
  unfold position
  congr 1
  funext name
  simp [rules, Bool.beq_comm]

/-- A group has the least position of its members. -/
theorem position_group (priority : List String) (op : Connective) (f : Filter)
    (rest : List Filter) : position priority (.group op (f :: rest)) =
      min (position priority f) (position priority (.group op rest)) := by
  simp only [position, rules, rulesAll, List.any_append]
  exact findIdx_or _ _ priority

/-- **The rank by which rules are sorted is their position.** -/
theorem rank_eq_position (priority : List String) (f : Filter) :
    rank priority f = position priority f := by
  induction f using treeInduction with
  | rule r => rw [rank, position_rule]
  | group op fs ih =>
    rw [rank]
    induction fs with
    | nil =>
      symm
      simp [position, rules, rulesAll, bestRank]
    | cons f rest ihrest =>
      obtain ⟨hf, hrest⟩ := List.forall_mem_cons.1 ih
      rw [bestRank, position_group, hf, ihrest hrest]

/-- A filter has the position of the filter with its groups in order. -/
theorem position_prioritize (priority : List String) (f : Filter) :
    position priority (f.prioritize priority) = position priority f := by
  unfold position
  congr 1
  funext name
  exact (rules_prioritize_perm priority f).any_eq

theorem sortedBy_byRank (priority : List String) (fs : List Filter) :
    SortedBy (position priority) fs (byRank priority fs) := by
  have hkey : rank priority = position priority := funext (rank_eq_position priority)
  rw [byRank, hkey]
  exact sortedBy_mergeSort _ fs

/-- Filters can be put in order before or after the groups within them. -/
theorem byRank_map_prioritize (priority : List String) (fs : List Filter) :
    byRank priority (fs.map (prioritize priority)) =
      (byRank priority fs).map (prioritize priority) := by
  unfold byRank
  refine (List.map_mergeSort fun f _ g _ => ?_).symm
  simp only [rank_eq_position, position_prioritize]

theorem prioritize_group (priority : List String) (op : Connective) (fs : List Filter) :
    prioritize priority (.group op fs) =
      .group op ((byRank priority fs).map (prioritize priority)) := by
  rw [prioritize, prioritizeAll_eq_map, byRank_map_prioritize]

theorem mem_byRank {f : Filter} {fs : List Filter} : f ∈ byRank priority fs ↔ f ∈ fs :=
  (byRank_perm priority fs).mem_iff

/-! ### Arranged filters -/

/-- The filter with the rules of every group in the order of their positions. -/
inductive Arranged (priority : List String) : Filter → Filter → Prop
  /-- A rule stays as it is. -/
  | rule (r : Rule) : Arranged priority (.rule r) (.rule r)
  /-- A group has its members in order, each of them arranged. -/
  | group (op : Connective) {fs gs hs : List Filter}
    (order : SortedBy (position priority) fs gs)
    (parts : List.Forall₂ (Arranged priority) gs hs) :
    Arranged priority (.group op fs) (.group op hs)

/-- The filter with the rules of every group in some order. -/
inductive Permuted : Filter → Filter → Prop
  /-- A rule stays as it is. -/
  | rule (r : Rule) : Permuted (.rule r) (.rule r)
  /-- A group has its members in some order, and so has each of them. -/
  | group (op : Connective) {fs gs hs : List Filter} (order : gs.Perm fs)
    (parts : List.Forall₂ Permuted gs hs) : Permuted (.group op fs) (.group op hs)

/-- **A filter is arranged in one way.** -/
theorem arranged_iff {f g : Filter} : f.Arranged priority g ↔ g = f.prioritize priority := by
  induction f using treeInduction generalizing g with
  | rule r =>
    constructor
    · intro h
      cases h
      rfl
    · rintro rfl
      exact .rule r
  | group op fs ih =>
    have hmember : ∀ f ∈ byRank priority fs, ∀ g, f.Arranged priority g ↔
        g = f.prioritize priority := fun f hf g => ih f (mem_byRank.1 hf)
    rw [prioritize_group]
    constructor
    · intro h
      cases h with
      | group _ horder hparts =>
        obtain rfl := horder.unique (sortedBy_byRank priority fs)
        have hall := forall₂_of_mem hparts fun f hf g hfg => ((hmember f hf g).1 hfg).symm
        have hmap := map_eq_of_forall₂ (f := prioritize priority) (g := id) hall
        rw [hmap, List.map_id]
    · rintro rfl
      refine .group op (sortedBy_byRank priority fs) ?_
      rw [List.forall₂_map_right_iff, List.forall₂_same]
      exact fun f hf => (hmember f hf _).2 rfl

/-- An arranged filter has the same rules in every group. -/
theorem permuted_prioritize (priority : List String) (f : Filter) :
    f.Permuted (f.prioritize priority) := by
  induction f using treeInduction with
  | rule r => exact .rule r
  | group op fs ih =>
    rw [prioritize_group]
    refine .group op (byRank_perm priority fs) ?_
    rw [List.forall₂_map_right_iff, List.forall₂_same]
    exact fun f hf => ih f (mem_byRank.1 hf)

/-- **Arranging a filter again changes nothing.** -/
theorem prioritize_prioritize (priority : List String) (f : Filter) :
    (f.prioritize priority).prioritize priority = f.prioritize priority := by
  induction f using treeInduction with
  | rule r => rfl
  | group op fs ih =>
    have hkept : ((byRank priority fs).map (prioritize priority)).map (prioritize priority) =
        (byRank priority fs).map (prioritize priority) := by
      rw [List.map_map]
      exact List.map_congr_left fun f hf => ih f (mem_byRank.1 hf)
    have hordered : SortedBy (position priority)
        ((byRank priority fs).map (prioritize priority))
        ((byRank priority fs).map (prioritize priority)) := by
      refine .self (List.pairwise_map.2 ?_)
      simp only [position_prioritize]
      exact (sortedBy_byRank priority fs).ascending
    rw [prioritize_group, prioritize_group,
      (sortedBy_byRank priority _).unique hordered, hkept]

/-- Whether a filter matches all by its shape does not depend on the order. -/
theorem matchesAll_prioritize (priority : List String) (f : Filter) :
    (f.prioritize priority).matchesAll = f.matchesAll := by
  rw [Bool.eq_iff_iff, matchesAll_iff, matchesAll_iff]
  simp only [truth_prioritize]

/-! ### One way through a filter -/

/-- What is compiled one after the other, with the names that are given out on the way. -/
def inTurn : List (Naming → Checked (Condition × Naming)) → Naming →
    Checked (List Condition × Naming)
  | [], n => .ok ([], n)
  | part :: rest, n => do
    let (first, n) ← part n
    let (parts, n) ← inTurn rest n
    return (first :: parts, n)

/-- The condition of a filter, if a group is put in order when it is reached. -/
def lowerInTurn (priority : List String) (fields : Schema) :
    Filter → Naming → Checked (Condition × Naming)
  | .group op fs, n =>
    if fs.isEmpty then .ok (.always, n)
    else do
      let (parts, n) ←
        inTurn ((byRank priority fs).attach.map fun f => lowerInTurn priority fields f.1) n
      return (.group op parts, n)
  | .rule r, n => r.lower fields n
termination_by f => sizeOf f
decreasing_by
  have hsize := List.sizeOf_lt_of_mem (mem_byRank.1 f.2)
  simp
  omega

theorem lowerAll_eq_inTurn (fields : Schema) (fs : List Filter) :
    ∀ n, lowerAll fields fs n = inTurn (fs.map (lower fields)) n := by
  induction fs with
  | nil => exact fun n => rfl
  | cons f rest ih =>
    intro n
    rw [lowerAll, List.map_cons, inTurn]
    simp only [ih]

/-- **Arranging in turn is arranging first.** -/
theorem lowerInTurn_eq (priority : List String) (fields : Schema) (f : Filter) :
    lowerInTurn priority fields f = lower fields (f.prioritize priority) := by
  induction f using treeInduction with
  | rule r =>
    funext n
    rw [lowerInTurn, prioritize, lower]
  | group op fs ih =>
    funext n
    have hparts : (byRank priority fs).map (lowerInTurn priority fields) =
        ((byRank priority fs).map (prioritize priority)).map (lower fields) := by
      rw [List.map_map]
      exact List.map_congr_left fun f hf => ih f (mem_byRank.1 hf)
    rw [lowerInTurn, List.attach_map_val, hparts, ← lowerAll_eq_inTurn, prioritize_group]
    cases fs with
    | nil => simp [byRank, lower]
    | cons f rest =>
      -- Sorted, the group still has a first member, so that it is compiled as its members are.
      cases hsorted : (byRank priority (f :: rest)).map (prioritize priority) with
      | nil => exact absurd (List.map_eq_nil_iff.1 hsorted) (byRank_ne_nil (List.cons_ne_nil f rest))
      | cons g more =>
        rw [lower_group, List.isEmpty_cons, if_neg Bool.false_ne_true]
        cases lowerAll fields (g :: more) n <;> rfl

end Filter

namespace ValidFilter

variable {rules : FilterRules}

/-- A filter whose rules pass the check passes it under rules that allow groups of its
size. -/
theorem exists_of_rulesPass {f : Filter} (h : f.RulesPass rules) :
    ∃ limit, ∃ w : ValidFilter { rules with maxRules := limit }, w.filter = f := by
  -- A limit that one part of a group needs has to be raised for another.
  have hroom : ∃ limit, ∀ m, limit ≤ m → f.check { rules with maxRules := m } = .ok () := by
    induction f using Filter.treeInduction with
    | rule r => exact ⟨0, fun m _ => Filter.rulesPass_rule.1 h⟩
    | group op fs ih =>
      have hparts := Filter.rulesPass_group.1 h
      have hall : ∃ limit, ∀ m, limit ≤ m →
          ∀ f ∈ fs, f.check { rules with maxRules := m } = .ok () := by
        clear h
        induction fs with
        | nil => exact ⟨0, fun m _ f hf => absurd hf List.not_mem_nil⟩
        | cons f rest ihrest =>
          obtain ⟨hf, hrest⟩ := List.forall_mem_cons.1 ih
          obtain ⟨hpass, hpasses⟩ := List.forall_mem_cons.1 hparts
          obtain ⟨a, ha⟩ := hf hpass
          obtain ⟨b, hb⟩ := ihrest hrest hpasses
          refine ⟨max a b, fun m hm => List.forall_mem_cons.2 ⟨ha m ?_, hb m ?_⟩⟩ <;> omega
      obtain ⟨a, ha⟩ := hall
      refine ⟨max a fs.length, fun m hm => ?_⟩
      have hlength : ¬ m < fs.length := by omega
      rw [Filter.check, if_neg hlength, Filter.checkAll_eq_ok_iff]
      exact ha m (by omega)
  obtain ⟨limit, hlimit⟩ := hroom
  exact ⟨limit, ⟨f, hlimit limit (Nat.le_refl _)⟩, rfl⟩

theorem compile_of_lower {v : ValidFilter rules} {options : CompileOptions} {f : Filter}
    {c : Condition} {n : Naming} (hcrowned : v.crowned options = .ok f)
    (hlower : (f.prioritize options.priority).lower rules.fields (.start options.reserved) =
      .ok (c, n)) : v.compile options = .ok ⟨"WHERE " ++ c.text, n.params, f.matchesAll⟩ := by
  rw [compile, hcrowned]
  simp only [bind, Except.bind, hlower]
  rfl

/-- **A priority list arranges the filter and its crown, and changes nothing else.**  With
the list a filter is compiled to what the arranged filter, which is itself valid, is compiled
to without, and there is one arranged filter; its groups have the rules that they had, and
arranging it again changes nothing.  The clause is the one that results if every group is
put in order as it is reached.  A crown that is refused is refused with or without the
list. -/
theorem priority_reorders (v : ValidFilter rules) (options : CompileOptions) :
    (Filter.CrownPasses rules options.crown →
      let f := v.filter.crownedBy options.crown
      ∃ limit, ∃ w : ValidFilter { rules with maxRules := limit }, ∃ clause,
        v.compile options = .ok clause ∧
        w.compile { reserved := options.reserved } = .ok clause ∧
        (∀ g, f.Arranged options.priority g ↔ g = w.filter) ∧
        f.Permuted w.filter ∧
        (∀ g, w.filter.Arranged options.priority g ↔ g = w.filter) ∧
        ∃ condition naming,
          f.lowerInTurn options.priority rules.fields (.start options.reserved) =
            .ok (condition, naming) ∧
          clause = ⟨"WHERE " ++ condition.text, naming.params, f.matchesAll⟩) ∧
    (¬ Filter.CrownPasses rules options.crown → ∃ e,
      v.compile options = .error e ∧ v.compile { options with priority := [] } = .error e) := by
  constructor
  · intro hcrown f
    have hpass := v.rulesPass hcrown
    obtain ⟨limit, w, hw⟩ := exists_of_rulesPass hpass
    obtain ⟨condition, hlowers⟩ := Filter.lower_eq hpass (.start options.reserved)
    refine ⟨limit, w, _, compile_of_lower (crowned_eq_ok hcrown) hlowers.compiled, ?_, ?_, ?_, ?_,
      condition, _, ?_, rfl⟩
    · have hplain : w.crowned { reserved := options.reserved } = .ok w.filter :=
        crowned_eq_ok (Filter.crownPasses_of_none _ rfl)
      have hall : w.filter.matchesAll = f.matchesAll := by
        rw [hw, Filter.matchesAll_prioritize]
      rw [compile_of_lower hplain (c := condition), hall]
      rw [Filter.prioritize_unranked, hw]
      exact hlowers.compiled
    · intro g
      rw [hw]
      exact Filter.arranged_iff
    · rw [hw]
      exact Filter.permuted_prioritize _ f
    · intro g
      rw [hw, Filter.arranged_iff, Filter.prioritize_prioritize]
    · rw [Filter.lowerInTurn_eq]
      exact hlowers.compiled
  · intro hcrown
    rw [crownPasses_iff] at hcrown
    cases hrefused : Filter.checkAll rules options.crownRules with
    | ok u => exact absurd hrefused hcrown
    | error e => exact ⟨e, v.compile_of_refused hrefused, v.compile_of_refused hrefused⟩

end ValidFilter

/-! ### Hosts by name and business -/

/-- The hosts of the second business alone, by a list with a name twice and one that is
unknown. -/
def rankedOptions : CompileOptions := { hostOptions with priority := ["cpu", "name", "name"] }

/-- The filter of hosts and its crown with the rules on names in front. -/
def rankedHosts : Filter :=
  .group .and [
    .group .or [
      .group .and [
        .rule ⟨"name", .oneOf, .list [.text "x", .text "y"]⟩,
        .rule ⟨"labels", .jsonHasPath, .single (.text "env.tier")⟩],
      .rule ⟨"extension.zone", .jsonEqual, .single (.text "a")⟩],
    .group .and [
      .rule ⟨"bk_biz_id", .equal, .single (.integer .i64 (FixedInt.ofInt? .i64 2))⟩]]

theorem hostFilter_ranked :
    Filter.CrownPasses hostRules rankedOptions.crown ∧
    ∃ limit, ∃ w : ValidFilter { hostRules with maxRules := limit }, ∃ clause,
      w.filter = rankedHosts ∧ hostFilter.compile rankedOptions = .ok clause ∧
      w.compile { reserved := ["name"] } = .ok clause := by
  have hcrown : Filter.CrownPasses hostRules rankedOptions.crown := by decide
  obtain ⟨limit, w, clause, hclause, hplain, harranged, -⟩ :=
    (hostFilter.priority_reorders rankedOptions).1 hcrown
  refine ⟨hcrown, limit, w, clause, ?_, hclause, hplain⟩
  refine ((harranged rankedHosts).1 (Filter.arranged_iff.2 ?_)).symm
  simp [rankedHosts, rankedOptions, hostOptions, hostFilter, Filter.crownedBy, Filter.isEmpty,
    Filter.prioritize, Filter.prioritizeAll, Filter.byRank, Filter.rank, Filter.bestRank,
    List.mergeSort, List.findIdx_cons]
  -- The number of the business is left.
  rfl

end ResourceTable
