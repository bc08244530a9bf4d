import Mathlib.Data.Finset.Card
import Mathlib.Data.Finset.Image
import Mathlib.Order.Interval.Finset.Nat
import ResourceTable.Proofs.ClauseBinding

/-!
# The search for a free name

A name is given out for a base: the base itself if it is free, and else the first of its numbered
forms that is.  Nothing bounds the numbers that are tried, but every number that is passed over
has its name in use, and no two numbers have the same name.  So the search ends, after as many
numbers as there are names in use at the most.

## Main definitions

* `Search`, `Gives`, `GivesAll`: the search number by number, a call, and calls one after the
  other.
* `freshNames`: the names that calls give out one after the other.

## Main results

* `gives_iff` — a call ends, with the new name alone put in use.
* `freshName_isLeast` — its number is the least one that is free.
* `freshNames_spec` — names that are given out one after the other differ.
* `Clause.renames_eq`, `ValidFilter.placeholders_supplied` — so are names given up and taken.
* `least_names_given` — **every call ends with the least free name.**
-/

namespace ResourceTable

/-! ### Calls -/

/-- The search for a free name, number by number.  A name that is free is put in use. -/
inductive Search (base : String) : Nat → Finset String → String → Finset String → Prop
  /-- The name of the number is free. -/
  | free {n : Nat} {used : Finset String} (h : numberedName base n ∉ used) :
    Search base n used (numberedName base n) (insert (numberedName base n) used)
  /-- It is in use, and the next number is tried. -/
  | next {n : Nat} {name : String} {used after : Finset String} (h : numberedName base n ∈ used)
    (hrest : Search base (n + 1) used name after) : Search base n used name after

/-- A call: the name that it gives out, and the names in use after it. -/
inductive Gives (base : String) (used : Finset String) : String → Finset String → Prop
  /-- The base is free. -/
  | base (h : base ∉ used) : Gives base used base (insert base used)
  /-- It is in use, and its numbered forms are tried from 2 on. -/
  | numbered {name : String} {after : Finset String} (h : base ∈ used)
    (hsearch : Search base 2 used name after) : Gives base used name after

/-- Calls one after the other. -/
inductive GivesAll : List String → Finset String → List String → Finset String → Prop
  /-- There is no call. -/
  | nil {used : Finset String} : GivesAll [] used [] used
  /-- A call, and those after it. -/
  | cons {base name : String} {bases names : List String} {used between after : Finset String}
    (h : Gives base used name between) (hrest : GivesAll bases between names after) :
    GivesAll (base :: bases) used (name :: names) after

/-- The names that calls give out one after the other, each of them in use from then on. -/
def freshNames (used : List String) : List String → List String
  | [] => []
  | base :: rest => freshName base used :: freshNames (freshName base used :: used) rest

/-! ### The least number -/

variable {base : String} {used : List String}

theorem freshName_of_notMem (h : base ∉ used) : freshName base used = base := by
  rw [freshName, if_neg (by simpa using h)]

/-- The numbers from 2 on whose names are free. -/
def freeNumbers (base : String) (used : List String) : Set Nat :=
  {n | 2 ≤ n ∧ numberedName base n ∉ used}

/-- The number of a new name is the least one that is free. -/
theorem freshName_isLeast (h : base ∈ used) :
    ∃ n, IsLeast (freeNumbers base used) n ∧ freshName base used = numberedName base n := by
  obtain ⟨m, hm, hfree⟩ := exists_numberedName_notMem base used
  unfold freshName
  rw [if_pos (by simpa using h)]
  split
  · next n hn =>
    obtain ⟨hfound, hrange, hbefore⟩ := List.find?_range'_eq_some.1 hn
    refine ⟨n, ⟨⟨(List.mem_range'_1.1 hrange).1, by simpa using hfound⟩, ?_⟩, rfl⟩
    rintro k ⟨hk, hkfree⟩
    by_contra hlt
    have hused := hbefore k hk (Nat.lt_of_not_le hlt)
    simp [hkfree] at hused
  · next hnone =>
    -- The candidates cannot all be in use: there is one more of them than names.
    have hused := List.find?_eq_none.1 hnone m hm
    simp [hfree] at hused

theorem numberedName_ne (base : String) (n : Nat) : numberedName base n ≠ base := by
  intro he
  have hlength := congrArg (fun s => s.toList.length) he
  simp [numberedName] at hlength

/-- As many numbers are tried as there are names in use at the most.  So a number has no more than
31 bits unless billions of names are in use. -/
theorem least_le_card (h : base ∈ used) {n : Nat} (hn : IsLeast (freeNumbers base used) n) :
    n ≤ used.toFinset.card + 1 := by
  -- The base and the names of all numbers below the least free one are different names in use.
  have hpassed : insert base ((Finset.Ico 2 n).image (numberedName base)) ⊆ used.toFinset := by
    intro name hname
    rw [List.mem_toFinset]
    rcases Finset.mem_insert.1 hname with rfl | hname
    · exact h
    · obtain ⟨k, hk, rfl⟩ := Finset.mem_image.1 hname
      obtain ⟨htwo, hlt⟩ := Finset.mem_Ico.1 hk
      by_contra hfree
      exact absurd (hn.2 ⟨htwo, hfree⟩) (Nat.not_le.2 hlt)
  have hnew : base ∉ (Finset.Ico 2 n).image (numberedName base) := by
    intro hmem
    obtain ⟨k, -, hk⟩ := Finset.mem_image.1 hmem
    exact numberedName_ne base k hk
  have hcard := Finset.card_le_card hpassed
  rw [Finset.card_insert_of_notMem hnew,
    Finset.card_image_of_injective _ fun _ _ he => numberedName_injective base he,
    Nat.card_Ico] at hcard
  omega

/-! ### The end of a search -/

/-- What a search that ends has found: all numbers before the last one are passed over. -/
theorem Search.found {n : Nat} {name : String} {used after : Finset String}
    (h : Search base n used name after) :
    ∃ m, n ≤ m ∧ name = numberedName base m ∧ name ∉ used ∧ after = insert name used ∧
      ∀ k, n ≤ k → k < m → numberedName base k ∈ used := by
  induction h with
  | @free n used h => exact ⟨n, le_rfl, rfl, h, rfl, fun k hk hlt => absurd hk (Nat.not_le.2 hlt)⟩
  | @next n name used after h hrest ih =>
    obtain ⟨m, hm, hname, hfree, hafter, hpassed⟩ := ih
    refine ⟨m, Nat.le_of_succ_le hm, hname, hfree, hafter, fun k hk hlt => ?_⟩
    rcases Nat.eq_or_lt_of_le hk with rfl | hk
    · exact h
    · exact hpassed k hk hlt

/-- A search ends with the first free number. -/
theorem search_of_passed {m : Nat} {used : Finset String} (hfree : numberedName base m ∉ used) :
    ∀ {n : Nat}, n ≤ m → (∀ k, n ≤ k → k < m → numberedName base k ∈ used) →
      Search base n used (numberedName base m) (insert (numberedName base m) used) := by
  intro n hn
  induction hn using Nat.decreasingInduction with
  | self => exact fun _ => .free hfree
  | of_succ k hk ih =>
    intro hpassed
    exact .next (hpassed k le_rfl hk) (ih fun j hj => hpassed j (Nat.le_of_succ_le hj))

/-- **A call ends**, with the new name alone put in use. -/
theorem gives_iff {name : String} {after : Finset String} :
    Gives base used.toFinset name after ↔
      name = freshName base used ∧ after = insert name used.toFinset := by
  by_cases hbase : base ∈ used
  · obtain ⟨n, hleast, hname⟩ := freshName_isLeast hbase
    obtain ⟨htwo, hfree⟩ := hleast.1
    constructor
    · rintro (h | ⟨-, hsearch⟩)
      · exact absurd (List.mem_toFinset.2 hbase) h
      · obtain ⟨m, hm, rfl, hmfree, hafter, hpassed⟩ := hsearch.found
        -- The search passes over no number that is free, and stops at no other.
        have hmn : m = n := by
          refine Nat.le_antisymm (Nat.le_of_not_lt fun hlt => ?_) (hleast.2 ⟨hm, ?_⟩)
          · exact hfree (List.mem_toFinset.1 (hpassed n htwo hlt))
          · rwa [List.mem_toFinset] at hmfree
        exact ⟨by rw [hname, hmn], hafter⟩
    · rintro ⟨rfl, rfl⟩
      rw [hname]
      refine .numbered (List.mem_toFinset.2 hbase) (search_of_passed ?_ htwo fun k hk hlt => ?_)
      · rwa [List.mem_toFinset]
      · rw [List.mem_toFinset]
        by_contra hkfree
        exact absurd (hleast.2 ⟨hk, hkfree⟩) (Nat.not_le.2 hlt)
  · rw [freshName_of_notMem hbase]
    constructor
    · rintro (h | ⟨h, -⟩)
      · exact ⟨rfl, rfl⟩
      · exact absurd (List.mem_toFinset.1 h) hbase
    · rintro ⟨rfl, rfl⟩
      exact .base fun h => hbase (List.mem_toFinset.1 h)

/-! ### Calls one after the other -/

/-- **Names that are given out one after the other differ**, and none of them was in use. -/
theorem freshNames_spec (bases : List String) : ∀ used,
    (freshNames used bases).Nodup ∧ ∀ name ∈ freshNames used bases, name ∉ used := by
  induction bases with
  | nil => exact fun _ => ⟨.nil, List.forall_mem_nil _⟩
  | cons base rest ih =>
    intro used
    -- The first name is in use when the others are given out.
    obtain ⟨hnodup, hnew⟩ := ih (freshName base used :: used)
    refine ⟨List.nodup_cons.2 ⟨fun hmem => ?_, hnodup⟩, List.forall_mem_cons.2 ⟨?_, ?_⟩⟩
    · exact hnew _ hmem List.mem_cons_self
    · exact freshName_notMem base used
    · exact fun name hmem hused => hnew name hmem (List.mem_cons_of_mem _ hused)

/-- **Calls end one after the other**, with their names alone put in use. -/
theorem givesAll_iff {bases names : List String} {after : Finset String} :
    GivesAll bases used.toFinset names after ↔
      names = freshNames used bases ∧ after = used.toFinset ∪ names.toFinset := by
  induction bases generalizing used names with
  | nil =>
    constructor
    · rintro ⟨⟩
      exact ⟨rfl, by simp⟩
    · rintro ⟨rfl, rfl⟩
      rw [freshNames, List.toFinset_nil, Finset.union_empty]
      exact .nil
  | cons base rest ih =>
    have hunion (names : List String) (name : String) :
        (name :: used).toFinset ∪ names.toFinset = used.toFinset ∪ (name :: names).toFinset := by
      rw [List.toFinset_cons, List.toFinset_cons, Finset.insert_union, Finset.union_insert]
    constructor
    · rintro (_ | ⟨hgives, hrest⟩)
      obtain ⟨rfl, rfl⟩ := gives_iff.1 hgives
      rw [← List.toFinset_cons] at hrest
      obtain ⟨rfl, rfl⟩ := ih.1 hrest
      exact ⟨rfl, hunion _ _⟩
    · rintro ⟨rfl, rfl⟩
      refine .cons (gives_iff.2 ⟨rfl, rfl⟩) ?_
      rw [← List.toFinset_cons]
      exact ih.2 ⟨rfl, (hunion _ _).symm⟩

theorem freshNames_append (a b : List String) : ∀ used, freshNames used (a ++ b) =
    freshNames used a ++ freshNames ((freshNames used a).reverse ++ used) b := by
  induction a with
  | nil => exact fun _ => rfl
  | cons base rest ih =>
    intro used
    rw [List.cons_append, freshNames, ih, freshNames, List.cons_append, List.reverse_cons,
      List.append_assoc, List.singleton_append]

/-- Names that are given up are given out anew one after the other. -/
theorem Clause.renames_eq (taken : List String) : ∀ names used, renames taken used names =
    (names.filter taken.contains).zip (freshNames used (names.filter taken.contains)) := by
  intro names
  induction names with
  | nil => exact fun _ => rfl
  | cons name rest ih =>
    intro used
    rw [renames]
    by_cases htaken : taken.contains name = true
    · rw [if_pos htaken, List.filter_cons_of_pos htaken, freshNames, List.zip_cons_cons]
      exact congrArg ((name, freshName name used) :: ·) (ih _)
    · rw [if_neg htaken, ih, List.filter_cons_of_neg htaken]

/-! ### The names of a filter -/

/-- The bases for which the rules of a filter take names. -/
def placeholderBases (rs : List Rule) : List String :=
  (rs.filter fun r => !r.op.checksKey).map fun r => placeholderBase r.field

theorem placeholderBases_append (rs ss : List Rule) :
    placeholderBases (rs ++ ss) = placeholderBases rs ++ placeholderBases ss := by
  rw [placeholderBases, List.filter_append, List.map_append]
  rfl

/-- Names are given out for bases, and are in use afterwards. -/
structure Naming.Supplies (n : Naming) (bases names : List String) (n' : Naming) : Prop where
  /-- They are given out one after the other. -/
  names_eq : names = freshNames n.used bases
  /-- They are in use. -/
  used_eq : n'.used = names.reverse ++ n.used

theorem Naming.Supplies.trans {n n' n'' : Naming} {a b names more : List String}
    (ha : n.Supplies a names n') (hb : n'.Supplies b more n'') :
    n.Supplies (a ++ b) (names ++ more) n'' := by
  refine ⟨?_, ?_⟩
  · rw [freshNames_append, ← ha.names_eq, ← ha.used_eq, ← hb.names_eq]
  · rw [hb.used_eq, ha.used_eq, List.reverse_append, List.append_assoc]

namespace Filter

variable {fields : Schema}

/-- The rules of a filter take their names one after the other. -/
theorem supplies_lowered (f : Filter) (n : Naming) :
    n.Supplies (placeholderBases f.rules) ((holesOf (f.lowered fields n).1).map Prod.fst)
      (f.lowered fields n).2 := by
  have hsteps : OfSteps fields fun rs n taken n' =>
      n.Supplies (placeholderBases rs) (taken.map Prod.fst) n' := by
    refine ⟨fun _ => ⟨rfl, rfl⟩, fun r n => ?_, fun ha hb => ?_⟩
    · rw [Rule.holesOf_print, Rule.bindIn, placeholderBases]
      cases hop : r.op.checksKey with
      | true =>
        rw [List.filter_cons_of_neg (by simp [hop]), if_pos rfl, if_pos rfl]
        exact ⟨rfl, rfl⟩
      | false =>
        rw [List.filter_cons_of_pos (by simp [hop]), if_neg Bool.false_ne_true,
          if_neg Bool.false_ne_true]
        exact ⟨rfl, rfl⟩
    · rw [placeholderBases_append, List.map_append]
      exact ha.trans hb
  exact hsteps.lowered f n

end Filter

/-- The placeholders of a clause are given out one after the other for the fields of its
rules. -/
theorem ValidFilter.placeholders_supplied {rules : FilterRules} {options : CompileOptions} {c : Clause}
    (hnames : rules.HasFieldPaths) (v : ValidFilter rules) (h : v.compile options = .ok c) :
    c.query.placeholders =
      freshNames options.reserved (placeholderBases (v.arranged options).rules) := by
  have hcrown := crownPasses_of_compile h
  obtain rfl := Except.ok.inj ((v.compile_eq hcrown).symm.trans h)
  have hplaceholders : (v.compiled options).query.placeholders =
      (holesOf (v.lowered options).1).map Prod.fst :=
    (v.bindable_print hnames hcrown).toNamed.placeholders_eq
  exact hplaceholders.trans (Filter.supplies_lowered (v.arranged options) _).names_eq

/-! ### The least free name -/

/-- **Every call ends with the least free name**: the base if that is free, and else the numbered
form of the least number from 2 on that is free.  It puts this name in use and no other, so that
the names of calls one after the other differ and are none of those that were in use. -/
theorem least_names_given (used : List String) :
    (∀ base name after, Gives base used.toFinset name after ↔
      name = freshName base used ∧ after = insert name used.toFinset) ∧
    (∀ base ∉ used, freshName base used = base) ∧
    (∀ base ∈ used, ∃ n, IsLeast (freeNumbers base used) n ∧
      n ≤ used.toFinset.card + 1 ∧ freshName base used = numberedName base n) ∧
    ∀ bases,
      (∀ names after, GivesAll bases used.toFinset names after ↔
        names = freshNames used bases ∧ after = used.toFinset ∪ names.toFinset) ∧
      (freshNames used bases).Nodup ∧ ∀ name ∈ freshNames used bases, name ∉ used := by
  refine ⟨fun _ _ _ => gives_iff, fun _ => freshName_of_notMem, ?numbered, ?sequence⟩
  case numbered =>
    intro base hbase
    obtain ⟨n, hleast, hname⟩ := freshName_isLeast hbase
    exact ⟨n, hleast, least_le_card hbase hleast, hname⟩
  case sequence =>
    intro bases
    exact ⟨fun _ _ => givesAll_iff, freshNames_spec bases used⟩

/-- Names that are numbered forms of each other. -/
def numberedNames : List String := ["name_2", "name", "name_3", "name_2_2"]

theorem numberedNames_given :
    "id" ∉ numberedNames ∧ freshName "id" numberedNames = "id" ∧ "name" ∈ numberedNames ∧
      (∃ n, IsLeast (freeNumbers "name" numberedNames) n ∧ n ≤ 5 ∧
        freshName "name" numberedNames = numberedName "name" n) ∧
      freshName "name" numberedNames = "name_4" ∧
      Gives "name" numberedNames.toFinset "name_4" (insert "name_4" numberedNames.toFinset) ∧
      freshNames numberedNames ["name", "name_4", "name_2", "id", "name", "id"] =
        ["name_4", "name_4_2", "name_2_3", "id", "name_5", "id_2"] ∧
      ["name_4", "name_4_2", "name_2_3", "id", "name_5", "id_2"].Nodup := by
  obtain ⟨hgives, hbase, hnumbered, hsequence⟩ := least_names_given numberedNames
  have hid : "id" ∉ numberedNames := by decide
  have hname : "name" ∈ numberedNames := by decide
  have hfound : freshName "name" numberedNames = "name_4" := by decide +kernel
  have hnames : freshNames numberedNames ["name", "name_4", "name_2", "id", "name", "id"] =
      ["name_4", "name_4_2", "name_2_3", "id", "name_5", "id_2"] := by decide +kernel
  refine ⟨hid, hbase "id" hid, hname, hnumbered "name" hname, hfound, ?_, hnames, ?_⟩
  · exact (hgives "name" "name_4" _).2 ⟨hfound.symm, rfl⟩
  · exact hnames ▸ (hsequence _).2.1

end ResourceTable
