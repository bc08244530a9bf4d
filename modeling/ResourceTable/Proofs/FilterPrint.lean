import ResourceTable.Proofs.ConditionTree
import ResourceTable.Proofs.PrintBinding
import ResourceTable.Proofs.RulePrint

/-!
# The print of a filter

A filter is printed as its rules are, joined by keywords and put into parentheses.  Its
rules take placeholders one after the other, each with a name of its own.

## Main definitions

* `Filter.print`: the print of a filter, without regard to names.
* `Filter.lowered`: the print with the names that its rules take, and the state of names
  after it.
* `Filter.OfSteps`: what holds of filters as it holds of their rules, one after the other.

## Main results

* `lower_eq` — **a filter whose rules pass the check is compiled to its print.**
* `enclosable_print` — on paths of identifiers the print is legible.
* `bindable_lowered` — **and what it binds is found under the names that it takes.**
-/

namespace ResourceTable

/-- The keyword between the parts of a group. -/
def Connective.ink {α : Type} : Connective → List (Ink α)
  | and => [.blank, .word "AND", .blank]
  | or => [.blank, .word "OR", .blank]

namespace Filter

section Prints

variable {α β : Type}

/-- The condition that always holds. -/
def always : List (Ink α) := [.digits "1", .blank, .mark "=", .blank, .digits "1"]

mutual

/-- The print of a filter, with something for every rule in its hole. -/
def print (hole : Rule → α) : Filter → List (Ink α)
  | .group _ [] => always
  | .group op (f :: rest) => .mark "(" :: (print hole f ++ (printRest hole op rest ++ [.mark ")"]))
  | .rule r => r.print (hole r)
termination_by structural f => f

/-- The print of the parts of a group after the first. -/
def printRest (hole : Rule → α) (op : Connective) : List Filter → List (Ink α)
  | [] => []
  | f :: rest => op.ink ++ (print hole f ++ printRest hole op rest)
termination_by structural l => l

end

end Prints

/-! ### Names -/

variable (fields : Schema)

mutual

/-- The print of a filter with the names that its rules take, and the state of names
after it. -/
def lowered : Filter → Naming → List (Ink (String × Param)) × Naming
  | .group _ [], n => (always, n)
  | .group op (f :: rest), n =>
    let first := lowered f n
    let more := loweredRest op rest first.2
    (.mark "(" :: (first.1 ++ (more.1 ++ [.mark ")"])), more.2)
  | .rule r, n =>
    (r.print (n.next (placeholderBase r.field), r.payload (fields.get? r.field)),
      r.bindIn fields n)
termination_by structural f => f

/-- The same of the parts of a group after the first. -/
def loweredRest (op : Connective) : List Filter → Naming → List (Ink (String × Param)) × Naming
  | [], n => ([], n)
  | f :: rest, n =>
    let first := lowered f n
    let more := loweredRest op rest first.2
    (op.ink ++ (first.1 ++ more.1), more.2)
termination_by structural l => l

end

end Filter

section Lowering

variable {fields : Schema} {α β : Type}

theorem Ink.map_rule (r : Rule) (f : α → β) (a : α) :
    (r.print a).map (Ink.map f) = r.print (f a) := by
  unfold Rule.print
  cases r.op <;> rfl

theorem Connective.map_ink (op : Connective) (f : α → β) :
    (op.ink : List (Ink α)).map (Ink.map f) = op.ink := by
  cases op <;> rfl

namespace Filter

/-- What a filter whose rules pass the check is compiled to: its print with names. -/
structure LowersTo (fields : Schema) (f : Filter) (n : Naming) (c : Condition) : Prop where
  /-- The compiled condition, and the names after it. -/
  compiled : f.lower fields n = .ok (c, (f.lowered fields n).2)
  /-- The text of the condition. -/
  text : c.text.toList = ResourceTable.print (fun b => named b.1) (f.lowered fields n).1

theorem toList_keyword (op : Connective) :
    op.keyword.toList = ResourceTable.print (fun b : String × Param => named b.1) op.ink := by
  cases op <;> decide

/-- The parts of a group are compiled one after the other. -/
theorem lowerAll_eq (op : Connective) : ∀ (fs : List Filter) (n : Naming),
    (∀ f ∈ fs, ∀ n, ∃ c, LowersTo fields f n c) →
      ∃ cs, lowerAll fields fs n = .ok (cs, (loweredRest fields op fs n).2) ∧
        ((Condition.partTexts cs).flatMap fun s => op.keyword.toList ++ s.toList) =
          ResourceTable.print (fun b => named b.1) (loweredRest fields op fs n).1 := by
  intro fs
  induction fs with
  | nil => intro n _; exact ⟨[], rfl, rfl⟩
  | cons f rest ih =>
    intro n h
    obtain ⟨hf, hrest⟩ := List.forall_mem_cons.1 h
    obtain ⟨c, hc⟩ := hf n
    obtain ⟨cs, hcs, htexts⟩ := ih (f.lowered fields n).2 hrest
    refine ⟨c :: cs, ?_, ?_⟩
    · rw [lowerAll, hc.compiled, loweredRest]
      simp only [bind, Except.bind, hcs]
      rfl
    · rw [Condition.partTexts, List.flatMap_cons, htexts, hc.text, loweredRest, print_append,
        print_append, toList_keyword, List.append_assoc]

/-- **A filter whose rules pass the check is compiled to its print.** -/
theorem lower_eq {rules : FilterRules} {f : Filter} (h : f.RulesPass rules) :
    ∀ n, ∃ c, LowersTo rules.fields f n c := by
  induction f using treeInduction with
  | rule r =>
    intro n
    refine ⟨_, Rule.lower_rule (rulesPass_rule.1 h) n, ?_⟩
    rw [Condition.text, String.toList_ofList, lowered,
      ← Ink.map_rule r Prod.fst (n.next (placeholderBase r.field), r.payload _), print_map]
    rfl
  | group op fs ih =>
    intro n
    have hparts := rulesPass_group.1 h
    cases fs with
    | nil => exact ⟨.always, rfl, rfl⟩
    | cons f rest =>
      obtain ⟨c, hc⟩ := ih f List.mem_cons_self (hparts f List.mem_cons_self) n
      obtain ⟨cs, hcs, htexts⟩ := lowerAll_eq op rest (f.lowered rules.fields n).2 fun g hg =>
        ih g (List.mem_cons_of_mem f hg) (hparts g (List.mem_cons_of_mem f hg))
      refine ⟨.group op (c :: cs), ?_, ?_⟩
      · rw [lower, hc.compiled, lowered]
        simp only [bind, Except.bind, hcs]
        rfl
      · rw [Condition.text, Condition.partTexts, String.toList_append, String.toList_append,
          Condition.toList_intercalate, htexts, hc.text, lowered, print_cons, print_append,
          print_append]
        simp [Ink.chars, ResourceTable.print]

/-! ### The print without names -/

mutual

/-- What is in the holes does not depend on the names. -/
theorem map_lowered : ∀ (f : Filter) (n : Naming),
    (f.lowered fields n).1.map (Ink.map Prod.snd) =
      f.print fun r => r.payload (fields.get? r.field)
  | .rule r, n => Ink.map_rule r Prod.snd _
  | .group op [], n => rfl
  | .group op (f :: rest), n => by
    rw [lowered, print, List.map_cons, List.map_append, List.map_append, map_lowered f n,
      map_loweredRest op rest _]
    rfl
termination_by structural f => f

theorem map_loweredRest (op : Connective) : ∀ (l : List Filter) (n : Naming),
    (loweredRest fields op l n).1.map (Ink.map Prod.snd) =
      printRest (fun r => r.payload (fields.get? r.field)) op l
  | [], n => rfl
  | f :: rest, n => by
    rw [loweredRest, printRest, List.map_append, List.map_append, Connective.map_ink,
      map_lowered f n, map_loweredRest op rest _]
termination_by structural l => l

end

/-! ### Legibility -/

theorem legible_always : Legible (always : List (Ink α)) := by
  refine ⟨?_, by simp [always, Ink.joins]⟩
  simp [always, Ink.IsSound, Ink.printedMarks]
  decide

theorem legible_ink (op : Connective) : Legible (op.ink : List (Ink α)) := by
  cases op <;> refine ⟨?_, by simp [Connective.ink, Ink.joins]⟩ <;>
    simp [Connective.ink, Ink.IsSound] <;> decide

/-- A legible print that a statement can go on with. -/
structure Enclosable (is : List (Ink α)) : Prop where
  /-- The print is legible. -/
  legible : Legible is
  /-- A statement can go on after it. -/
  closes : Closes is

/-- Parts joined by a keyword. -/
theorem Enclosable.join {a b : List (Ink α)} (ha : Enclosable a) (hb : Enclosable b)
    (op : Connective) : Enclosable (a ++ (op.ink ++ b)) := by
  have hink : (op.ink : List (Ink α)) ≠ [] := by cases op <;> exact List.cons_ne_nil _ _
  refine ⟨ha.legible.append ((legible_ink op).append hb.legible ?_) ?_, ?_, ?_⟩
  · intro i hi j _
    have hblank : i = .blank := by cases op <;> exact (Option.some.inj hi).symm
    rw [hblank]
    exact Ink.blank_joins j
  · intro i _ j hj
    rw [List.head?_append_of_ne_nil _ hink] at hj
    have hblank : j = .blank := by cases op <;> exact (Option.some.inj hj).symm
    rw [hblank]
    exact Ink.joins_blank i
  · exact fun hn => ha.closes.nonempty (List.append_eq_nil_iff.1 hn).1
  · intro i hi
    rw [← List.append_assoc, List.getLast?_append_of_ne_nil _ hb.closes.nonempty] at hi
    exact hb.closes.last i hi

theorem Enclosable.parenthesized {a : List (Ink α)} (h : Enclosable a) :
    Enclosable (.mark "(" :: (a ++ [.mark ")"])) := by
  have hopen : (Ink.mark "(" : Ink α).IsSound := by show "(" ∈ Ink.printedMarks; decide
  have hclose : (Ink.mark ")" : Ink α).IsSound := by show ")" ∈ Ink.printedMarks; decide
  have hinner : Legible (a ++ [.mark ")"]) := by
    refine h.legible.append (legible_cons hclose .nil (by simp)) fun i hi j hj => ?_
    rw [← Option.some.inj hj]
    exact h.closes.last i hi
  refine ⟨legible_cons hopen hinner fun j _ => ?_, List.cons_ne_nil _ _, ?_⟩
  · cases j <;> rfl
  · intro i hi
    rw [← List.cons_append, List.getLast?_append_of_ne_nil _ (List.cons_ne_nil _ _)] at hi
    rw [← Option.some.inj hi]
    rfl

theorem Enclosable.joinAll {hole : Rule → α} (op : Connective) : ∀ {fs : List Filter}
    {a : List (Ink α)}, Enclosable a → (∀ f ∈ fs, Enclosable (f.print hole)) →
      Enclosable (a ++ printRest hole op fs) := by
  intro fs
  induction fs with
  | nil =>
    intro a ha _
    rw [printRest, List.append_nil]
    exact ha
  | cons f rest ih =>
    intro a ha h
    obtain ⟨hf, hrest⟩ := List.forall_mem_cons.1 h
    rw [printRest]
    exact ha.join (ih hf hrest) op

/-- The field of a rule that passes the check is a path of identifiers, if all are. -/
theorem isFieldPath_of_check {rules : FilterRules} (hnames : rules.HasFieldPaths) {r : Rule}
    (h : r.check rules = .ok ()) : IsFieldPath r.field.toList := by
  obtain ⟨type, hpassed⟩ := Rule.passed_of_check h
  refine hnames r.field (NameMap.mem_keys_iff.2 ?_)
  rw [hpassed.known]
  rfl

/-- On paths of identifiers the print of a filter is legible. -/
theorem enclosable_print {rules : FilterRules} (hnames : rules.HasFieldPaths) (hole : Rule → α)
    {f : Filter} (h : f.RulesPass rules) : Enclosable (f.print hole) := by
  induction f using treeInduction with
  | rule r =>
    have hrule := rulesPass_rule.1 h
    obtain ⟨type, hpassed⟩ := Rule.passed_of_check hrule
    exact ⟨hpassed.legible_print (isFieldPath_of_check hnames hrule) _, r.closes_print _⟩
  | group op fs ih =>
    have hparts := rulesPass_group.1 h
    cases fs with
    | nil => exact ⟨legible_always, List.cons_ne_nil _ _, by simp [print, always, Ink.joins]⟩
    | cons f rest =>
      have hf := ih f List.mem_cons_self (hparts f List.mem_cons_self)
      have hall := hf.joinAll op fun g hg =>
        ih g (List.mem_cons_of_mem f hg) (hparts g (List.mem_cons_of_mem f hg))
      rw [print, ← List.append_assoc]
      exact hall.parenthesized

/-! ### What is bound -/

/-- A step of names: what is bound after it is what was bound before it and the names
taken, which were not in use. -/
structure Takes (n : Naming) (taken : List (String × Param)) (n' : Naming) : Prop where
  /-- The names taken are in use, and so are those before. -/
  used : ∀ name, name ∈ n'.used ↔ name ∈ n.used ∨ name ∈ taken.map Prod.fst
  /-- They were not in use. -/
  fresh : ∀ b ∈ taken, b.1 ∉ n.used
  /-- They are bound. -/
  bound : ∀ b ∈ taken, n'.params.get? b.1 = some b.2
  /-- What was bound stays bound. -/
  kept : ∀ name, name ∈ n.used → n'.params.get? name = n.params.get? name
  /-- The names taken are different. -/
  distinct : (taken.map Prod.fst).Nodup
  /-- Nothing else is bound. -/
  keys : ∀ name, name ∈ n'.params.keys ↔ name ∈ n.params.keys ∨ name ∈ taken.map Prod.fst

theorem Takes.refl (n : Naming) : Takes n [] n :=
  ⟨by simp, by simp, by simp, fun _ _ => rfl, List.nodup_nil, by simp⟩

theorem Takes.trans {n n' n'' : Naming} {a b : List (String × Param)} (ha : Takes n a n')
    (hb : Takes n' b n'') : Takes n (a ++ b) n'' := by
  have hapart : ∀ name ∈ a.map Prod.fst, ∀ name' ∈ b.map Prod.fst, name ≠ name' := by
    rintro name hname name' hname' rfl
    obtain ⟨p, hp, rfl⟩ := List.mem_map.1 hname'
    exact hb.fresh p hp ((ha.used p.1).2 (.inr hname))
  refine ⟨fun name => ?_, fun p hp => ?_, fun p hp => ?_, fun name hname => ?_, ?_,
    fun name => ?_⟩
  · rw [hb.used, ha.used, List.map_append, List.mem_append, or_assoc]
  · rcases List.mem_append.1 hp with hp | hp
    · exact ha.fresh p hp
    · exact fun hused => hb.fresh p hp ((ha.used p.1).2 (.inl hused))
  · rcases List.mem_append.1 hp with hp | hp
    · have hused := (ha.used p.1).2 (.inr (List.mem_map.2 ⟨p, hp, rfl⟩))
      rw [hb.kept p.1 hused, ha.bound p hp]
    · exact hb.bound p hp
  · rw [hb.kept name ((ha.used name).2 (.inl hname)), ha.kept name hname]
  · rw [List.map_append]
    exact List.nodup_append.2 ⟨ha.distinct, hb.distinct, hapart⟩
  · rw [hb.keys, ha.keys, List.map_append, List.mem_append, or_assoc]

theorem takes_bind (n : Naming) (base : String) (p : Param) :
    Takes n [(n.next base, p)] (n.bind (n.next base) p) := by
  have hfresh : n.next base ∉ n.used := freshName_notMem base n.used
  refine ⟨fun name => ?_, fun b hb => ?_, fun b hb => ?_, fun name hname => ?_,
    List.nodup_singleton _, fun name => ?_⟩
  · simp [Naming.bind, or_comm]
  · rw [List.mem_singleton.1 hb]
    exact hfresh
  · rw [List.mem_singleton.1 hb]
    exact NameMap.get?_insert_self _ _ _
  · have hne : n.next base ≠ name := fun he => hfresh (he ▸ hname)
    exact (NameMap.get?_insert _ _ _ _).trans (if_neg hne)
  · have hget : (n.bind (n.next base) p).params.get? name =
        if n.next base = name then some p else n.params.get? name := NameMap.get?_insert _ _ _ _
    rw [NameMap.mem_keys_iff, NameMap.mem_keys_iff, hget, List.map_singleton, List.mem_singleton]
    by_cases hname : n.next base = name
    · rw [if_pos hname]
      exact iff_of_true rfl (.inr hname.symm)
    · rw [if_neg hname, or_iff_left (Ne.symm hname)]

theorem takes_rule (r : Rule) (n : Naming) (p : Param) (hp : p = r.payload (fields.get? r.field)) :
    Takes n (holesOf (r.print (n.next (placeholderBase r.field), p))) (r.bindIn fields n) := by
  rw [Rule.holesOf_print, Rule.bindIn, hp]
  split
  · exact .refl n
  · exact takes_bind n _ _

/-- The holes of a group are those of its parts. -/
theorem holesOf_lowered_group (op : Connective) (f : Filter) (rest : List Filter) (n : Naming) :
    holesOf ((Filter.group op (f :: rest)).lowered fields n).1 =
      holesOf (f.lowered fields n).1 ++
        holesOf (loweredRest fields op rest (f.lowered fields n).2).1 := by
  have hclose : holesOf ([.mark ")"] : List (Ink (String × Param))) = [] := rfl
  rw [lowered, holesOf, List.filterMap_cons_none rfl, ← holesOf, holesOf_append, holesOf_append,
    hclose, List.append_nil]

theorem holesOf_loweredRest_cons (op : Connective) (f : Filter) (rest : List Filter)
    (n : Naming) :
    holesOf (loweredRest fields op (f :: rest) n).1 =
      holesOf (f.lowered fields n).1 ++
        holesOf (loweredRest fields op rest (f.lowered fields n).2).1 := by
  have hink : holesOf (op.ink : List (Ink (String × Param))) = [] := by cases op <;> rfl
  rw [loweredRest, holesOf_append, holesOf_append, hink, List.nil_append]

/-- A property of the steps of names that rules take: it holds if there are no rules, it holds of
a rule, and it holds of steps one after the other. -/
structure OfSteps (fields : Schema)
    (P : List Rule → Naming → List (String × Param) → Naming → Prop) : Prop where
  /-- Without rules there is no step. -/
  none : ∀ n, P [] n [] n
  /-- The step of a rule. -/
  rule : ∀ r n, P [r] n
    (holesOf (r.print (n.next (placeholderBase r.field), r.payload (fields.get? r.field))))
    (r.bindIn fields n)
  /-- Steps one after the other. -/
  append : ∀ {rs ss n m n' a b}, P rs n a m → P ss m b n' → P (rs ++ ss) n (a ++ b) n'

mutual

/-- What holds of the steps of rules holds of the steps of a filter. -/
theorem OfSteps.lowered {P : List Rule → Naming → List (String × Param) → Naming → Prop}
    (h : OfSteps fields P) : ∀ (f : Filter) (n : Naming),
      P f.rules n (holesOf (f.lowered fields n).1) (f.lowered fields n).2
  | .rule r, n => h.rule r n
  | .group op [], n => h.none n
  | .group op (f :: rest), n => by
    rw [holesOf_lowered_group]
    exact h.append (h.lowered f n) (h.loweredRest op rest _)
termination_by structural f => f

theorem OfSteps.loweredRest {P : List Rule → Naming → List (String × Param) → Naming → Prop}
    (h : OfSteps fields P) (op : Connective) : ∀ (l : List Filter) (n : Naming),
      P (rulesAll l) n (holesOf (Filter.loweredRest fields op l n).1)
        (Filter.loweredRest fields op l n).2
  | [], n => h.none n
  | f :: rest, n => by
    rw [holesOf_loweredRest_cons]
    exact h.append (h.lowered f n) (h.loweredRest op rest _)
termination_by structural l => l

end

/-- The rules of a filter take names of their own. -/
theorem takes_lowered (f : Filter) (n : Naming) :
    Takes n (holesOf (f.lowered fields n).1) (f.lowered fields n).2 := by
  have hsteps : OfSteps fields fun _ => Takes :=
    { none := .refl, rule := fun r n => takes_rule r n _ rfl, append := .trans }
  exact hsteps.lowered f n

/-- Every hole of a filter is that of one of its rules. -/
theorem mem_holesOf_lowered {b : String × Param} (f : Filter) (n : Naming)
    (h : b ∈ holesOf (f.lowered fields n).1) : ∃ r ∈ f.rules, ∃ m : Naming,
      r.op.checksKey = false ∧
        b = (m.next (placeholderBase r.field), r.payload (fields.get? r.field)) := by
  have hsteps : OfSteps fields fun rs _ taken _ => b ∈ taken → ∃ r ∈ rs, ∃ m : Naming,
      r.op.checksKey = false ∧
        b = (m.next (placeholderBase r.field), r.payload (fields.get? r.field)) := by
    refine ⟨fun _ h => absurd h List.not_mem_nil, fun r n h => ?_, fun ha hb h => ?_⟩
    · rw [Rule.holesOf_print] at h
      split at h
      · cases h
      · next hop =>
        exact ⟨r, List.mem_singleton.2 rfl, n, Bool.eq_false_iff.2 hop, List.mem_singleton.1 h⟩
    · rcases List.mem_append.1 h with h | h
      · obtain ⟨r, hr, hm⟩ := ha h
        exact ⟨r, List.mem_append_left _ hr, hm⟩
      · obtain ⟨r, hr, hm⟩ := hb h
        exact ⟨r, List.mem_append_right _ hr, hm⟩
  exact hsteps.lowered f n h

/-- **What a filter binds is found under the names that its rules take.** -/
theorem bindable_lowered {rules : FilterRules} (hnames : rules.HasFieldPaths) {f : Filter}
    (h : f.RulesPass rules) (n : Naming) :
    Bindable (f.lowered rules.fields n).2.params (f.lowered rules.fields n).1 := by
  have htakes : Takes n (holesOf (f.lowered rules.fields n).1) (f.lowered rules.fields n).2 :=
    takes_lowered f n
  have hprint := enclosable_print hnames (fun r => r.payload (rules.fields.get? r.field)) h
  have hlegible := hprint.legible
  rw [← map_lowered f n] at hlegible
  -- every hole is one of a rule that passes the check
  have hhole : ∀ b ∈ holesOf (f.lowered rules.fields n).1,
      isBareName b.1.toList = true ∧ b.2.values ≠ [] ∧ ∀ v ∈ b.2.values, v.isBasic = true := by
    intro b hb
    obtain ⟨r, hr, m, hop, rfl⟩ := mem_holesOf_lowered f n hb
    have hcheck := h r hr
    obtain ⟨type, hpassed⟩ := Rule.passed_of_check hcheck
    have hbase := isFieldPath_of_check hnames hcheck
    have hvalues := hpassed.payload_values hop
    rw [hpassed.known]
    refine ⟨?_, hvalues⟩
    obtain ⟨c, rest, hfield, hc⟩ := hbase.exists_cons
    exact isBareName_freshName (isBareName_placeholderBase hfield hc) _
  refine ⟨⟨legible_map_iff.1 hlegible, fun b hb => (hhole b hb).1, htakes.bound, fun b hb =>
    (hhole b hb).2.1⟩, fun b hb v hv => Value.toCell_of_isBasic ((hhole b hb).2.2 v hv)⟩

end Filter

end Lowering

end ResourceTable
