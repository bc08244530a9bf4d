import ResourceTable.Proofs.CrownedStatement
import ResourceTable.Proofs.TimeFilter

/-!
# What a clause binds

A clause has a test for every rule of the filter, in order.  The test of a rule that binds
something has a placeholder of its own, and what is bound to it is made of the operand of
that rule alone: a text that is compared with a time becomes the timestamp of the same
instant, a text that is searched for becomes a pattern, and anything else stays as it is.

## Main definitions

* `Value.BoundFor`: how a value is bound that is compared with a field.
* `Rule.Binds`: what a rule binds.
* `Rule.Emitted`: the test that is emitted for a rule.
* `Condition.tests`: the tests of a condition, in order.

## Main results

* `Rule.Passed.binds_payload` — a rule that passes the check binds its operand.
* `emitted_lower` — every rule has its test, and the tests have the placeholders.
* `placeholders_correspond` — **placeholders and parameters correspond one to one.**
-/

namespace ResourceTable

open Sql

/-! ### What a rule binds -/

/-- How a value is bound that is compared with a field of the type. -/
inductive Value.BoundFor (type : ColumnType) : Value → Value → Prop
  /-- A text that is compared with a time is bound as the timestamp of its instant. -/
  | moment {s : String} {z : ZonedDateTime} {t : Timestamp} (htime : type = .time)
    (hread : readInternet s.toList = some z) (hsame : t.instant = z.instant) :
    BoundFor type (.text s) (.timestamp (some t))
  /-- Any other value is bound as it is. -/
  | same {v : Value} (h : type = .time → ∀ s, v ≠ .text s) : BoundFor type v v

/-- What a rule binds for a field of the type. -/
inductive Rule.Binds (type : ColumnType) : Rule → Param → Prop
  /-- A comparison binds its value. -/
  | compared {field : String} {op : Operator} {v w : Value} (hop : op.comparison?.isSome = true)
    (h : v.BoundFor type w) : Binds type ⟨field, op, .single v⟩ (.single w)
  /-- A test of membership binds its values. -/
  | listed {field : String} {op : Operator} {vs ws : List Value}
    (hop : op = .oneOf ∨ op = .noneOf) (h : List.Forall₂ (Value.BoundFor type) vs ws) :
    Binds type ⟨field, op, .list vs⟩ (.list ws)
  /-- A search binds a pattern that its text is part of. -/
  | contains {field s : String} : Binds type ⟨field, .contains, .single (.text s)⟩
      (.single (.text (String.ofList ('*' :: (globEscape s.toList ++ ['*'])))))
  /-- A search that ignores the case binds a pattern of its text in lower case. -/
  | containsAnyCase {field s : String} : Binds type ⟨field, .containsAnyCase, .single (.text s)⟩
      (.single (.text (String.ofList ('%' :: (lowercase s.toList ++ ['%'])))))
  /-- A test of a part of a document binds its value as it is. -/
  | part {field : String} {op : Operator} {v : Value} (hop : op.isJson = true) :
    Binds type ⟨field, op, .single v⟩ (.single v)
  /-- So it does with its values. -/
  | parts {field : String} {op : Operator} {vs : List Value} (hop : op.isJson = true) :
    Binds type ⟨field, op, .list vs⟩ (.list vs)

/-- A value that suits the field is bound for it. -/
theorem Value.boundFor_moment {type : ColumnType} {v : Value} (h : v.suits type = true) :
    v.BoundFor type (v.moment (some type)) := by
  by_cases htext : type = .time ∧ ∃ s, v = .text s
  · obtain ⟨rfl, s, rfl⟩ := htext
    obtain ⟨z, hz⟩ := exists_bindsTime h
    have hmoment : (text s).moment (some .time) = .timestamp (some z.toTimestamp) := by
      unfold moment bound text
      simp only [hz.denotes]
      rfl
    rw [hmoment]
    exact .moment rfl hz.denotes hz.instant
  · have hmoment : v.moment (some type) = v := by
      unfold moment bound
      split
      · next s htype =>
        obtain rfl := Option.some.inj htype
        exact absurd ⟨rfl, s, rfl⟩ htext
      · rfl
    rw [hmoment]
    exact .same fun htime s hs => htext ⟨htime, s, hs⟩

/-- A rule that passes the check binds its operand. -/
theorem Rule.Passed.binds_payload {rules : FilterRules} {r : Rule} {type : ColumnType}
    (h : Passed rules r type) (hop : r.op.checksKey = false) :
    r.Binds type (r.payload (some type)) := by
  rcases r with ⟨field, op, operand⟩
  cases op with
  | equal | notEqual | greater | idGreater | greaterOrEqual | less | lessOrEqual =>
    obtain ⟨v, hv⟩ := h.single rfl
    obtain rfl : operand = .single v := hv.operand
    exact .compared rfl (Value.boundFor_moment (hv.suits rfl))
  | oneOf | noneOf =>
    obtain ⟨vs, hvs⟩ := h.list rfl
    obtain rfl : operand = .list vs := hvs.operand
    have hall : List.Forall₂ (Value.BoundFor type) vs (vs.map (Value.moment (some type))) :=
      List.forall₂_map_right_iff.2 (List.forall₂_same.2 fun v hv =>
        Value.boundFor_moment (hvs.suits v hv))
    exact .listed (by decide) hall
  | contains =>
    obtain ⟨s, hs⟩ := h.pattern rfl rfl
    obtain rfl : operand = .single (.string (some s)) := hs
    exact .contains
  | containsAnyCase =>
    obtain ⟨s, hs⟩ := h.pattern rfl rfl
    obtain rfl : operand = .single (.string (some s)) := hs
    exact .containsAnyCase
  | jsonEqual | jsonNotEqual | jsonContains | jsonLength =>
    obtain ⟨v, hv⟩ := h.single rfl
    obtain rfl : operand = .single v := hv.operand
    exact .part rfl
  | jsonOneOf | jsonOverlaps =>
    obtain ⟨vs, hvs⟩ := h.list rfl
    obtain rfl : operand = .list vs := hvs.operand
    exact .parts rfl
  | jsonHasPath | jsonLacksPath => cases hop

/-! ### The tests of a condition -/

namespace Condition

mutual

/-- The tests of a condition, from left to right. -/
def tests : Condition → List String
  | .always => []
  | .group _ parts => testsAll parts
  | .test sql => [sql]
termination_by structural c => c

/-- The tests of conditions. -/
def testsAll : List Condition → List String
  | [] => []
  | c :: rest => tests c ++ testsAll rest
termination_by structural l => l

end

end Condition

/-- The test that is emitted for a rule. -/
inductive Rule.Emitted (fields : Schema) (params : Params) : Rule → String → Prop
  /-- A rule on key paths has no placeholder. -/
  | key {r : Rule} {test : String} (hop : r.op.checksKey = true) (htest : r.keyTest = .ok test)
    (hnone : Placeholder.names test = []) : Emitted fields params r test
  /-- Any other one has one placeholder, to which its operand is bound. -/
  | value {r : Rule} {test name : String} {type : ColumnType} {p : Param}
    (hop : r.op.checksKey = false) (hfield : fields.get? r.field = some type)
    (htest : r.test (some type) name = .ok (test, p)) (hname : Placeholder.names test = [name])
    (hbound : params.get? name = some p) (hbinds : r.Binds type p) :
    Emitted fields params r test

/-! ### Emitting tests -/

section Emitting

variable {rules : FilterRules} {params : Params}

/-- The placeholders of a test that is printed are its holes. -/
theorem Rule.names_test (hnames : rules.HasFieldPaths) {r : Rule} (h : r.check rules = .ok ())
    (n : Naming) :
    Placeholder.names (String.ofList
        (ResourceTable.print named (r.print (n.next (placeholderBase r.field))))) =
      if r.op.checksKey then [] else [n.next (placeholderBase r.field)] := by
  obtain ⟨type, hpassed⟩ := passed_of_check h
  have hfield := Filter.isFieldPath_of_check hnames h
  obtain ⟨c, rest, hcons, hc⟩ := hfield.exists_cons
  have hbare := isBareName_freshName (isBareName_placeholderBase hcons hc) n.used
  rw [names_print (hpassed.legible_print hfield _), holesOf_print]
  intro name hname
  rw [← mem_holesOf, holesOf_print] at hname
  split at hname
  · cases hname
  · rw [List.mem_singleton.1 hname]
    exact hbare

/-- A rule has its test, and the test has its placeholder. -/
theorem Rule.emitted_lower (hnames : rules.HasFieldPaths) {r : Rule}
    (h : r.check rules = .ok ()) {n n' : Naming} {c : Condition}
    (hlower : r.lower rules.fields n = .ok (c, n'))
    (hbound : ∀ b ∈ holesOf ((Filter.rule r).lowered rules.fields n).1,
      params.get? b.1 = some b.2) :
    ∃ test, c = .test test ∧ r.Emitted rules.fields params test ∧
      Placeholder.names test =
        (holesOf ((Filter.rule r).lowered rules.fields n).1).map Prod.fst := by
  obtain ⟨type, hpassed⟩ := passed_of_check h
  have htext := names_test hnames h n
  rw [lower_rule h n] at hlower
  simp only [Except.ok.injEq, Prod.mk.injEq] at hlower
  obtain ⟨rfl, -⟩ := hlower
  rw [Filter.lowered, holesOf_print, hpassed.known] at hbound ⊢
  refine ⟨_, rfl, ?_⟩
  cases hop : r.op.checksKey with
  | true =>
    rw [hop, if_pos rfl] at htext
    exact ⟨.key hop (hpassed.keyTest_eq hop _) htext, htext⟩
  | false =>
    rw [hop, if_neg Bool.false_ne_true] at htext hbound
    exact ⟨.value hop hpassed.known (hpassed.test_eq hop _) htext
      (hbound _ (List.mem_singleton.2 rfl)) (hpassed.binds_payload hop), htext⟩

/-- What is emitted for some rules: a test for each of them, and the placeholders of the
tests are the names in the holes. -/
structure EmitsAll (fields : Schema) (params : Params) (rs : List Rule) (tests : List String)
    (holes : List (String × Param)) : Prop where
  /-- Every rule has its test. -/
  emitted : List.Forall₂ (Rule.Emitted fields params) rs tests
  /-- The tests have the placeholders. -/
  names : tests.flatMap Placeholder.names = holes.map Prod.fst

theorem EmitsAll.append {fields : Schema} {rs rs' : List Rule} {tests tests' : List String}
    {holes holes' : List (String × Param)} (h : EmitsAll fields params rs tests holes)
    (h' : EmitsAll fields params rs' tests' holes') :
    EmitsAll fields params (rs ++ rs') (tests ++ tests') (holes ++ holes') := by
  refine ⟨List.rel_append h.emitted h'.emitted, ?_⟩
  rw [List.flatMap_append, h.names, h'.names, List.map_append]

namespace Filter

/-- The names after a filter that is compiled are those after its print. -/
theorem eq_lowered_of_lower {f : Filter} (h : f.RulesPass rules) {n n' : Naming} {c : Condition}
    (hlower : f.lower rules.fields n = .ok (c, n')) : n' = (f.lowered rules.fields n).2 := by
  obtain ⟨d, hd⟩ := lower_eq h n
  rw [hd.compiled] at hlower
  exact (congrArg Prod.snd (Except.ok.inj hlower)).symm

/-- What is emitted for filters, one after the other. -/
theorem emitsAll_lowerAll (op : Connective) : ∀ {fs : List Filter} {n n' : Naming}
    {cs : List Condition}, (∀ f ∈ fs, f.RulesPass rules) →
      (∀ f ∈ fs, ∀ {n n' : Naming} {c : Condition}, f.lower rules.fields n = .ok (c, n') →
        (∀ b ∈ holesOf (f.lowered rules.fields n).1, params.get? b.1 = some b.2) →
          EmitsAll rules.fields params f.rules c.tests (holesOf (f.lowered rules.fields n).1)) →
      lowerAll rules.fields fs n = .ok (cs, n') →
      (∀ b ∈ holesOf (loweredRest rules.fields op fs n).1, params.get? b.1 = some b.2) →
        EmitsAll rules.fields params (rulesAll fs) (Condition.testsAll cs)
          (holesOf (loweredRest rules.fields op fs n).1) := by
  intro fs
  induction fs with
  | nil =>
    intro n n' cs _ _ hlower _
    cases hlower
    exact ⟨.nil, rfl⟩
  | cons f rest ih =>
    intro n n' cs hpass hall hlower hbound
    obtain ⟨hpassf, hpassrest⟩ := List.forall_mem_cons.1 hpass
    obtain ⟨hallf, hallrest⟩ := List.forall_mem_cons.1 hall
    obtain ⟨c, m, ds, hc, hds, rfl⟩ := lowerAll_cons_ok hlower
    obtain rfl := eq_lowered_of_lower hpassf hc
    rw [holesOf_loweredRest_cons] at hbound ⊢
    obtain ⟨hboundf, hboundrest⟩ := List.forall_mem_append.1 hbound
    exact (hallf hc hboundf).append (ih hpassrest hallrest hds hboundrest)

/-- **Every rule of a filter has its test, and the tests have the placeholders.** -/
theorem emitsAll_lower (hnames : rules.HasFieldPaths) {f : Filter} : f.RulesPass rules →
    ∀ {n n' : Naming} {c : Condition}, f.lower rules.fields n = .ok (c, n') →
      (∀ b ∈ holesOf (f.lowered rules.fields n).1, params.get? b.1 = some b.2) →
        EmitsAll rules.fields params f.rules c.tests (holesOf (f.lowered rules.fields n).1) := by
  induction f using treeInduction with
  | rule r =>
    intro hpass n n' c hlower hbound
    obtain ⟨test, rfl, hemitted, hholes⟩ :=
      Rule.emitted_lower hnames (rulesPass_rule.1 hpass) hlower hbound
    exact ⟨.cons hemitted .nil, (List.append_nil _).trans hholes⟩
  | group op fs ih =>
    intro hpass n n' c hlower hbound
    have hparts := rulesPass_group.1 hpass
    cases fs with
    | nil =>
      cases hlower
      exact ⟨.nil, rfl⟩
    | cons f rest =>
      obtain ⟨hpassf, hpassrest⟩ := List.forall_mem_cons.1 hparts
      obtain ⟨ihf, ihrest⟩ := List.forall_mem_cons.1 ih
      obtain ⟨d, m, ds, hd, hds, rfl⟩ := lower_group_ok hlower
      obtain rfl := eq_lowered_of_lower hpassf hd
      rw [holesOf_lowered_group] at hbound ⊢
      obtain ⟨hboundf, hboundrest⟩ := List.forall_mem_append.1 hbound
      exact (ihf hpassf hd hboundf).append
        (emitsAll_lowerAll op hpassrest (fun g hg _ _ _ => ihrest g hg (hpassrest g hg)) hds
          hboundrest)

end Filter

end Emitting

namespace ValidFilter

variable {rules : FilterRules} {options : CompileOptions} {c : Clause}

/-- **Placeholders and parameters correspond one to one.**  The placeholders of a clause
are different, none of them is reserved, and they are what parameters are bound to.  The
clause has a test for every rule of the crowned filter, in order; the placeholders are
those of the tests, and what is bound to that of a rule is made of its operand alone. -/
theorem placeholders_correspond (hnames : rules.HasFieldPaths) (v : ValidFilter rules)
    (h : v.compile options = .ok c) :
    c.query.placeholders.Nodup ∧
      (∀ name ∈ c.query.placeholders, name ∉ options.reserved) ∧
      (∀ name, name ∈ c.query.placeholders ↔ name ∈ c.params.keys) ∧
      ∃ condition : Condition, c.sql = "WHERE " ++ condition.text ∧
        Mirrors (v.arranged options) condition ∧
        List.Forall₂ (Rule.Emitted rules.fields c.params) (v.arranged options).rules
          condition.tests ∧
        c.query.placeholders = condition.tests.flatMap Placeholder.names := by
  have hcrown := crownPasses_of_compile h
  obtain rfl := Except.ok.inj ((v.compile_eq hcrown).symm.trans h)
  have hnamed := (v.bindable_print hnames hcrown).toNamed
  have hplaceholders : (v.compiled options).query.placeholders =
      (holesOf (v.lowered options).1).map Prod.fst := hnamed.placeholders_eq
  have htakes : Filter.Takes (.start options.reserved) (holesOf (v.lowered options).1)
      (v.lowered options).2 := Filter.takes_lowered _ _
  rw [hplaceholders]
  refine ⟨htakes.distinct, fun name hname => ?_, fun name => ?_, ?_⟩
  · obtain ⟨b, hb, rfl⟩ := List.mem_map.1 hname
    exact htakes.fresh b hb
  · refine ((htakes.keys name).trans (or_iff_right ?_)).symm
    exact List.not_mem_nil
  · obtain ⟨condition, hlowered⟩ :=
      Filter.lower_eq (v.rulesPass hcrown) (.start options.reserved)
    have hemits := Filter.emitsAll_lower hnames (v.rulesPass hcrown) hlowered.compiled htakes.bound
    exact ⟨condition, v.compiled_sql hlowered, mirrors_lower hlowered.compiled, hemits.emitted,
      hemits.names.symm⟩

end ValidFilter

/-! ### Fields whose names clash -/

/-- Fields of which some are named like others with a number or another mark. -/
def clashingRules : FilterRules where
  fields := .ofList [("a.b", .string), ("a_b", .string), ("created_at", .time),
    ("name", .string), ("name_2", .string)]

/-- Rules whose placeholders have the same base, or one that is the number of another. -/
def clashingFilter : ValidFilter clashingRules where
  filter := .group .or [
    .rule ⟨"a.b", .jsonEqual, .single (.text "x")⟩,
    .rule ⟨"a_b", .contains, .single (.text "x*")⟩,
    .rule ⟨"name", .equal, .single (.text "y")⟩,
    .group .and [
      .rule ⟨"name", .oneOf, .list [.text "z", .text "w"]⟩,
      .rule ⟨"name_2", .notEqual, .single (.text "v")⟩,
      .rule ⟨"created_at", .lessOrEqual, .single (.text "2024-01-01T00:30:00+08:00")⟩]]
  passed := by decide

theorem clashingFilter_placeholders :
    clashingRules.HasFieldPaths ∧ ∃ c, clashingFilter.compile { reserved := ["name"] } = .ok c ∧
      c.query.placeholders =
        ["a_b", "a_b_2", "name_2", "name_3", "name_2_2", "created_at"] ∧
      (∀ name, name ∈ c.query.placeholders ↔ name ∈ c.params.keys) ∧
      ∃ condition : Condition, c.sql = "WHERE " ++ condition.text ∧
        List.Forall₂ (Rule.Emitted clashingRules.fields c.params)
          (clashingFilter.arranged { reserved := ["name"] }).rules condition.tests ∧
        c.query.placeholders = condition.tests.flatMap Placeholder.names := by
  have hnames : clashingRules.HasFieldPaths := by decide
  have hcompile : clashingFilter.compile { reserved := ["name"] } =
      .ok (clashingFilter.compiled { reserved := ["name"] }) :=
    clashingFilter.compile_eq (by decide)
  obtain ⟨-, -, hkeys, condition, hsql, -, hemitted, htests⟩ :=
    clashingFilter.placeholders_correspond hnames hcompile
  refine ⟨hnames, _, hcompile, ?_, hkeys, condition, hsql, hemitted, htests⟩
  rw [clashingFilter.compiled_unranked rfl]
  decide +kernel

end ResourceTable
