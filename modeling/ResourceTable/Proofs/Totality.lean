import ResourceTable.Proofs.Acceptance
import ResourceTable.Proofs.Compilation

/-!
# Filters that passed are compiled

The check and the compiler look at operators, operands and types each in its own way.
Whatever the check lets through the compiler has a branch for, and the database a cell:
only a crown can be refused once a filter has passed, and it is refused as it would be
on its own.

## Main definitions

* `CompileOptions.crownRules`: the rules of the crown.
* `Filter.FirstRefused`: the first of several filters to be refused, and why.
* `RequestError.OfCompiler`: the refusals that only the compiler knows.

## Main results

* `checkAll_eq_error_iff` — the check of several filters stops at the first refusal.
* `check_error` — no check ends with a refusal of the compiler.
* `params_basic` — what is bound are values of the types that filters take.
* `compile_total` — **a filter that passed is compiled, or its crown is refused; what is
  bound has cells.**
-/

namespace ResourceTable

/-- The rules of the crown. -/
def CompileOptions.crownRules (options : CompileOptions) : List Filter :=
  options.crown.elim [] Prod.snd

/-- The refusals that only the compiler knows: an operand that does not go with the
operator, a key path that is none, a field without a key, a time that is none. -/
inductive RequestError.OfCompiler : RequestError → Prop
  /-- The operator does not go with the shape of the operand. -/
  | operand (op : Operator) (field : String) : OfCompiler (.operandRefused op field)
  /-- The operand is no key path. -/
  | keyPath (op : Operator) (field : String) : OfCompiler (.needsKeyPath op field)
  /-- The field has no key after its column. -/
  | withoutKey (field : String) : OfCompiler (.pathWithoutKey field)
  /-- The operand is no time. -/
  | time (text : String) : OfCompiler (.invalidTime text)

namespace Filter

variable {rules : FilterRules}

/-- The first of the filters to be refused on its own is refused with `e`. -/
def FirstRefused (rules : FilterRules) (fs : List Filter) (e : RequestError) : Prop :=
  ∃ before f after, fs = before ++ f :: after ∧
    (∀ g ∈ before, ∃ w, g.validate rules = .ok w) ∧ f.validate rules = .error e

/-! ### The first refusal -/

theorem validate_eq_ok_iff {f : Filter} :
    (∃ w, f.validate rules = .ok w) ↔ f.check rules = .ok () := by
  rw [check_eq_ok_iff, ← validate_iff_documented]
  constructor
  · rintro ⟨w, hw⟩
    refine ⟨w, hw, ?_⟩
    unfold validate at hw
    split at hw
    · exact congrArg ValidFilter.filter (Except.ok.inj hw).symm
    · cases hw
  · exact fun ⟨w, hw, _⟩ => ⟨w, hw⟩

theorem validate_eq_error_iff {f : Filter} {e : RequestError} :
    f.validate rules = .error e ↔ f.check rules = .error e := by
  unfold validate
  split
  · next h =>
    refine ⟨nofun, fun he => ?_⟩
    rw [h] at he
    cases he
  · next e' h => rw [h, Except.error.injEq, Except.error.injEq]

/-- The check of several filters stops at the first refusal. -/
theorem checkAll_eq_error_iff {fs : List Filter} {e : RequestError} :
    checkAll rules fs = .error e ↔ FirstRefused rules fs e := by
  induction fs with
  | nil =>
    refine ⟨nofun, ?_⟩
    rintro ⟨before, f, after, hfs, -⟩
    exact absurd hfs.symm (List.append_ne_nil_of_right_ne_nil _ (List.cons_ne_nil _ _))
  | cons g rest ih =>
    rw [checkAll]
    -- The first filter is the one that is refused, or the refusal is among the others.
    cases hg : check rules g with
    | error e' =>
      constructor
      · intro h
        obtain rfl : e' = e := Except.error.inj h
        exact ⟨[], g, rest, rfl, List.forall_mem_nil _, validate_eq_error_iff.2 hg⟩
      · rintro ⟨_ | ⟨b, before⟩, f, after, hfs, hbefore, hf⟩
        · cases hfs
          rw [validate_eq_error_iff, hg] at hf
          exact hf
        · cases hfs
          have hb := validate_eq_ok_iff.1 (hbefore g List.mem_cons_self)
          rw [hg] at hb
          cases hb
    | ok u =>
      refine Iff.trans ih ⟨?_, ?_⟩
      · rintro ⟨before, f, after, rfl, hbefore, hf⟩
        exact ⟨g :: before, f, after, rfl,
          List.forall_mem_cons.2 ⟨validate_eq_ok_iff.2 hg, hbefore⟩, hf⟩
      · rintro ⟨_ | ⟨b, before⟩, f, after, hfs, hbefore, hf⟩
        · cases hfs
          rw [validate_eq_error_iff, hg] at hf
          cases hf
        · cases hfs
          exact ⟨before, f, after, rfl, (List.forall_mem_cons.1 hbefore).2, hf⟩

end Filter

/-! ### The refusals of the check -/

section Refusals

variable {rules : FilterRules} {r : Rule} {type : ColumnType} {e : RequestError}

theorem Rule.bind_eq_error {x y : Checked Unit} (h : (do x; y) = .error e) :
    x = .error e ∨ y = .error e := by
  cases x with
  | error e' => exact .inl (congrArg _ (Except.error.inj h))
  | ok u => exact .inr h

theorem Rule.checkType_error {v : Value} (h : r.checkType type v = .error e) :
    ¬e.OfCompiler := by
  unfold checkType at h
  split at h
  · cases h
  · cases h; nofun

theorem Rule.checkItem_error {v : Value} (h : r.checkItem type v = .error e) :
    ¬e.OfCompiler := by
  unfold checkItem at h
  split at h
  · cases h; nofun
  · split at h
    · cases h; nofun
    · exact checkType_error h

theorem Rule.forM_checkItem_error : ∀ {vs : List Value},
    vs.forM (r.checkItem type) = .error e → ¬e.OfCompiler := by
  intro vs
  induction vs with
  | nil => nofun
  | cons v rest ih => exact fun h => (bind_eq_error h).elim checkItem_error ih

theorem Rule.checkSingle_error {v : Value} (h : r.checkSingle type v = .error e) :
    ¬e.OfCompiler := by
  unfold checkSingle at h
  dsimp only at h
  split at h
  · cases h; nofun
  · have hlast : (if r.op.comparesField = true then r.checkType type v else .ok ()) = .error e →
        ¬e.OfCompiler := by
      intro h
      split at h
      · exact checkType_error h
      · cases h
    split at h
    · split at h
      · cases h; nofun
      · exact hlast h
    · exact hlast h

theorem Rule.checkField_error (h : r.checkField type = .error e) : ¬e.OfCompiler := by
  unfold checkField at h
  split at h
  · cases h; nofun
  · split at h
    · split at h
      · cases h
      · cases h; nofun
    · split at h
      · split at h
        · cases h
        · cases h; nofun
      · split at h
        · cases h; nofun
        · cases h

theorem Rule.checkOperand_error {limit : Nat} (h : r.checkOperand type limit = .error e) :
    ¬e.OfCompiler := by
  unfold checkOperand at h
  split at h
  · split at h
    · cases h; nofun
    · exact checkSingle_error h
  · split at h
    · cases h; nofun
    · split at h
      · cases h; nofun
      · split at h
        · cases h; nofun
        · exact forM_checkItem_error h

theorem Rule.check_error (h : r.check rules = .error e) : ¬e.OfCompiler := by
  unfold check at h
  split at h
  · cases h; nofun
  · split at h
    · cases h; nofun
    · exact (bind_eq_error h).elim checkField_error checkOperand_error

/-- No check ends with a refusal of the compiler. -/
theorem Filter.check_error {f : Filter} (h : f.check rules = .error e) : ¬e.OfCompiler := by
  induction f using treeInduction with
  | rule r => exact r.check_error h
  | group op fs ih =>
    rw [check] at h
    split at h
    · cases h
      rintro ⟨⟩
    · obtain ⟨before, f, after, rfl, -, hf⟩ := checkAll_eq_error_iff.1 h
      exact ih f (List.mem_append_right _ List.mem_cons_self) (validate_eq_error_iff.1 hf)

end Refusals

/-! ### What is bound -/

namespace ValidFilter

variable {rules : FilterRules}

/-- What a compiled filter binds are values of the types that filters take, one at least
under every name. -/
theorem params_basic (v : ValidFilter rules) {options : CompileOptions}
    (hcrown : Filter.CrownPasses rules options.crown) {name : String} {p : Param}
    (hp : (v.compiled options).params.get? name = some p) :
    p.values ≠ [] ∧ ∀ x ∈ p.values, x.isBasic = true := by
  have htakes : Filter.Takes (.start options.reserved) (holesOf (v.lowered options).1)
      (v.lowered options).2 := Filter.takes_lowered _ _
  -- every name that is bound was taken by a rule
  have hkey : name ∈ (v.lowered options).2.params.keys :=
    NameMap.mem_keys_iff.2 (Option.isSome_iff_exists.2 ⟨p, hp⟩)
  have htaken := ((htakes.keys name).1 hkey).resolve_left List.not_mem_nil
  obtain ⟨b, hb, rfl⟩ := List.mem_map.1 htaken
  obtain rfl : b.2 = p := Option.some.inj ((htakes.bound b hb).symm.trans hp)
  obtain ⟨r, hr, m, hop, rfl⟩ := Filter.mem_holesOf_lowered _ _ hb
  obtain ⟨type, hpassed⟩ := Rule.passed_of_check (v.rulesPass hcrown r hr)
  have hvalues := hpassed.payload_values hop
  rw [← hpassed.known] at hvalues
  exact hvalues

theorem crownPasses_iff {options : CompileOptions} :
    Filter.CrownPasses rules options.crown ↔
      Filter.checkAll rules options.crownRules = .ok () := by
  unfold CompileOptions.crownRules
  cases options.crown with
  | none => exact iff_of_true (fun _ _ h => by cases h) rfl
  | some crown =>
    obtain ⟨op, fs⟩ := crown
    exact ⟨fun h => h op fs rfl, fun h op' fs' he => by cases he; exact h⟩

/-- A crown that is refused is the refusal of the compilation. -/
theorem compile_of_refused (v : ValidFilter rules) {options : CompileOptions} {e : RequestError}
    (h : Filter.checkAll rules options.crownRules = .error e) : v.compile options = .error e := by
  unfold CompileOptions.crownRules at h
  unfold compile crowned
  split
  · next op c cs hcrown =>
    rw [hcrown] at h
    rw [show Filter.checkAll rules (c :: cs) = .error e from h]
    rfl
  · next hcrown =>
    cases hoptions : options.crown with
    | none =>
      rw [hoptions] at h
      cases h
    | some crown =>
      obtain ⟨op, _ | ⟨c, cs⟩⟩ := crown
      · rw [hoptions] at h
        cases h
      · exact absurd hoptions (hcrown op c cs)

/-- **A filter that passed is compiled, unless its crown is refused.**  The filter is
compiled exactly if every rule of the crown passes on its own, and otherwise refused as
the first of them that does not pass; no refusal is one that only the compiler knows.
What the clause binds is not null, and the database has cells for it. -/
theorem compile_total (v : ValidFilter rules) (options : CompileOptions) :
    ((∃ c, v.compile options = .ok c) ↔
      ∀ f ∈ options.crownRules, ∃ w, f.validate rules = .ok w) ∧
    (∀ e, v.compile options = .error e ↔ Filter.FirstRefused rules options.crownRules e) ∧
    (∀ e, v.compile options = .error e → ¬e.OfCompiler) ∧
    ∀ c, v.compile options = .ok c → ∀ name p, c.params.get? name = some p →
      p.values ≠ [] ∧ ∀ x ∈ p.values, x.isNull = false ∧ ∃ cell, x.toCell = .ok cell := by
  simp only [Filter.validate_eq_ok_iff, ← Filter.checkAll_eq_ok_iff,
    ← Filter.checkAll_eq_error_iff]
  cases hcrown : Filter.checkAll rules options.crownRules with
  | ok u =>
    have hpasses := crownPasses_iff.2 hcrown
    have hcompiled := v.compile_eq hpasses
    have hbound (name : String) (p : Param)
        (hp : (v.compiled options).params.get? name = some p) :
        p.values ≠ [] ∧ ∀ x ∈ p.values, x.isNull = false ∧ ∃ cell, x.toCell = .ok cell := by
      obtain ⟨hne, hbasic⟩ := v.params_basic hpasses hp
      exact ⟨hne, fun x hx => ⟨Value.isNull_of_isBasic (hbasic x hx), x.cell,
        Value.toCell_of_isBasic (hbasic x hx)⟩⟩
    generalize v.compiled options = clause at hcompiled hbound
    -- Nothing else about the clause matters.
    rw [hcompiled]
    refine ⟨iff_of_true ⟨clause, rfl⟩ rfl, fun e => ⟨nofun, nofun⟩, fun e he => ?_, fun c hc => ?_⟩
    · cases he
    · exact Except.ok.inj hc ▸ hbound
  | error e =>
    rw [v.compile_of_refused hcrown]
    obtain ⟨before, f, after, -, -, hf⟩ := Filter.checkAll_eq_error_iff.1 hcrown
    have hlate : ¬e.OfCompiler := Filter.check_error (Filter.validate_eq_error_iff.1 hf)
    refine ⟨⟨nofun, nofun⟩, fun e' => ?_, fun e' he' => ?_, nofun⟩
    · rw [Except.error.injEq, Except.error.injEq]
    · exact Except.error.inj he' ▸ hlate

end ValidFilter

end ResourceTable
