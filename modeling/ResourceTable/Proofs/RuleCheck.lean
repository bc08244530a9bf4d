import ResourceTable.Proofs.FieldPath

/-!
# What the check of a rule promises

A rule that passes the check has a known field that suits its operator, and an operand
of the form and the types that the operator takes.

## Main definitions

* `Rule.Passed`: a rule that passes the check of its field and operand.
* `Rule.SinglePassed`, `Rule.ListPassed`: its single value, or its list of values.

## Main results

* `Passed.single`, `Passed.list`, `Passed.pattern`, `Passed.key` — the operand by the
  class of the operator.
* `Passed.column`, `Passed.document` — the field by the class of the operator.
-/

namespace ResourceTable

theorem Operator.isJson_of_checksKey {op : Operator} (h : op.checksKey = true) :
    op.isJson = true := by
  cases op <;> first | rfl | cases h

namespace Rule

variable {rules : FilterRules} {r : Rule}

theorem bind_eq_ok {α β : Type} {x : Checked α} {f : α → Checked β} {b : β}
    (h : (x >>= f) = .ok b) : ∃ a, x = .ok a ∧ f a = .ok b := by
  cases x with
  | error e => cases h
  | ok a => exact ⟨a, rfl, h⟩

/-- What the check of a rule promises. -/
structure Passed (rules : FilterRules) (r : Rule) (type : ColumnType) : Prop where
  /-- The field is known. -/
  known : rules.fields.get? r.field = some type
  /-- It suits the operator. -/
  field : r.checkField type = .ok ()
  /-- So does the operand. -/
  operand : r.checkOperand type (rules.listLimit r.op) = .ok ()

theorem passed_of_check (h : r.check rules = .ok ()) : ∃ type, Passed rules r type := by
  unfold check at h
  split at h
  · cases h
  · split at h
    · cases h
    · next type hknown =>
      obtain ⟨_, hfield, hoperand⟩ := bind_eq_ok h
      exact ⟨type, hknown, hfield, hoperand⟩

/-- What the check of a single value promises. -/
structure SinglePassed (r : Rule) (type : ColumnType) (v : Value) : Prop where
  /-- The rule has the value. -/
  operand : r.operand = .single v
  /-- The value is what the operator requires. -/
  meets : ∀ q ∈ r.op.requirement?, v.meets q = true
  /-- It suits the field, if it is compared with it. -/
  suits : r.op.comparesField = true → v.suits type = true

/-- What the check of a list of values promises. -/
structure ListPassed (r : Rule) (type : ColumnType) (vs : List Value) : Prop where
  /-- The rule has the values. -/
  operand : r.operand = .list vs
  /-- There is one at least. -/
  nonempty : vs ≠ []
  /-- They are of the types that lists may have. -/
  basic : ∀ v ∈ vs, v.isBasic = true
  /-- They suit the field. -/
  suits : ∀ v ∈ vs, v.suits type = true

theorem suits_of_checkType {type : ColumnType} {v : Value} (h : r.checkType type v = .ok ()) :
    v.suits type = true := by
  unfold checkType at h
  split at h
  · assumption
  · cases h

theorem checkItem_ok {type : ColumnType} {v : Value} (h : r.checkItem type v = .ok ()) :
    v.isBasic = true ∧ v.suits type = true := by
  unfold checkItem at h
  split at h
  · cases h
  · split at h
    · cases h
    · next hbasic => exact ⟨by simpa using hbasic, suits_of_checkType h⟩

theorem forM_ok {α : Type} {f : α → Checked Unit} : ∀ {l : List α},
    l.forM f = .ok () → ∀ a ∈ l, f a = .ok () := by
  intro l
  induction l with
  | nil => intro _ a ha; cases ha
  | cons b rest ih =>
    intro h
    obtain ⟨_, hb, hrest⟩ := bind_eq_ok h
    exact List.forall_mem_cons.2 ⟨hb, ih hrest⟩

theorem checkSingle_ok {type : ColumnType} {v : Value} (h : r.checkSingle type v = .ok ()) :
    (∀ q ∈ r.op.requirement?, v.meets q = true) ∧
      (r.op.comparesField = true → v.suits type = true) := by
  unfold checkSingle at h
  dsimp only at h
  split at h
  · cases h
  · split at h
    · next q hq =>
      split at h
      · cases h
      · next hmeets =>
        refine ⟨fun q' hq' => ?_, fun hcompares => ?_⟩
        · rw [hq] at hq'
          cases hq'
          simpa using hmeets
        · rw [if_pos hcompares] at h
          exact suits_of_checkType h
    · next hnone =>
      refine ⟨fun q hq => ?_, fun hcompares => ?_⟩
      · rw [hnone] at hq
        cases hq
      · obtain ⟨_, -, h⟩ := bind_eq_ok h
        rw [if_pos hcompares] at h
        exact suits_of_checkType h

namespace Passed

variable {type : ColumnType}

theorem single (h : Passed rules r type) (hop : r.op.takesList = false) :
    ∃ v, SinglePassed r type v := by
  have hoperand := h.operand
  unfold checkOperand at hoperand
  split at hoperand
  · next v hv =>
    rw [hop] at hoperand
    obtain ⟨hmeets, hsuits⟩ := checkSingle_ok hoperand
    exact ⟨v, hv, hmeets, hsuits⟩
  · next vs hvs =>
    rw [hop] at hoperand
    cases hoperand

theorem list (h : Passed rules r type) (hop : r.op.takesList = true) :
    ∃ vs, ListPassed r type vs := by
  have hoperand := h.operand
  unfold checkOperand at hoperand
  split at hoperand
  · rw [if_pos hop] at hoperand
    cases hoperand
  · next vs hvs =>
    simp only [hop, Bool.not_true, Bool.false_eq_true, if_false] at hoperand
    split at hoperand
    · cases hoperand
    · next hne =>
      split at hoperand
      · cases hoperand
      · have hitems := forM_ok hoperand
        refine ⟨vs, hvs, fun hn => hne (by rw [hn]; rfl), fun v hv => ?_, fun v hv => ?_⟩
        · exact (checkItem_ok (hitems v hv)).1
        · exact (checkItem_ok (hitems v hv)).2

end Passed

theorem Passed.column {type : ColumnType} (h : Passed rules r type)
    (hop : r.op.isJson = false) : '.' ∉ r.field.toList := by
  have hfield := h.field
  unfold checkField at hfield
  split at hfield
  · cases hfield
  · split at hfield
    · next hkey =>
      rw [Operator.isJson_of_checksKey hkey] at hop
      cases hop
    · rw [if_neg (by simp [hop])] at hfield
      split at hfield
      · cases hfield
      · next hdot => simpa using hdot

theorem Passed.document {type : ColumnType} (h : Passed rules r type)
    (hop : r.op.isJson = true) (hkey : r.op.checksKey = false) :
    isDocumentPath r.field.toList = true := by
  have hfield := h.field
  unfold checkField at hfield
  split at hfield
  · cases hfield
  · simp only [hkey, Bool.false_eq_true, if_false] at hfield
    split at hfield
    · assumption
    · cases hfield

/-- A rule on key paths has a key path. -/
theorem Passed.key {type : ColumnType} (h : Passed rules r type) (hop : r.op.checksKey = true) :
    ∃ key, r.operand = .single (.string (some key)) ∧ isKeyPath key.toList = true := by
  have htakes : r.op.takesList = false := by
    cases hr : r.op <;> first | rfl | (rw [hr] at hop; cases hop)
  have hrequires : r.op.requirement? = some .keyPath := by
    cases hr : r.op <;> first | rfl | (rw [hr] at hop; cases hop)
  obtain ⟨v, hv⟩ := h.single htakes
  have hmeets := hv.meets .keyPath hrequires
  unfold Value.meets at hmeets
  split at hmeets
  · next hq => cases hq
  · next hq => cases hq
  · next hq => cases hq
  · split at hmeets
    · next s => exact ⟨s, hv.operand, hmeets⟩
    · cases hmeets
  · next hq => cases hq

/-- A pattern operator that passes the check has a text. -/
theorem Passed.pattern {type : ColumnType} (h : Passed rules r type)
    (hop : r.op.requirement? = some .nonemptyText) (htakes : r.op.takesList = false) :
    ∃ s, r.operand = .single (.string (some s)) := by
  obtain ⟨v, hv⟩ := h.single htakes
  have hmeets := hv.meets .nonemptyText hop
  unfold Value.meets at hmeets
  split at hmeets
  · next hq => cases hq
  · next hq => cases hq
  · split at hmeets
    · next s => exact ⟨s, hv.operand⟩
    · cases hmeets
  · next hq => cases hq
  · next hq => cases hq

end Rule

end ResourceTable
