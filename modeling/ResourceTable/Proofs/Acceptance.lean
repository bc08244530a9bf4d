import ResourceTable.Proofs.Meaning
import ResourceTable.Proofs.RuleCheck

/-!
# The filters that are accepted

What a filter may be is said here without the check: by the shapes of names and paths,
by the values that operators take and column types hold, and by limits.  The check
accepts just these filters.

## Main definitions

* `IsName`, `IsDotted`: identifiers, and identifiers joined by dots.
* `Value.IsNumber`, `Value.IsScalar`, `Value.IsMoment`: classes of values.
* `ColumnType.Holds`: the values that agree with a column type.
* `Operator.Takes`: the single values that an operator takes.
* `Operator.Suits`: the fields that an operator is used on.
* `Filter.Documented`: the filters that callers may use.

## Main results

* `Value.suits_iff`, `takes_iff`, `checkField_eq_ok_iff`, `checkOperand_eq_ok_iff` — each
  part of the check by what it accepts.
* `validate_iff_documented` — **the check accepts just the documented filters.**
-/

namespace ResourceTable

/-! ### Names and paths -/

/-- The text is an identifier: ASCII letters, digits and underscores, one at least. -/
structure IsName (cs : List Char) : Prop where
  /-- There is a character. -/
  nonempty : cs ≠ []
  /-- Every character is a letter, a digit or an underscore. -/
  plain : ∀ c ∈ cs, c.isAlphanum = true ∨ c = '_'

/-- The text is made of identifiers joined by dots. -/
inductive IsDotted : List Char → Prop
  /-- One identifier. -/
  | name {cs : List Char} (h : IsName cs) : IsDotted cs
  /-- An identifier before others. -/
  | dot {a b : List Char} (ha : IsName a) (hb : IsDotted b) : IsDotted (a ++ '.' :: b)

theorem isIdentifier_iff_isName {cs : List Char} : isIdentifier cs = true ↔ IsName cs := by
  rw [isIdentifier_iff]
  simp only [isNamePart, Bool.or_eq_true, beq_iff_eq]
  constructor
  · rintro ⟨hne, hplain⟩
    exact ⟨hne, hplain⟩
  · rintro ⟨hne, hplain⟩
    exact ⟨hne, hplain⟩

theorem IsName.dot_notMem {cs : List Char} (h : IsName cs) : '.' ∉ cs := by
  intro hmem
  rcases h.plain '.' hmem with hdot | hdot
  · revert hdot; decide
  · cases hdot

theorem isKeyPath_of_isDotted {cs : List Char} (h : IsDotted cs) : isKeyPath cs = true := by
  induction h with
  | name h =>
    rw [isKeyPath_of_notMem h.dot_notMem]
    exact isIdentifier_iff_isName.2 h
  | dot ha hb ih => exact (isKeyPath_append ha.dot_notMem).2 ⟨isIdentifier_iff_isName.2 ha, ih⟩

theorem isDotted_of_isKeyPath {cs : List Char} (h : isKeyPath cs = true) : IsDotted cs := by
  -- the text after the first dot is shorter
  induction hn : cs.length using Nat.strongRecOn generalizing cs with
  | ind n ih =>
    cases hcut : cutAtMark '.' cs with
    | none =>
      rw [isKeyPath_of_notMem (cutAtMark_eq_none_iff.1 hcut)] at h
      exact .name (isIdentifier_iff_isName.1 h)
    | some p =>
      obtain ⟨a, b⟩ := p
      obtain ⟨rfl, hdot⟩ := cutAtMark_eq_some hcut
      obtain ⟨ha, hb⟩ := (isKeyPath_append hdot).1 h
      have hshorter : b.length < n := by
        rw [← hn, List.length_append, List.length_cons]
        omega
      exact .dot (isIdentifier_iff_isName.1 ha) (ih b.length hshorter hb rfl)

theorem isKeyPath_iff_isDotted {cs : List Char} : isKeyPath cs = true ↔ IsDotted cs :=
  ⟨isDotted_of_isKeyPath, isKeyPath_of_isDotted⟩

/-- A path into a document is a column and a path of keys. -/
theorem isDocumentPath_iff {cs : List Char} :
    isDocumentPath cs = true ↔
      ∃ column keys, cs = column ++ '.' :: keys ∧ IsName column ∧ IsDotted keys := by
  constructor
  · intro h
    unfold isDocumentPath at h
    split at h
    · next column keys hcut =>
      obtain ⟨hcolumn, hkeys⟩ := Bool.and_eq_true_iff.1 h
      exact ⟨column, keys, (cutAtMark_eq_some hcut).1, isIdentifier_iff_isName.1 hcolumn,
        isKeyPath_iff_isDotted.1 hkeys⟩
    · cases h
  · rintro ⟨column, keys, rfl, hcolumn, hkeys⟩
    rw [isDocumentPath, cutAtMark_append hcolumn.dot_notMem]
    exact Bool.and_eq_true_iff.2
      ⟨isIdentifier_iff_isName.2 hcolumn, isKeyPath_iff_isDotted.2 hkeys⟩

/-! ### Values -/

namespace Value

/-- The value is a number. -/
inductive IsNumber : Value → Prop
  /-- An integer of any width. -/
  | integer (t : IntType) (n : FixedInt t) : IsNumber (.integer t (some n))
  /-- A 32-bit floating-point number. -/
  | single (x : Single) : IsNumber (.single (some x))
  /-- A 64-bit floating-point number. -/
  | double (x : Double) : IsNumber (.double (some x))

/-- The value is a basic scalar. -/
inductive IsScalar : Value → Prop
  /-- A number. -/
  | number {v : Value} (h : v.IsNumber) : IsScalar v
  /-- A truth value. -/
  | bool (b : Bool) : IsScalar (.bool (some b))
  /-- A text. -/
  | string (s : String) : IsScalar (.string (some s))
  /-- A character. -/
  | char (c : Char) : IsScalar (.char (some c))
  /-- A moment in UTC. -/
  | timestamp (t : Timestamp) : IsScalar (.timestamp (some t))

/-- The value is a time. -/
inductive IsMoment : Value → Prop
  /-- A moment in UTC. -/
  | timestamp (t : Timestamp) : IsMoment (.timestamp (some t))
  /-- The text of a moment, in the internet format. -/
  | text {s : String} {z : ZonedDateTime} (h : readInternet s.toList = some z) :
    IsMoment (.string (some s))

theorem isNumeric_iff {v : Value} : v.isNumeric = true ↔ v.IsNumber := by
  constructor
  · intro h
    unfold isNumeric at h
    split at h
    · exact .integer _ _
    · exact .single _
    · exact .double _
    · cases h
  · rintro (⟨t, n⟩ | x | x) <;> rfl

theorem isBasic_iff {v : Value} : v.isBasic = true ↔ v.IsScalar := by
  unfold isBasic
  rw [Bool.or_eq_true, isNumeric_iff]
  constructor
  · rintro (h | h)
    · exact .number h
    · split at h
      · exact .bool _
      · exact .string _
      · exact .char _
      · exact .timestamp _
      · cases h
  · intro h
    cases h with
    | number h => exact .inl h
    | bool b => exact .inr rfl
    | string s => exact .inr rfl
    | char c => exact .inr rfl
    | timestamp t => exact .inr rfl

theorem isTime_iff {v : Value} : v.isTime = true ↔ v.IsMoment := by
  constructor
  · intro h
    unfold isTime at h
    split at h
    · exact .timestamp _
    · obtain ⟨z, hz⟩ := Option.isSome_iff_exists.1 h
      exact .text hz
    · cases h
  · rintro (t | hz)
    · rfl
    · rw [isTime, hz]
      rfl

end Value

/-- The value agrees with a column of the type. -/
inductive ColumnType.Holds : ColumnType → Value → Prop
  /-- Text columns hold texts. -/
  | string (s : String) : Holds .string (.string (some s))
  /-- They hold characters too. -/
  | char (c : Char) : Holds .string (.char (some c))
  /-- Numeric columns hold numbers. -/
  | numeric {v : Value} (h : v.IsNumber) : Holds .numeric v
  /-- Boolean columns hold truth values. -/
  | boolean (b : Bool) : Holds .boolean (.bool (some b))
  /-- Time columns hold times. -/
  | time {v : Value} (h : v.IsMoment) : Holds .time v
  /-- Document columns hold anything. -/
  | json (v : Value) : Holds .json v

theorem Value.suits_iff {v : Value} {type : ColumnType} :
    v.suits type = true ↔ type.Holds v := by
  constructor
  · intro h
    cases type with
    | string =>
      simp only [suits] at h
      split at h
      · exact .string _
      · exact .char _
      · cases h
    | numeric => exact .numeric (isNumeric_iff.1 h)
    | boolean =>
      simp only [suits] at h
      split at h
      · exact .boolean _
      · cases h
    | time => exact .time (isTime_iff.1 h)
    | json => exact .json v
  · intro h
    cases h with
    | string s => rfl
    | char c => rfl
    | numeric h => exact isNumeric_iff.2 h
    | boolean b => rfl
    | time h => exact isTime_iff.2 h
    | json v => rfl

/-! ### Operators -/

namespace Operator

/-- The single values that an operator takes. -/
inductive Takes : Operator → Value → Prop
  /-- Equality and the primary key take a basic scalar. -/
  | scalar {op : Operator} {v : Value}
    (hop : op ∈ [equal, notEqual, jsonEqual, jsonNotEqual, jsonContains, idGreater])
    (h : v.IsScalar) : Takes op v
  /-- An order takes a number. -/
  | number {op : Operator} {v : Value} (hop : op ∈ [greater, greaterOrEqual, less, lessOrEqual])
    (h : v.IsNumber) : Takes op v
  /-- It takes a time too. -/
  | moment {op : Operator} {v : Value} (hop : op ∈ [greater, greaterOrEqual, less, lessOrEqual])
    (h : v.IsMoment) : Takes op v
  /-- Patterns take a text, not empty. -/
  | text {op : Operator} {s : String} (hop : op ∈ [contains, containsAnyCase]) (h : s ≠ "") :
    Takes op (.string (some s))
  /-- A look-up of keys takes a path of keys. -/
  | keys {op : Operator} {s : String} (hop : op ∈ [jsonHasPath, jsonLacksPath])
    (h : IsDotted s.toList) : Takes op (.string (some s))
  /-- A length is a number. -/
  | length {v : Value} (h : v.IsNumber) : Takes jsonLength v

/-- The fields of a column type that an operator is used on. -/
inductive Suits : Operator → List Char → ColumnType → Prop
  /-- Keys are looked up in a document. -/
  | keys {op : Operator} (field : List Char) (hop : op ∈ [jsonHasPath, jsonLacksPath]) :
    Suits op field .json
  /-- The other operators on documents name a part: a column and the keys after it. -/
  | part {op : Operator} {column keys : List Char} (type : ColumnType)
    (hop : op ∈ [jsonEqual, jsonNotEqual, jsonOneOf, jsonContains, jsonOverlaps, jsonLength])
    (hcolumn : IsName column) (hkeys : IsDotted keys) : Suits op (column ++ '.' :: keys) type
  /-- Other operators name a column. -/
  | column {op : Operator} {field : List Char} (type : ColumnType)
    (hop : op ∈ [equal, notEqual, greater, greaterOrEqual, less, lessOrEqual, oneOf, noneOf,
      contains, containsAnyCase])
    (hdot : '.' ∉ field) : Suits op field type
  /-- One of them is for the primary key. -/
  | id (type : ColumnType) : Suits idGreater ['i', 'd'] type

theorem requirement?_of_order {op : Operator}
    (hop : op ∈ [greater, greaterOrEqual, less, lessOrEqual]) :
    op.requirement? = some .numberOrTime := by
  revert op
  decide

/-- A single value is taken if it meets what the operator requires. -/
theorem takes_iff {op : Operator} {v : Value} :
    op.Takes v ↔ ∃ q, op.requirement? = some q ∧ v.meets q = true := by
  constructor
  · intro h
    cases h with
    | scalar hop h =>
      have hq : ∀ op ∈ [equal, notEqual, jsonEqual, jsonNotEqual, jsonContains, idGreater],
          op.requirement? = some .basic := by decide
      exact ⟨.basic, hq op hop, Value.isBasic_iff.2 h⟩
    | number hop h =>
      have hmeets : v.meets .numberOrTime = true :=
        Bool.or_eq_true_iff.2 (.inl (Value.isNumeric_iff.2 h))
      exact ⟨.numberOrTime, requirement?_of_order hop, hmeets⟩
    | moment hop h =>
      have hmeets : v.meets .numberOrTime = true :=
        Bool.or_eq_true_iff.2 (.inr (Value.isTime_iff.2 h))
      exact ⟨.numberOrTime, requirement?_of_order hop, hmeets⟩
    | text hop h =>
      have hq : ∀ op ∈ [contains, containsAnyCase], op.requirement? = some .nonemptyText := by
        decide
      exact ⟨.nonemptyText, hq op hop, by simpa [Value.meets] using h⟩
    | keys hop h =>
      have hq : ∀ op ∈ [jsonHasPath, jsonLacksPath], op.requirement? = some .keyPath := by decide
      exact ⟨.keyPath, hq op hop, isKeyPath_iff_isDotted.2 h⟩
    | length h => exact ⟨.number, rfl, Value.isNumeric_iff.2 h⟩
  · rintro ⟨q, hq, hmeets⟩
    -- Only the operators of one group have a given requirement.
    cases q with
    | basic =>
      refine .scalar ?_ (Value.isBasic_iff.1 hmeets)
      cases op <;> first | decide | cases hq
    | numberOrTime =>
      have hop : op ∈ [greater, greaterOrEqual, less, lessOrEqual] := by
        cases op <;> first | decide | cases hq
      rcases Bool.or_eq_true_iff.1 hmeets with h | h
      · exact .number hop (Value.isNumeric_iff.1 h)
      · exact .moment hop (Value.isTime_iff.1 h)
    | nonemptyText =>
      simp only [Value.meets] at hmeets
      split at hmeets
      · refine .text ?_ (by simpa using hmeets)
        cases op <;> first | decide | cases hq
      · cases hmeets
    | keyPath =>
      simp only [Value.meets] at hmeets
      split at hmeets
      · refine .keys ?_ (isKeyPath_iff_isDotted.1 hmeets)
        cases op <;> first | decide | cases hq
      · cases hmeets
    | number =>
      have hop : op = jsonLength := by cases op <;> first | rfl | cases hq
      rw [hop]
      exact .length (Value.isNumeric_iff.1 hmeets)

end Operator

/-! ### Rules -/

namespace Rule

variable {rules : FilterRules} {r : Rule} {type : ColumnType}

/-- What the operand of a rule on a field of the type may be, with a list of at most
so many values. -/
inductive TakesOperand (op : Operator) (type : ColumnType) (limit : Nat) : Operand → Prop
  /-- An operator on lists takes a list, not empty, of scalars that agree with the type. -/
  | list {vs : List Value} (hop : op ∈ [.oneOf, .noneOf, .jsonOneOf, .jsonOverlaps])
    (hne : vs ≠ []) (hlimit : vs.length ≤ limit)
    (hvs : ∀ v ∈ vs, v.isNull = false ∧ v.IsScalar ∧ type.Holds v) :
    TakesOperand op type limit (.list vs)
  /-- Any other takes a single value, which agrees with the type unless it is a length. -/
  | single {v : Value} (hop : op ∉ [.oneOf, .noneOf, .jsonOneOf, .jsonOverlaps])
    (hnull : v.isNull = false) (htakes : op.Takes v)
    (hholds : op ≠ .jsonLength → type.Holds v) : TakesOperand op type limit (.single v)

/-- The rule is one that callers may use, on a field of the type. -/
structure Documented (rules : FilterRules) (r : Rule) (type : ColumnType) : Prop where
  /-- The field has a name. -/
  named : r.field ≠ ""
  /-- It is known. -/
  known : rules.fields.get? r.field = some type
  /-- The operator is used on such a field. -/
  field : r.op.Suits r.field.toList type
  /-- It takes the operand. -/
  operand : TakesOperand r.op type
    (if r.op = .noneOf then rules.maxExcluded else rules.maxList) r.operand

theorem bind_eq_ok_iff {x y : Checked Unit} :
    (do x; y) = .ok () ↔ x = .ok () ∧ y = .ok () := by
  cases x <;> simp [bind, Except.bind]

theorem ite_error_eq_ok_iff {p : Prop} [Decidable p] {e : RequestError} {x : Checked Unit} :
    (if p then .error e else x) = .ok () ↔ ¬p ∧ x = .ok () := by
  split <;> simp [*]

theorem checkField_eq_ok_iff : r.checkField type = .ok () ↔ r.op.Suits r.field.toList type := by
  constructor
  · intro h
    rw [checkField, ite_error_eq_ok_iff] at h
    obtain ⟨hid, h⟩ := h
    -- The cases are the groups that the check tells apart.
    cases hr : r.op with
    | jsonHasPath | jsonLacksPath =>
      simp only [hr, Operator.checksKey, if_true] at h
      split at h
      · next htype =>
        rw [htype]
        exact .keys _ (by decide)
      · cases h
    | jsonEqual | jsonNotEqual | jsonOneOf | jsonContains | jsonOverlaps | jsonLength =>
      simp only [hr, Operator.checksKey, Operator.isJson, Bool.false_eq_true, if_false,
        if_true] at h
      split at h
      · next hpath =>
        obtain ⟨column, keys, hfield, hcolumn, hkeys⟩ := isDocumentPath_iff.1 hpath
        rw [hfield]
        exact .part type (by decide) hcolumn hkeys
      · cases h
    | idGreater =>
      have hfield : r.field = "id" := by simpa [hr] using hid
      rw [hfield]
      exact .id type
    | equal | notEqual | greater | greaterOrEqual | less | lessOrEqual | oneOf | noneOf
    | contains | containsAnyCase =>
      simp only [hr, Operator.checksKey, Operator.isJson, Bool.false_eq_true, if_false,
        ite_error_eq_ok_iff] at h
      exact .column type (by decide) (by simpa using h.1)
  · intro h
    rw [checkField, ite_error_eq_ok_iff]
    -- The field and the operator are indices of the relation.
    generalize hfield : r.field.toList = field at h ⊢
    generalize r.op = op at h ⊢
    cases h with
    | keys _ hop =>
      have hclass : ∀ op ∈ [Operator.jsonHasPath, .jsonLacksPath],
          op ≠ .idGreater ∧ op.checksKey = true := by decide
      simp [hclass op hop]
    | part type hop hcolumn hkeys =>
      have hclass : ∀ op ∈ [Operator.jsonEqual, .jsonNotEqual, .jsonOneOf, .jsonContains,
          .jsonOverlaps, .jsonLength],
          op ≠ .idGreater ∧ op.checksKey = false ∧ op.isJson = true := by decide
      simp [hclass op hop, isDocumentPath_iff.2 ⟨_, _, rfl, hcolumn, hkeys⟩]
    | column type hop hdot =>
      have hclass : ∀ op ∈ [Operator.equal, .notEqual, .greater, .greaterOrEqual, .less,
          .lessOrEqual, .oneOf, .noneOf, .contains, .containsAnyCase],
          op ≠ .idGreater ∧ op.checksKey = false ∧ op.isJson = false := by decide
      simp [hclass op hop, hdot]
    | id type =>
      have hid : r.field = "id" := String.toList_inj.1 hfield
      simp [Operator.checksKey, Operator.isJson, hid]

theorem checkType_eq_ok_iff {v : Value} : r.checkType type v = .ok () ↔ type.Holds v := by
  rw [← Value.suits_iff, checkType]
  split <;> simp [*]

theorem checkItem_eq_ok_iff {v : Value} :
    r.checkItem type v = .ok () ↔ v.isNull = false ∧ v.IsScalar ∧ type.Holds v := by
  rw [checkItem, ite_error_eq_ok_iff, ite_error_eq_ok_iff, checkType_eq_ok_iff,
    ← Value.isBasic_iff, Bool.not_eq_true, Bool.not_eq_true', Bool.not_eq_false]

theorem forM_eq_ok_iff {α : Type} {f : α → Checked Unit} {l : List α} :
    l.forM f = .ok () ↔ ∀ a ∈ l, f a = .ok () := by
  induction l with
  | nil => exact ⟨fun _ => List.forall_mem_nil _, fun _ => rfl⟩
  | cons a rest ih =>
    rw [List.forall_mem_cons, ← ih]
    exact bind_eq_ok_iff

/-- A single value passes its check, for an operator that takes one. -/
theorem checkSingle_eq_ok_iff {v : Value} (hop : r.op.takesList = false) :
    r.checkSingle type v = .ok () ↔
      v.isNull = false ∧ r.op.Takes v ∧ (r.op ≠ .jsonLength → type.Holds v) := by
  have hcompares : r.op.comparesField = true ↔ r.op ≠ .jsonLength := by
    simp [Operator.comparesField]
  obtain ⟨q, hq⟩ : ∃ q, r.op.requirement? = some q := by
    cases hr : r.op <;> first | exact ⟨_, rfl⟩ | (rw [hr] at hop; cases hop)
  have htakes : r.op.Takes v ↔ v.meets q = true := by
    rw [Operator.takes_iff]
    exact ⟨fun ⟨q', hq', hmeets⟩ => Option.some.inj (hq.symm.trans hq') ▸ hmeets,
      fun hmeets => ⟨q, hq, hmeets⟩⟩
  rw [htakes, ← hcompares, ← checkType_eq_ok_iff (r := r)]
  unfold checkSingle
  simp only [hq]
  cases v.isNull <;> cases v.meets q <;> cases r.op.comparesField <;>
    simp [bind, Except.bind]

theorem takesList_iff {op : Operator} :
    op.takesList = true ↔ op ∈ [.oneOf, .noneOf, .jsonOneOf, .jsonOverlaps] := by
  cases op <;> decide

theorem checkOperand_eq_ok_iff {limit : Nat} :
    r.checkOperand type limit = .ok () ↔ TakesOperand r.op type limit r.operand := by
  unfold checkOperand
  cases r.operand with
  | single v =>
    dsimp only
    rw [ite_error_eq_ok_iff, Bool.not_eq_true]
    constructor
    · rintro ⟨hop, h⟩
      obtain ⟨hnull, htakes, hholds⟩ := (checkSingle_eq_ok_iff hop).1 h
      refine .single (fun hmem => ?_) hnull htakes hholds
      rw [takesList_iff.2 hmem] at hop
      cases hop
    · rintro (_ | ⟨hop, hnull, htakes, hholds⟩)
      have hsingle : r.op.takesList = false :=
        Bool.eq_false_iff.2 fun htakes => hop (takesList_iff.1 htakes)
      exact ⟨hsingle, (checkSingle_eq_ok_iff hsingle).2 ⟨hnull, htakes, hholds⟩⟩
  | list vs =>
    dsimp only
    rw [ite_error_eq_ok_iff, ite_error_eq_ok_iff, ite_error_eq_ok_iff, forM_eq_ok_iff]
    simp only [Bool.not_eq_true', Bool.not_eq_false, takesList_iff, List.isEmpty_iff, Nat.not_lt,
      checkItem_eq_ok_iff]
    constructor
    · rintro ⟨hop, hne, hlimit, hvs⟩
      exact .list hop hne hlimit hvs
    · rintro (⟨hop, hne, hlimit, hvs⟩ | _)
      exact ⟨hop, hne, hlimit, hvs⟩

/-- **The check accepts just the documented rules.** -/
theorem check_eq_ok_iff : r.check rules = .ok () ↔ ∃ type, r.Documented rules type := by
  rw [check, ite_error_eq_ok_iff]
  constructor
  · rintro ⟨hempty, h⟩
    have hnamed : r.field ≠ "" := by simpa using hempty
    split at h
    · cases h
    · next type hknown =>
      obtain ⟨hfield, hoperand⟩ := bind_eq_ok_iff.1 h
      exact ⟨type, hnamed, hknown, checkField_eq_ok_iff.1 hfield,
        checkOperand_eq_ok_iff.1 hoperand⟩
  · rintro ⟨type, hnamed, hknown, hfield, hoperand⟩
    refine ⟨by simpa using hnamed, ?_⟩
    rw [hknown]
    exact bind_eq_ok_iff.2 ⟨checkField_eq_ok_iff.2 hfield, checkOperand_eq_ok_iff.2 hoperand⟩

end Rule

/-! ### Filters -/

namespace Filter

/-- The filter is one that callers may use: no group at any depth has too many parts, and
every rule is documented. -/
inductive Documented (rules : FilterRules) : Filter → Prop
  /-- A group of a few documented filters. -/
  | group (op : Connective) {fs : List Filter} (few : fs.length ≤ rules.maxRules)
    (parts : ∀ f ∈ fs, Documented rules f) : Documented rules (.group op fs)
  /-- A documented rule. -/
  | rule {r : Rule} {type : ColumnType} (h : r.Documented rules type) :
    Documented rules (.rule r)

theorem check_eq_ok_iff {rules : FilterRules} {f : Filter} :
    f.check rules = .ok () ↔ f.Documented rules := by
  induction f using treeInduction with
  | rule r =>
    rw [check, Rule.check_eq_ok_iff]
    constructor
    · rintro ⟨_, h⟩
      exact .rule h
    · intro h
      cases h with
      | rule h => exact ⟨_, h⟩
  | group op fs ih =>
    rw [check, Rule.ite_error_eq_ok_iff, checkAll_eq_ok_iff, Nat.not_lt]
    constructor
    · rintro ⟨hfew, hparts⟩
      exact .group op hfew fun f hf => (ih f hf).1 (hparts f hf)
    · intro h
      cases h with
      | group op hfew hparts => exact ⟨hfew, fun f hf => (ih f hf).2 (hparts f hf)⟩

/-- **The check accepts just the documented filters**, and gives back the filter that it
was given. -/
theorem validate_iff_documented (rules : FilterRules) (f : Filter) :
    (∃ v : ValidFilter rules, f.validate rules = .ok v ∧ v.filter = f) ↔ f.Documented rules := by
  rw [← check_eq_ok_iff]
  unfold validate
  constructor
  · rintro ⟨v, -, rfl⟩
    exact v.passed
  · intro h
    split
    · next hpassed => exact ⟨⟨f, hpassed⟩, rfl, rfl⟩
    · next e herror =>
      rw [h] at herror
      cases herror

/-- Whether a filter is documented can be computed. -/
instance (rules : FilterRules) (f : Filter) : Decidable (f.Documented rules) :=
  decidable_of_iff (f.check rules = .ok ()) check_eq_ok_iff

end Filter

end ResourceTable
