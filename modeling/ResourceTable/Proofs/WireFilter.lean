import ResourceTable.Filter.Wire
import ResourceTable.Proofs.Meaning
import ResourceTable.Proofs.RuleCheck

/-!
# Filters on the wire and back

A filter that is written for the wire is read back, if the wire has a form for each of its
values: truth values, texts, finite numbers and documents that are objects, and in lists also
documents that are sequences.  An integer beyond the signed range is unsigned, since a number
is read as a signed integer wherever it fits.

Every filter that is read is of that kind, whatever was read: no value is null, and neither is
an element of a list, however deep the rule is.  So what was read can be written and read once
more.

## Main definitions

* `Filter.IsWire`: the wire has a form for every value.
* `Json.IsProper`: the numbers are those that JSON texts have.

## Main results

* `Operator.wireNames_eq` — operators are read by the names that they are written with.
* `ofJson_toJson` — a filter that is written is read back.
* `isWire_of_ofJson` — the wire has a form for what was read.
* `wire_exact` — **writing and reading filters.**
-/

namespace ResourceTable

/-! ### Values with a form on the wire -/

/-- A value that stands alone on the wire. -/
inductive Value.IsSimple : Value → Prop
  /-- A truth value. -/
  | bool (b : Bool) : IsSimple (.bool (some b))
  /-- A signed integer. -/
  | signed (n : FixedInt .i64) : IsSimple (.integer .i64 (some n))
  /-- An integer that is too large to be a signed one. -/
  | unsigned (n : FixedInt .u64) (h : IntType.i64.greatest < n.val) :
    IsSimple (.integer .u64 (some n))
  /-- A finite number. -/
  | double (x : Double) (h : x.isFinite = true) : IsSimple (.double (some x))
  /-- A text. -/
  | string (s : String) : IsSimple (.string (some s))
  /-- A document that is an object. -/
  | object (members : List (String × Json)) : IsSimple (.json (some (.object members)))

/-- A value that stands in a list on the wire. -/
inductive Value.IsItem : Value → Prop
  /-- A value that could stand alone. -/
  | scalar {v : Value} (h : v.IsSimple) : IsItem v
  /-- A document that is a sequence. -/
  | array (items : List Json) : IsItem (.json (some (.array items)))

/-- The wire has a form for the operand. -/
inductive Operand.IsWire : Operand → Prop
  /-- A value. -/
  | single {v : Value} (h : v.IsSimple) : IsWire (.single v)
  /-- A list of values. -/
  | list {vs : List Value} (h : ∀ v ∈ vs, v.IsItem) : IsWire (.list vs)

/-- The wire has a form for every value of the filter. -/
def Filter.IsWire (f : Filter) : Prop := ∀ r ∈ f.rules, r.operand.IsWire

/-- The numbers that JSON texts have: integers of 64 bits and finite numbers. -/
def Json.Number.IsProper : Json.Number → Prop
  | .integer n => IntType.i64.Holds n ∨ IntType.u64.Holds n
  | .double x => x.isFinite = true

mutual

/-- The numbers in the value are those that JSON texts have. -/
def Json.IsProper : Json → Prop
  | .null | .bool _ | .string _ => True
  | .number n => n.IsProper
  | .array items => Json.AreProper items
  | .object members => Json.HaveProper members
termination_by structural j => j

/-- The numbers in the values are those that JSON texts have. -/
def Json.AreProper : List Json → Prop
  | [] => True
  | j :: rest => j.IsProper ∧ Json.AreProper rest
termination_by structural l => l

/-- The numbers in the members are those that JSON texts have. -/
def Json.HaveProper : List (String × Json) → Prop
  | [] => True
  | m :: rest => Json.HasProper m ∧ Json.HaveProper rest
termination_by structural l => l

/-- The numbers in the member are those that JSON texts have. -/
def Json.HasProper : String × Json → Prop
  | (_, j) => j.IsProper
termination_by structural m => m

end

namespace Json

theorem areProper_iff {items : List Json} : AreProper items ↔ ∀ j ∈ items, j.IsProper := by
  induction items with
  | nil => exact ⟨fun _ _ h => (List.not_mem_nil h).elim, fun _ => trivial⟩
  | cons j rest ih => rw [AreProper, ih, List.forall_mem_cons]

theorem isProper_of_lookup {name : String} {j : Json} : ∀ {members : List (String × Json)},
    HaveProper members → NameMap.lookup name members = some j → j.IsProper := by
  intro members
  induction members with
  | nil => intro _ h; cases h
  | cons m rest ih =>
    obtain ⟨key, value⟩ := m
    intro hproper h
    rw [NameMap.lookup] at h
    split at h
    · cases h
      exact hproper.1
    · exact ih hproper.2 h

end Json

/-! ### Writing and reading back -/

/-- **Operators are read by the names that they are written with.** -/
theorem Operator.wireNames_eq : wireNames = all.map fun op => (op.name, op) := rfl

theorem Operator.ofJson_toJson (op : Operator) : ofJson op.toJson = .ok op := by
  cases op <;> rfl

theorem Connective.ofJson_name (op : Connective) : ofJson (.string op.name) = .ok op := by
  cases op <;> rfl

namespace Value

variable {v : Value}

theorem ofJson_toJson_of_isSimple (field : String) (h : v.IsSimple) :
    ofJson field v.toJson = .ok v := by
  cases h with
  | bool | double | string | object => rfl
  | signed n =>
    show Except.ok (ofNumber (.integer n.val)) = _
    rw [ofNumber, n.ofInt?_val]
  | unsigned n h =>
    have hsigned : FixedInt.ofInt? .i64 n.val = none :=
      dif_neg fun holds => Int.not_le.2 h holds.2
    show Except.ok (ofNumber (.integer n.val)) = _
    rw [ofNumber, hsigned, n.ofInt?_val]

theorem ofJson_toJson (field : String) (h : v.IsItem) : ofJson field v.toJson = .ok v := by
  cases h with
  | scalar h => exact ofJson_toJson_of_isSimple field h
  | array items => rfl

theorem IsItem.isNull (h : v.IsItem) : v.isNull = false := by
  cases h with
  | scalar h => cases h <;> rfl
  | array items => rfl

end Value

/-- An operand that is written is read back. -/
theorem Operand.ofJson_toJson (field : String) {o : Operand} (h : o.IsWire) :
    ofJson field o.toJson = .ok o := by
  cases h with
  | single h =>
    have hvalue := Value.ofJson_toJson_of_isSimple field h
    -- What stands alone is no sequence, which would be a list.
    cases h <;> exact congrArg (fun checked => checked.map Operand.single) hvalue
  | @list vs h =>
    have hvalues : (vs.map Value.toJson).mapM (Value.ofJson field) = .ok vs := by
      induction vs with
      | nil => rfl
      | cons v rest ih =>
        obtain ⟨hv, hrest⟩ := List.forall_mem_cons.1 h
        rw [List.map_cons, List.mapM_cons, Value.ofJson_toJson field hv, ih hrest]
        rfl
    exact congrArg (fun checked => checked.map Operand.list) hvalues

theorem Rule.ofMembers_toJson {r : Rule} (h : r.operand.IsWire) :
    ofMembers [("field", .string r.field), ("op", r.op.toJson), ("value", r.operand.toJson)] =
      .ok r := by
  have hop := r.op.ofJson_toJson
  have hoperand := Operand.ofJson_toJson r.field h
  show (do
    let op ← Operator.ofJson r.op.toJson
    let operand ← Operand.ofJson r.field r.operand.toJson
    return Rule.mk r.field op operand) = _
  rw [hop]
  show (do
    let operand ← Operand.ofJson r.field r.operand.toJson
    return Rule.mk r.field r.op operand) = _
  rw [hoperand]
  rfl

namespace Filter

mutual

/-- **A filter that is written is read back**, if the wire has a form for its values. -/
theorem ofJson_toJson : ∀ f : Filter, f.IsWire → ofJson f.toJson = .ok f
  | .rule r, h => by
    have hrule := Rule.ofMembers_toJson (h r (List.mem_singleton_self r))
    exact congrArg (fun checked => checked.map Filter.rule) hrule
  | .group op rules, h => by
    have hop : connectiveOf [("op", .string op.name), ("rules", .array (itemsToJson rules))] =
        .ok op := op.ofJson_name
    have hrules : rulesOf [("op", .string op.name), ("rules", .array (itemsToJson rules))] =
        .ok rules := ofItems_itemsToJson rules h
    show (do
      let op ← connectiveOf [("op", .string op.name), ("rules", .array (itemsToJson rules))]
      let rules ← rulesOf [("op", .string op.name), ("rules", .array (itemsToJson rules))]
      return Filter.group op rules) = .ok (.group op rules)
    rw [hop]
    show (do
      let rules ← rulesOf [("op", .string op.name), ("rules", .array (itemsToJson rules))]
      return Filter.group op rules) = .ok (.group op rules)
    rw [hrules]
    rfl

theorem ofItems_itemsToJson : ∀ l : List Filter, (∀ r ∈ rulesAll l, r.operand.IsWire) →
    ofItems (itemsToJson l) = .ok l
  | [], _ => rfl
  | f :: rest, h => by
    have hfirst := ofJson_toJson f fun r hr => h r (List.mem_append_left _ hr)
    have hrest := ofItems_itemsToJson rest fun r hr => h r (List.mem_append_right _ hr)
    rw [itemsToJson, ofItems, hfirst, hrest]
    rfl

end

end Filter

/-! ### What is read -/

theorem Rule.map_eq_ok {α β : Type} {x : Checked α} {f : α → β} {b : β} (h : x.map f = .ok b) :
    ∃ a, x = .ok a ∧ f a = b := by
  cases x with
  | error e => cases h
  | ok a => exact ⟨a, rfl, Except.ok.inj h⟩

namespace Value

/-- A number is read as a value that stands alone on the wire. -/
theorem isSimple_ofNumber {n : Json.Number} (h : n.IsProper) : (ofNumber n).IsSimple := by
  cases n with
  | double x => exact .double x h
  | integer n =>
    unfold ofNumber
    dsimp only
    by_cases hsigned : IntType.i64.Holds n
    · have hread : FixedInt.ofInt? .i64 n = some ⟨n, hsigned⟩ := dif_pos hsigned
      rw [hread]
      exact .signed ⟨n, hsigned⟩
    · have hunsigned : IntType.u64.Holds n := h.resolve_left hsigned
      have hread : FixedInt.ofInt? .u64 n = some ⟨n, hunsigned⟩ := dif_pos hunsigned
      have hnone : FixedInt.ofInt? .i64 n = none := dif_neg hsigned
      have hlarge : IntType.i64.greatest < n := by
        have hleast : IntType.i64.least ≤ IntType.u64.least := by decide
        refine Int.not_le.1 fun hle => hsigned ⟨?_, hle⟩
        exact Int.le_trans hleast hunsigned.1
      rw [hnone, hread]
      exact .unsigned ⟨n, hunsigned⟩ hlarge

theorem isSimple_of_ofJson {field : String} {j : Json} {v : Value} (hj : j.IsProper)
    (harray : ∀ items, j ≠ .array items) (h : ofJson field j = .ok v) : v.IsSimple := by
  cases j with
  | null => cases h
  | bool b => cases h; exact .bool b
  | number n => cases h; exact isSimple_ofNumber hj
  | string s => cases h; exact .string s
  | array items => exact absurd rfl (harray items)
  | object members => cases h; exact .object members

theorem isItem_of_ofJson {field : String} {j : Json} {v : Value} (hj : j.IsProper)
    (h : ofJson field j = .ok v) : v.IsItem := by
  cases j with
  | array items => cases h; exact .array items
  | _ => exact .scalar (isSimple_of_ofJson hj (by rintro _ ⟨⟩) h)

end Value

/-- What is not a sequence is read as a value. -/
theorem Operand.ofJson_of_ne_array {field : String} {j : Json} (h : ∀ items, j ≠ .array items) :
    ofJson field j = (Value.ofJson field j).map .single := by
  cases j with
  | array items => exact absurd rfl (h items)
  | _ => rfl

theorem Operand.isWire_of_ofJson {field : String} {j : Json} {o : Operand} (hj : j.IsProper)
    (h : ofJson field j = .ok o) : o.IsWire := by
  by_cases harray : ∃ items, j = .array items
  · obtain ⟨items, rfl⟩ := harray
    obtain ⟨vs, hvs, rfl⟩ := Rule.map_eq_ok h
    have hitems := Json.areProper_iff.1 hj
    refine .list ?_
    clear h hj
    induction items generalizing vs with
    | nil =>
      cases hvs
      exact fun _ h => (List.not_mem_nil h).elim
    | cons j rest ih =>
      obtain ⟨hj, hrest⟩ := List.forall_mem_cons.1 hitems
      rw [List.mapM_cons] at hvs
      obtain ⟨v, hv, hvs⟩ := Rule.bind_eq_ok hvs
      obtain ⟨more, hmore, hvs⟩ := Rule.bind_eq_ok hvs
      cases hvs
      exact List.forall_mem_cons.2 ⟨Value.isItem_of_ofJson hj hv, ih more hmore hrest⟩
  · have hne : ∀ items, j ≠ .array items := fun items he => harray ⟨items, he⟩
    rw [ofJson_of_ne_array hne] at h
    obtain ⟨v, hv, rfl⟩ := Rule.map_eq_ok h
    exact .single (Value.isSimple_of_ofJson hj hne hv)

theorem Rule.isWire_of_ofMembers {members : List (String × Json)} {r : Rule}
    (hmembers : Json.HaveProper members) (h : ofMembers members = .ok r) : r.operand.IsWire := by
  unfold ofMembers at h
  dsimp only at h
  split at h
  · obtain ⟨field, -, h⟩ := bind_eq_ok h
    split at h
    · obtain ⟨op, -, h⟩ := bind_eq_ok h
      split at h
      · next j hvalue =>
        obtain ⟨operand, hoperand, h⟩ := bind_eq_ok h
        cases h
        exact Operand.isWire_of_ofJson (Json.isProper_of_lookup hmembers hvalue) hoperand
      · cases h
    · cases h
  · cases h

namespace Filter

mutual

/-- **The wire has a form for what was read.** -/
theorem isWire_of_ofJson : ∀ (j : Json) (f : Filter), j.IsProper → ofJson j = .ok f → f.IsWire
  | .object members, f, hj, h => by
    rw [ofJson] at h
    split at h
    · obtain ⟨r, hr, rfl⟩ := Rule.map_eq_ok h
      intro r' hr'
      obtain rfl := List.mem_singleton.1 hr'
      exact Rule.isWire_of_ofMembers hj hr
    · obtain ⟨op, -, h⟩ := Rule.bind_eq_ok h
      obtain ⟨rules, hrules, h⟩ := Rule.bind_eq_ok h
      cases h
      exact isWire_of_rulesOf members rules hj hrules
  | .null, _, _, h | .bool _, _, _, h | .number _, _, _, h | .string _, _, _, h
  | .array _, _, _, h => by cases h
termination_by structural j => j

theorem isWire_of_rulesOf : ∀ (members : List (String × Json)) (l : List Filter),
    Json.HaveProper members → rulesOf members = .ok l → ∀ r ∈ rulesAll l, r.operand.IsWire
  | [], l, _, h => by
    cases h
    exact fun _ h => (List.not_mem_nil h).elim
  | m :: rest, l, hmembers, h => by
    rw [rulesOf] at h
    cases hm : rulesOfMember m with
    | none =>
      rw [hm] at h
      exact isWire_of_rulesOf rest l hmembers.2 h
    | some checked =>
      rw [hm] at h
      exact isWire_of_rulesOfMember m checked l hmembers.1 hm h
termination_by structural l => l

theorem isWire_of_rulesOfMember : ∀ (m : String × Json) (checked : Checked (List Filter))
    (l : List Filter), Json.HasProper m → rulesOfMember m = some checked → checked = .ok l →
      ∀ r ∈ rulesAll l, r.operand.IsWire
  | (name, j), checked, l, hm, h, hchecked => by
    rw [rulesOfMember] at h
    split at h
    · cases h
      exact isWire_of_rulesOfValue j l hm hchecked
    · cases h
termination_by structural m => m

theorem isWire_of_rulesOfValue : ∀ (j : Json) (l : List Filter), j.IsProper →
    rulesOfValue j = .ok l → ∀ r ∈ rulesAll l, r.operand.IsWire
  | .array items, l, hj, h => isWire_of_ofItems items l hj h
  | .null, l, _, h => by
    cases h
    exact fun _ h => (List.not_mem_nil h).elim
  | .bool _, _, _, h | .number _, _, _, h | .string _, _, _, h | .object _, _, _, h => by cases h
termination_by structural j => j

theorem isWire_of_ofItems : ∀ (items : List Json) (l : List Filter), Json.AreProper items →
    ofItems items = .ok l → ∀ r ∈ rulesAll l, r.operand.IsWire
  | [], l, _, h => by
    cases h
    exact fun _ h => (List.not_mem_nil h).elim
  | j :: rest, l, hitems, h => by
    rw [ofItems] at h
    obtain ⟨f, hf, h⟩ := Rule.bind_eq_ok h
    obtain ⟨more, hmore, h⟩ := Rule.bind_eq_ok h
    cases h
    rw [rulesAll]
    exact List.forall_mem_append.2
      ⟨isWire_of_ofJson j f hitems.1 hf, isWire_of_ofItems rest more hitems.2 hmore⟩
termination_by structural l => l

end

end Filter

/-- The values of an operand. -/
def Operand.values : Operand → List Value
  | .single v => [v]
  | .list vs => vs

theorem Operand.IsWire.isNull {o : Operand} (h : o.IsWire) : ∀ v ∈ o.values, v.isNull = false := by
  cases h with
  | single h =>
    intro v hv
    obtain rfl := List.mem_singleton.1 hv
    exact (Value.IsItem.scalar h).isNull
  | list h => exact fun v hv => (h v hv).isNull

/-- **Writing and reading filters.**  A filter that the wire has a form for is read back as it
was written.  Every filter that is read, from any value whose numbers are those that JSON
texts have, is one that the wire has a form for: no rule, at any depth, has a null value or a
null in its list, and the filter is read back when it is written. -/
theorem Filter.wire_exact :
    (∀ f : Filter, f.IsWire → ofJson f.toJson = .ok f) ∧
    ∀ (j : Json) (f : Filter), j.IsProper → ofJson j = .ok f →
      f.IsWire ∧ (∀ r ∈ f.rules, ∀ v ∈ r.operand.values, v.isNull = false) ∧
        ofJson f.toJson = .ok f := by
  refine ⟨ofJson_toJson, fun j f hj h => ?_⟩
  have hwire := isWire_of_ofJson j f hj h
  exact ⟨hwire, fun r hr => (hwire r hr).isNull, ofJson_toJson f hwire⟩

/-! ### A filter -/

/-- A filter with values of every kind, as it comes from a caller: the group within does not
say its rules in a sequence, and the operator of the first rule is not written as a text. -/
def callersFilter : Json :=
  .object [("op", .string "and"), ("rules", .array [
    .object [("field", .string "id"), ("op", .object [("gt", .null)]),
      ("value", .ofInt 9223372036854775808)],
    .object [("op", .string "or"), ("rules", .null)],
    .object [("field", .string "extension.tags"), ("op", .string "json_in"),
      ("value", .array [.bool true, .array [.null], .object [("n", .null)], .ofInt (-1)])]])]

/-- The filter that it stands for. -/
def callersRules : Filter :=
  .group .and [
    .rule ⟨"id", .greater, .single (.integer .u64 (some ⟨9223372036854775808, by decide⟩))⟩,
    .group .or [],
    .rule ⟨"extension.tags", .jsonOneOf, .list [.bool (some true), .json (some (.array [.null])),
      .json (some (.object [("n", .null)])), .integer .i64 (some ⟨-1, by decide⟩)]⟩]

theorem callersRules_exact :
    callersFilter.IsProper ∧ Filter.ofJson callersFilter = .ok callersRules ∧
    callersRules.IsWire ∧ Filter.ofJson callersRules.toJson = .ok callersRules ∧
    callersRules.toJson ≠ callersFilter := by
  have hproper : callersFilter.IsProper := by
    simp only [callersFilter, Json.IsProper, Json.AreProper, Json.HaveProper, Json.HasProper,
      Json.ofInt, Json.Number.IsProper]
    decide
  have hread : Filter.ofJson callersFilter = .ok callersRules := rfl
  obtain ⟨hwrites, hreads⟩ := Filter.wire_exact
  have hwire := (hreads callersFilter callersRules hproper hread).1
  exact ⟨hproper, hread, hwire, hwrites callersRules hwire, by decide⟩

end ResourceTable
