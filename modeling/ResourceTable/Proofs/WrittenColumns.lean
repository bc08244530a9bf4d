import ResourceTable.Proofs.FieldOrder
import ResourceTable.Proofs.UpdateBinding

/-!
# What a partial update writes

A column of a flattened record comes from a field: it has the content of the field, of an
optional field that is there, or the null of one that is absent.  So a plain value is never
null, and it is the zero of its type exactly if the field holds a zero.  On this rests which
columns a policy writes.

The statement names the columns in ascending order, each once, and after them the column of
the last update, which no record and no policy gets to write.

## Main definitions

* `ScalarType.zeros`: the zeros of a type.
* `Leaf.OfField`: the leaves that fields have.
* `UpdatePolicy.Writes`: which columns a policy writes.
* `assignmentsIn`: the assignments in the text of a clause.
* `UpdatePolicy.IsCarriedOut`: assignments that are what a policy writes of a record.
* `UpdatePolicy.blanking`, `UpdatePolicy.ignoring`: policies with more names.

## Main results

* `ScalarType.isZero_leaf` — the test for zeros finds the zeros of a type.
* `Record.ofField_of_flatten` — every column of a record comes from a field.
* `UpdatePolicy.writes_iff` — the test of a policy is what the policy says.
* `Record.setClause_carries_out` — **a partial update writes the columns of its policy.**
-/

namespace ResourceTable

/-! ### Zeros -/

/-- The zeros of a type: what a field holds that was never set, and of floating-point numbers
also the other zero. -/
def ScalarType.zeros : (s : ScalarType) → List s.Content
  | .single => [Binary.zero false, Binary.zero true]
  | .double => [Binary.zero false, Binary.zero true]
  | s => [s.blank]

namespace Binary

variable {f : Format}

theorem Format.pow_width (f : Format) : Nat.pow 2 f.width = 2 * f.signWeight := by
  show 2 ^ (1 + f.exponentBits + f.fractionBits) = 2 * 2 ^ (f.exponentBits + f.fractionBits)
  rw [Nat.add_assoc, Nat.pow_add, Nat.pow_one]

theorem bits_zero (negative : Bool) :
    (zero negative : Binary f).bits = if negative then f.signWeight else 0 := by
  have hpos : 0 < f.signWeight := Nat.two_pow_pos _
  show (if negative then f.signWeight + 0 else 0) % Nat.pow 2 f.width = _
  rw [f.pow_width, Nat.add_zero]
  apply Nat.mod_eq_of_lt
  split <;> omega

/-- A number is zero exactly if it is one of the two zeros. -/
theorem isZero_iff (x : Binary f) : x.isZero = true ↔ x = zero false ∨ x = zero true := by
  have heq (negative : Bool) : x = zero negative ↔
      x.bits = if negative then f.signWeight else 0 := by
    rw [← bits_zero]
    constructor
    · intro h
      rw [h]
    · intro h
      cases x
      cases hzero : (zero negative : Binary f)
      simp_all
  have hx := x.bits_lt
  rw [f.pow_width] at hx
  have hmod : x.isZero = true ↔ x.bits % f.signWeight = 0 := decide_eq_true_iff
  simp only [heq, hmod, if_true, Bool.false_eq_true, if_false]
  constructor
  · intro hmod
    by_cases hlow : x.bits < f.signWeight
    · rw [Nat.mod_eq_of_lt hlow] at hmod
      exact .inl hmod
    · rw [Nat.mod_eq_sub_mod (by omega), Nat.mod_eq_of_lt (by omega)] at hmod
      right
      omega
  · rintro (h | h)
    · rw [h, Nat.zero_mod]
    · rw [h, Nat.mod_self]

end Binary

namespace ScalarType

variable {s : ScalarType} {x : s.Content}

/-- A plain value is there. -/
theorem isNull_leaf (h : (s.leaf x).kind = .scalar) : (s.leaf x).isNull = false := by
  cases s with
  | json | document => cases h
  | _ => rfl

/-- **The test for zeros finds the zeros of a type.** -/
theorem isZero_leaf (h : (s.leaf x).kind = .scalar) :
    (s.leaf x).value.isZero = true ↔ x ∈ s.zeros := by
  have hbinary {f : Binary.Format} (y : Binary f) :
      y.isZero = true ↔ y ∈ [Binary.zero false, Binary.zero true] := by
    simp [Binary.isZero_iff]
  cases s with
  | json | document => cases h
  | single => exact hbinary x
  | double => exact hbinary x
  | bool =>
    have hbool (b : Bool) : (!b) = true ↔ b ∈ [false] := by simp
    exact hbool x
  | integer t =>
    have hinteger (n : FixedInt t) : (n.val == 0) = true ↔ n ∈ [FixedInt.zero t] := by
      simp [FixedInt.ext_iff, FixedInt.zero]
    exact hinteger x
  | char =>
    have hchar (c : Char) : (c.toNat == 0) = true ↔ c ∈ [Char.ofNat 0] := by
      rw [beq_iff_eq, List.mem_singleton]
      constructor
      · intro hc
        rw [← Char.ofNat_toNat c, hc]
      · intro hc
        rw [hc]
        rfl
    exact hchar x
  | string =>
    have hstring (t : String) : t.isEmpty = true ↔ t ∈ [""] := by simp
    exact hstring x
  | bytes =>
    have hbytes (l : List UInt8) : l.isEmpty = true ↔ l ∈ [[]] := by simp
    exact hbytes x
  | timestamp =>
    have htimestamp (t : Timestamp) : (t == .epoch) = true ↔ t ∈ [Timestamp.epoch] := by simp
    exact htimestamp x
  | date =>
    have hdate (d : Date) : (d == .epoch) = true ↔ d ∈ [Date.epoch] := by simp
    exact hdate x

end ScalarType

/-! ### Leaves that fields have -/

namespace Leaf

/-- A leaf that a field has: its content, that of an optional field, or a null. -/
inductive OfField : Leaf → Prop
  /-- The content of a field. -/
  | plain (s : ScalarType) (x : s.Content) : OfField (s.leaf x)
  /-- The content of an optional field that is there. -/
  | optional (s : ScalarType) (x : s.Content) : OfField (s.leaf x).asOptional
  /-- A field that is absent. -/
  | absent (s : ScalarType) : OfField s.absentLeaf

/-- A plain value that is a zero of its type. -/
def IsZero (leaf : Leaf) : Prop := ∃ (s : ScalarType), ∃ x ∈ s.zeros, leaf = s.leaf x

namespace OfField

variable {leaf : Leaf}

/-- What is plain is the content of a field. -/
theorem exists_content (h : leaf.OfField) (hkind : leaf.kind = .scalar) :
    ∃ (s : ScalarType) (x : s.Content), leaf = s.leaf x := by
  cases h with
  | plain s x => exact ⟨s, x, rfl⟩
  | optional s x => cases s <;> cases hkind
  | absent s => cases s <;> cases hkind

theorem isNull_eq_false (h : leaf.OfField) (hkind : leaf.kind = .scalar) :
    leaf.isNull = false := by
  obtain ⟨s, x, rfl⟩ := h.exists_content hkind
  exact ScalarType.isNull_leaf hkind

theorem isZero_iff (h : leaf.OfField) (hkind : leaf.kind = .scalar) :
    leaf.value.isZero = true ↔ leaf.IsZero := by
  obtain ⟨s, x, rfl⟩ := h.exists_content hkind
  constructor
  · intro hzero
    exact ⟨s, x, (ScalarType.isZero_leaf hkind).1 hzero, rfl⟩
  · rintro ⟨t, y, hy, heq⟩
    rw [heq] at hkind ⊢
    exact (ScalarType.isZero_leaf hkind).2 hy

end OfField

end Leaf

section Origin

theorem FieldType.ofField_of_leafType? (column : String) (t : FieldType) :
    ∀ entry ∈ FieldVisit.leaves (t.leafType?.map (FieldVisit.absent column)).toList,
      entry.2.OfField := by
  intro entry hentry
  cases hs : t.leafType? with
  | none => simp [hs, FieldVisit.leaves] at hentry
  | some s =>
    have he : entry = (column, s.absentLeaf) := by
      simpa [hs, FieldVisit.leaves, FieldVisit.leaf?] using hentry
    rw [he]
    exact .absent s

mutual

theorem FieldType.ofField_of_mem_leaves (column : String) : ∀ (t : FieldType) (mayLack : Bool)
    (x : t.Content), ∀ entry ∈ FieldVisit.leaves (t.visits column mayLack x), entry.2.OfField
  | .scalar s, mayLack, x => by
    intro entry hentry
    rw [List.mem_singleton.1 hentry]
    cases mayLack with
    | false => exact .plain s x
    | true => exact .optional s x
  | .optional t, _, none => t.ofField_of_leafType? column
  | .optional t, _, some x => t.ofField_of_mem_leaves column true x
  | .record name fields, _, x => fields.ofField_of_mem_leaves name x

/-- Every leaf that is visited comes from a field. -/
theorem Fields.ofField_of_mem_leaves (name : String) : ∀ (fields : Fields) (x : fields.Content),
    ∀ entry ∈ FieldVisit.leaves (fields.visits name x), entry.2.OfField
  | .nil, _ => by
    intro entry hentry
    cases hentry
  | .cons _ none _ rest, (_, xs) => rest.ofField_of_mem_leaves name xs
  | .cons _ (some column) t rest, (x, xs) => by
    intro entry hentry
    rw [Fields.visits, FieldVisit.leaves, List.filterMap_append, List.mem_append] at hentry
    rcases hentry with hentry | hentry
    · exact t.ofField_of_mem_leaves column false x entry hentry
    · exact rest.ofField_of_mem_leaves name xs entry hentry

end

/-- **Every column of a record comes from a field.** -/
theorem Record.ofField_of_flatten {r : Record} {flat : Flattened} (h : r.flatten = .ok flat)
    {column : String} {leaf : Leaf} (hleaf : flat.get? column = some leaf) : leaf.OfField := by
  rw [r.flatten_eq_ok h, get?_ofList_eq_some] at hleaf
  obtain ⟨before, after, hleaves, -⟩ := hleaf
  apply r.type.fields.ofField_of_mem_leaves r.type.name r.content (column, leaf)
  have hmem : (column, leaf) ∈ FieldVisit.leaves r.visits := by
    rw [hleaves]
    simp
  exact hmem

end Origin

/-! ### What a policy says -/

namespace UpdatePolicy

variable {policy : UpdatePolicy} {flat : Flattened} {column : String} {leaf : Leaf}

/-- The policy writes the column: it is not that of the last update and not left alone, and if
it may be blanked then it is a document or not null, and if not then it is a plain value that
is not zero, or another one that is not null. -/
def Writes (policy : UpdatePolicy) (column : String) (leaf : Leaf) : Prop :=
  column ≠ updatedAt ∧ column ∉ policy.ignored ∧
    (column ∈ policy.blanked ∧ (leaf.kind = .codec ∨ leaf.isNull = false) ∨
      column ∉ policy.blanked ∧ (leaf.kind = .scalar ∧ ¬ leaf.IsZero ∨
        leaf.kind ≠ .scalar ∧ leaf.isNull = false))

/-- What a value has to be for the update to write it. -/
theorem changes_iff (h : leaf.OfField) : changes leaf = true ↔
    leaf.kind = .scalar ∧ ¬ leaf.IsZero ∨ leaf.kind ≠ .scalar ∧ leaf.isNull = false := by
  unfold changes
  cases hkind : leaf.kind with
  | scalar =>
    rw [← h.isZero_iff hkind]
    simp
  | optional => simp
  | codec => simp

/-- **The test of a policy is what the policy says.** -/
theorem writes_iff (h : leaf.OfField) :
    policy.writes column leaf = true ↔ policy.Writes column leaf := by
  unfold writes Writes
  rw [← changes_iff h]
  by_cases hat : column = updatedAt
  · simp [hat]
  by_cases hignored : column ∈ policy.ignored
  · simp [hignored]
  by_cases hblanked : column ∈ policy.blanked
  · simp [hat, hignored, hblanked, blanks]
  · simp [hat, hignored, hblanked]

/-- The policy with more columns that may be blanked. -/
def blanking (policy : UpdatePolicy) (names : List String) : UpdatePolicy :=
  { policy with blanked := policy.blanked ++ names }

/-- The policy with more columns that are left alone. -/
def ignoring (policy : UpdatePolicy) (names : List String) : UpdatePolicy :=
  { policy with ignored := policy.ignored ++ names }

/-- **A column that may also be blanked is still written.** -/
theorem Writes.blanking (h : policy.Writes column leaf) (hleaf : leaf.OfField)
    (names : List String) : (policy.blanking names).Writes column leaf := by
  obtain ⟨hat, hignored, hvalue⟩ := h
  refine ⟨hat, hignored, ?_⟩
  by_cases hmem : column ∈ (policy.blanking names).blanked
  · refine .inl ⟨hmem, ?_⟩
    rcases hvalue with ⟨-, hvalue⟩ | ⟨-, ⟨hkind, -⟩ | ⟨-, hnull⟩⟩
    · exact hvalue
    · exact .inr (hleaf.isNull_eq_false hkind)
    · exact .inr hnull
  · have hnot : column ∉ policy.blanked := fun hold => hmem (List.mem_append_left _ hold)
    exact .inr ⟨hmem, (hvalue.resolve_left fun hold => hnot hold.1).2⟩

/-- The policy writes no column of the record. -/
def WritesNothing (policy : UpdatePolicy) (flat : Flattened) : Prop :=
  ∀ column leaf, flat.get? column = some leaf → ¬ policy.Writes column leaf

/-! ### The columns that are written -/

theorem mem_written :
    (column, leaf) ∈ policy.written flat ↔
      flat.get? column = some leaf ∧ policy.writes column leaf = true := by
  rw [written, List.mem_filter, NameMap.get?_eq_some_iff]

theorem written_ascending (policy : UpdatePolicy) (flat : Flattened) :
    (policy.written flat).Pairwise fun a b => a.1 < b.1 :=
  flat.sorted.filter _

section Columns

variable (hleaves : ∀ {column leaf}, flat.get? column = some leaf → leaf.OfField)

include hleaves

theorem mem_columns_written :
    column ∈ (policy.written flat).map Prod.fst ↔
      ∃ leaf, flat.get? column = some leaf ∧ policy.Writes column leaf := by
  constructor
  · intro hcolumn
    obtain ⟨⟨_, leaf⟩, hentry, rfl⟩ := List.mem_map.1 hcolumn
    obtain ⟨hleaf, hwrites⟩ := mem_written.1 hentry
    exact ⟨leaf, hleaf, (writes_iff (hleaves hleaf)).1 hwrites⟩
  · rintro ⟨leaf, hleaf, hwrites⟩
    exact List.mem_map.2 ⟨(column, leaf),
      mem_written.2 ⟨hleaf, (writes_iff (hleaves hleaf)).2 hwrites⟩, rfl⟩

theorem columns_written_eq_nil_iff :
    (policy.written flat).map Prod.fst = [] ↔ policy.WritesNothing flat := by
  rw [List.eq_nil_iff_forall_not_mem]
  simp only [mem_columns_written hleaves]
  constructor
  · intro h column leaf hleaf hwrites
    exact h column ⟨leaf, hleaf, hwrites⟩
  · rintro h column ⟨leaf, hleaf, hwrites⟩
    exact h column leaf hleaf hwrites

/-- **More columns that may be blanked take no column away.** -/
theorem columns_written_blanking (names : List String)
    (h : column ∈ (policy.written flat).map Prod.fst) :
    column ∈ ((policy.blanking names).written flat).map Prod.fst := by
  rw [mem_columns_written hleaves] at h ⊢
  obtain ⟨leaf, hleaf, hwrites⟩ := h
  exact ⟨leaf, hleaf, hwrites.blanking (hleaves hleaf) names⟩

end Columns

/-- **More columns that are left alone take these columns away and no others.** -/
theorem columns_written_ignoring (policy : UpdatePolicy) (flat : Flattened)
    (names : List String) :
    ((policy.ignoring names).written flat).map Prod.fst =
      ((policy.written flat).map Prod.fst).filter fun column => column ∉ names := by
  rw [written, written, List.filter_map, List.filter_filter]
  apply congrArg (List.map Prod.fst)
  apply List.filter_congr
  rintro ⟨column, leaf⟩ -
  simp only [Function.comp_apply, writes, ignoring]
  by_cases hat : column = updatedAt
  · simp [hat]
  by_cases hignored : column ∈ policy.ignored
  · simp [hignored]
  by_cases hnew : column ∈ names
  · simp [hnew]
  · simp [hat, hignored, hnew]

end UpdatePolicy

/-! ### The text of the assignments -/

/-- The text of the assignments to some columns, and of that of the time of the update. -/
def setText (columns : List String) : String :=
  "SET " ++ String.intercalate ", " (columns.map assignment ++ [updatedAt ++ " = now()"])

/-- The assignments between commas, each with what is before and after the equals sign. -/
def assignmentsOf (cs : List Char) : List (String × String) :=
  (splitAtMark ',' (cs.filter (· ≠ ' '))).filterMap fun part =>
    (cutAtMark '=' part).map fun sides => (String.ofList sides.1, String.ofList sides.2)

/-- The assignments in a text, after the keyword. -/
def assignmentsIn (sql : String) : List (String × String) := assignmentsOf (sql.toList.drop 4)

section Texts

theorem notMem_of_isBareName {cs : List Char} (h : isBareName cs = true) {c : Char}
    (hc : isNamePart c = false) : c ∉ cs := by
  intro hmem
  rw [isNamePart_of_isBareName h c hmem] at hc
  cases hc

/-- An assignment is read off the front of a text. -/
theorem assignmentsOf_cons {column : String} (h : isBareName column.toList = true)
    (rest : List Char) :
    assignmentsOf ((assignment column).toList ++ (", ".toList ++ rest)) =
      (column, ":" ++ column) :: assignmentsOf rest := by
  have hblank : ∀ c ∈ column.toList, c ≠ ' ' := by
    rintro c hc rfl
    exact notMem_of_isBareName h (by decide) hc
  have hcomma : ',' ∉ column.toList ++ '=' :: ':' :: column.toList := by
    have hnot := notMem_of_isBareName h (c := ',') (by decide)
    simp [hnot]
  have hfront : ((assignment column).toList ++ (", ".toList ++ rest)).filter (· ≠ ' ') =
      (column.toList ++ '=' :: ':' :: column.toList) ++ ',' :: rest.filter (· ≠ ' ') := by
    have hfilter : column.toList.filter (· ≠ ' ') = column.toList := by simpa using hblank
    have htext : (assignment column).toList =
        column.toList ++ (' ' :: '=' :: ' ' :: ':' :: column.toList) := by
      simp [assignment]
    rw [htext, List.filter_append, List.filter_append, hfilter]
    simpa using hblank
  have hcut : cutAtMark '=' (column.toList ++ '=' :: ':' :: column.toList) =
      some (column.toList, ':' :: column.toList) :=
    cutAtMark_append (notMem_of_isBareName h (by decide))
  have hvalue : String.ofList (':' :: column.toList) = ":" ++ column := by
    rw [← String.toList_inj]
    simp
  rw [assignmentsOf, hfront, splitAtMark_append hcomma, List.filterMap_cons, hcut]
  simp [assignmentsOf, hvalue]

/-- **The text holds the assignments to its columns, and then that of the time.** -/
theorem assignmentsIn_setText {columns : List String}
    (h : ∀ column ∈ columns, isBareName column.toList = true) :
    assignmentsIn (setText columns) =
      columns.map (fun column => (column, ":" ++ column)) ++ [(updatedAt, "now()")] := by
  have hkeyword (text : String) : ("SET " ++ text).toList.drop 4 = text.toList := by
    rw [String.toList_append]
    rfl
  rw [assignmentsIn, setText, hkeyword]
  induction columns with
  | nil => decide +kernel
  | cons column rest ih =>
    have hrest : ∀ column ∈ rest, isBareName column.toList = true :=
      fun column hcolumn => h column (List.mem_cons_of_mem _ hcolumn)
    -- There is a part after the column, that of the time at least.
    have hcons : String.intercalate ", "
          ((column :: rest).map assignment ++ [updatedAt ++ " = now()"]) =
        assignment column ++ ", " ++
          String.intercalate ", " (rest.map assignment ++ [updatedAt ++ " = now()"]) := by
      cases rest <;> exact String.intercalate_cons_cons
    rw [hcons, String.toList_append, String.toList_append, List.append_assoc,
      assignmentsOf_cons (h column List.mem_cons_self), ih hrest]
    rfl

end Texts

/-! ### A partial update -/

/-- Entries in ascending order are a map as they are. -/
theorem NameMap.entries_ofList {α : Type} {l : List (String × α)}
    (h : l.Pairwise fun a b => a.1 < b.1) : (ofList l).entries = l := by
  have hnodup : (l.map Prod.fst).Nodup := by
    rw [List.Nodup, List.pairwise_map]
    apply h.imp
    intro a b hlt he
    rw [he] at hlt
    exact String.lt_irrefl _ hlt
  apply eq_of_pairwise_of_mem_iff (ofList l).sorted h
  rintro ⟨name, value⟩
  rw [← get?_eq_some_iff, get?_ofList hnodup, lookup_eq_some_iff h]

/-- The assignments are what the policy writes of a flattened record. -/
structure UpdatePolicy.IsCarriedOut (policy : UpdatePolicy) (flat : Flattened)
    (set : SetClause) : Prop where
  /-- The columns ascend, each once. -/
  ascending : set.columns.Pairwise (· < ·)
  /-- They are the columns that the policy writes, -/
  columns : ∀ column, column ∈ set.columns ↔
    ∃ leaf, flat.get? column = some leaf ∧ policy.Writes column leaf
  /-- and not that of the last update. -/
  stamp : updatedAt ∉ set.columns
  /-- The columns are what values are bound to, -/
  keys : set.params.keys = set.columns
  /-- and these are the values of the record. -/
  values : ∀ column ∈ set.columns, ∃ leaf, flat.get? column = some leaf ∧
    set.params.get? column = some (.single leaf.value)
  /-- The text has the assignments in the order of the columns. -/
  text : set.sql = setText set.columns
  /-- If names can be placeholders, then the placeholders are the columns in their order, -/
  placeholders : (∀ column ∈ set.columns, isBareName column.toList = true) →
    Placeholder.names set.sql = set.columns
  /-- and a reader finds them assigned, and then the column of the last update. -/
  assigned : (∀ column ∈ set.columns, isBareName column.toList = true) →
    assignmentsIn set.sql =
      set.columns.map (fun column => (column, ":" ++ column)) ++ [(updatedAt, "now()")]

section Update

variable {policy : UpdatePolicy} {flat : Flattened}

/-- The assignments to the columns that a policy writes. -/
def UpdatePolicy.setClause (policy : UpdatePolicy) (flat : Flattened) : SetClause where
  sql := setText ((policy.written flat).map Prod.fst)
  params := .ofList ((policy.written flat).map fun entry => (entry.1, .single entry.2.value))
  columns := (policy.written flat).map Prod.fst

theorem Record.setClause_of_flatten {record : Record} (h : record.flatten = .ok flat)
    (policy : UpdatePolicy) : record.setClause policy =
      if policy.requireChange = true ∧ (policy.written flat).map Prod.fst = [] then
        .error (.nothingChanged record.name)
      else .ok (policy.setClause flat) := by
  unfold Record.setClause
  rw [h]
  simp only [bind, Except.bind]
  split
  · rfl
  · rfl

theorem UpdatePolicy.entries_params (policy : UpdatePolicy) (flat : Flattened) :
    (policy.setClause flat).params.entries =
      (policy.written flat).map fun entry => (entry.1, .single entry.2.value) := by
  apply NameMap.entries_ofList
  rw [List.pairwise_map]
  exact policy.written_ascending flat

theorem UpdatePolicy.names_setClause (policy : UpdatePolicy) (flat : Flattened)
    (hbare : ∀ column ∈ (policy.setClause flat).columns, isBareName column.toList = true) :
    Placeholder.names (policy.setClause flat).sql = (policy.setClause flat).columns := by
  let written := policy.written flat
  have hnamed : Named (policy.setClause flat).params (assignmentsInks written) := by
    apply named_assignmentsInks
    · intro entry hentry
      exact hbare entry.1 (List.mem_map_of_mem hentry)
    · intro entry hentry
      rw [NameMap.get?_eq_some_iff, policy.entries_params]
      exact List.mem_map.2 ⟨entry, hentry, rfl⟩
  have htext : (policy.setClause flat).sql = "SET" ++ " " ++ namedText (assignmentsInks written) := by
    rw [print_assignmentsInks]
    rfl
  have hkeyword : Placeholder.IsInert "SET" := by decide
  have hled := Query.placeholders_ledBy
    ⟨namedText (assignmentsInks written), (policy.setClause flat).params⟩ hkeyword
  rw [hnamed.placeholders_eq, holesOf_assignmentsInks, List.map_map] at hled
  rw [htext]
  exact hled

/-- **What a policy writes of a record is carried out.** -/
theorem UpdatePolicy.isCarriedOut
    (hleaves : ∀ {column leaf}, flat.get? column = some leaf → leaf.OfField) :
    policy.IsCarriedOut flat (policy.setClause flat) := by
  refine ⟨?ascending, ?columns, ?stamp, ?keys, ?values, rfl, policy.names_setClause flat,
    assignmentsIn_setText⟩
  case ascending =>
    apply List.pairwise_map.2
    exact policy.written_ascending flat
  case columns =>
    intro column
    exact mem_columns_written hleaves
  case stamp =>
    intro hmem
    obtain ⟨leaf, -, hwrites⟩ := (mem_columns_written hleaves).1 hmem
    exact hwrites.1 rfl
  case keys =>
    rw [NameMap.keys, policy.entries_params, List.map_map]
    rfl
  case values =>
    intro column hcolumn
    obtain ⟨⟨_, leaf⟩, hentry, rfl⟩ := List.mem_map.1 hcolumn
    refine ⟨leaf, (mem_written.1 hentry).1, ?_⟩
    rw [NameMap.get?_eq_some_iff, policy.entries_params]
    exact List.mem_map.2 ⟨_, hentry, rfl⟩

end Update

/-- **A partial update writes the columns of its policy.**  It is an invalid parameter exactly
if the policy wants a change and there is none; otherwise what the policy writes is carried
out.  With more columns that may be blanked nothing that was written is left out, and with more
columns that are left alone just these are. -/
theorem Record.setClause_carries_out {record : Record} {flat : Flattened}
    (hflat : record.flatten = .ok flat) (policy : UpdatePolicy) :
    ((∃ e, record.setClause policy = .error e ∧ e.kind = .invalidParameter) ↔
      policy.requireChange = true ∧ policy.WritesNothing flat) ∧
    (¬ (policy.requireChange = true ∧ policy.WritesNothing flat) →
      ∃ set, record.setClause policy = .ok set ∧ policy.IsCarriedOut flat set) ∧
    ∀ set, record.setClause policy = .ok set → ∀ names,
      (∃ more, record.setClause (policy.blanking names) = .ok more ∧
        ∀ column ∈ set.columns, column ∈ more.columns) ∧
      ∀ less, record.setClause (policy.ignoring names) = .ok less →
        less.columns = set.columns.filter fun column => column ∉ names := by
  have hleaves {column : String} {leaf : Leaf} (h : flat.get? column = some leaf) :
      leaf.OfField := record.ofField_of_flatten hflat h
  have hiff (policy : UpdatePolicy) :
      policy.requireChange = true ∧ (policy.written flat).map Prod.fst = [] ↔
        policy.requireChange = true ∧ policy.WritesNothing flat := by
    rw [UpdatePolicy.columns_written_eq_nil_iff hleaves]
  have hnothing {policy : UpdatePolicy} (h : policy.requireChange = true ∧
      policy.WritesNothing flat) : record.setClause policy = .error (.nothingChanged record.name) :=
    (record.setClause_of_flatten hflat policy).trans (if_pos ((hiff policy).2 h))
  have hchange {policy : UpdatePolicy} (h : ¬ (policy.requireChange = true ∧
      policy.WritesNothing flat)) : record.setClause policy = .ok (policy.setClause flat) :=
    (record.setClause_of_flatten hflat policy).trans (if_neg fun hnone => h ((hiff policy).1 hnone))
  -- An update that is made changes something, or need not, and is what the policy writes.
  have hmade {policy : UpdatePolicy} {set : SetClause} (h : record.setClause policy = .ok set) :
      ¬ (policy.requireChange = true ∧ policy.WritesNothing flat) ∧
        set = policy.setClause flat := by
    by_cases hnone : policy.requireChange = true ∧ policy.WritesNothing flat
    · rw [hnothing hnone] at h
      cases h
    · rw [hchange hnone] at h
      exact ⟨hnone, (Except.ok.inj h).symm⟩
  refine ⟨⟨?refused, ?empty⟩, ?carried, ?more⟩
  case refused =>
    rintro ⟨e, he, -⟩
    by_contra hnone
    rw [hchange hnone] at he
    cases he
  case empty =>
    intro hnone
    exact ⟨_, hnothing hnone, rfl⟩
  case carried =>
    intro hnone
    exact ⟨_, hchange hnone, UpdatePolicy.isCarriedOut hleaves⟩
  case more =>
    intro set hset names
    obtain ⟨hnone, rfl⟩ := hmade hset
    refine ⟨⟨_, hchange ?_, ?_⟩, ?_⟩
    · rintro ⟨hrequire, hwrites⟩
      refine hnone ⟨hrequire, ?_⟩
      intro column leaf hleaf hold
      exact hwrites column leaf hleaf (hold.blanking (hleaves hleaf) names)
    · intro column hcolumn
      exact UpdatePolicy.columns_written_blanking hleaves names hcolumn
    · intro less hless
      obtain ⟨-, rfl⟩ := hmade hless
      exact policy.columns_written_ignoring flat names

/-! ### A record with values of every kind -/

/-- New values for a host: some are zeros, some are absent, one is within a record and one is
for the column of the last update. -/
def patchedHost : Record where
  type := ⟨"Host", .cons "name" (some "name") (.scalar .string)
    (.cons "cores" (some "cores") (.scalar (.integer .i64))
      (.cons "owner" (some "owner") (.scalar .string)
        (.cons "place" (some "place") (.record "Place"
          (.cons "region" (some "region") (.optional (.scalar .string))
            (.cons "zones" (some "zones") (.optional (.scalar (.integer .u32))) .nil)))
          (.cons "extension" (some "extension") (.scalar .json)
            (.cons "labels" (some "labels") (.scalar .json)
              (.cons "updated" (some "updated_at") (.scalar .string) .nil))))))⟩
  content := ("", FixedInt.zero .i64, "ops", (some "", none, ()), Json.null, Json.null,
    "2020-01-01T00:00:00Z", ())

/-- A policy that lets some of them be cleared. -/
def clearingPolicy : UpdatePolicy where
  blanked := ["extension", "name", "updated_at", "zones"]
  ignored := ["place"]
  requireChange := true

/-- What is assigned to the host. -/
def clearingAssignments : SetClause where
  sql := "SET extension = :extension, name = :name, owner = :owner, region = :region, " ++
    "updated_at = now()"
  params := .ofList [("extension", .single (.json none)), ("name", .single (.text "")),
    ("owner", .single (.text "ops")), ("region", .single (.text ""))]
  columns := ["extension", "name", "owner", "region"]

/-- What is assigned to it but for its owner. -/
def ownerlessAssignments : SetClause where
  sql := "SET extension = :extension, name = :name, region = :region, updated_at = now()"
  params := .ofList [("extension", .single (.json none)), ("name", .single (.text "")),
    ("region", .single (.text ""))]
  columns := ["extension", "name", "region"]

theorem patchedHost_carries_out :
    ∃ flat, patchedHost.flatten = .ok flat ∧
      patchedHost.setClause clearingPolicy = .ok clearingAssignments ∧
      clearingPolicy.IsCarriedOut flat clearingAssignments ∧
      Placeholder.names clearingAssignments.sql = ["extension", "name", "owner", "region"] ∧
      (∃ more, patchedHost.setClause (clearingPolicy.blanking ["cores"]) = .ok more ∧
        "owner" ∈ more.columns) ∧
      patchedHost.setClause (clearingPolicy.ignoring ["owner"]) = .ok ownerlessAssignments ∧
      ownerlessAssignments.columns = clearingAssignments.columns.filter (· ∉ ["owner"]) := by
  have hset : patchedHost.setClause clearingPolicy = .ok clearingAssignments := by decide +kernel
  have hless : patchedHost.setClause (clearingPolicy.ignoring ["owner"]) =
      .ok ownerlessAssignments := by decide +kernel
  obtain ⟨flat, hflat, -⟩ := setClause_eq hset
  obtain ⟨hrefused, hcarried, hnames⟩ := patchedHost.setClause_carries_out hflat clearingPolicy
  have hsome : ¬ (clearingPolicy.requireChange = true ∧ clearingPolicy.WritesNothing flat) := by
    rw [← hrefused, hset]
    rintro ⟨e, he, -⟩
    cases he
  obtain ⟨set, hset', hdone⟩ := hcarried hsome
  obtain rfl := Except.ok.inj (hset.symm.trans hset')
  obtain ⟨more, hmore, hkept⟩ := (hnames _ hset ["cores"]).1
  refine ⟨flat, hflat, hset, hdone, hdone.placeholders (by decide), ⟨more, hmore, ?_⟩, hless,
    (hnames _ hset ["owner"]).2 _ hless⟩
  exact hkept "owner" (by decide)

end ResourceTable
