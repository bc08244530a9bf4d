import ResourceTable.Proofs.FlatRecord

/-!
# The order of fields

Flattening visits the fields of a record in the order of their declaration.  A record that is
a field is visited in its place, field by field, and one that is absent is passed over.  The
visit of a field without a column is an error, whatever the field holds; any other visit
stores a leaf.  So the first field without a column is reported, and if there is none then
every column keeps its last leaf.

## Main definitions

* `FieldVisit`: what flattening meets on its way.
* `Record.visits`: the visits of a record, in order.
* `FirstUnmapped`, `LastLeaf`: the first field without a column and the last leaf of a column.
* `Record.hollowed`: the record with no fields in the records that are absent.

## Main results

* `Fields.store_eq_visiting` — storing a record makes its visits, one after the other.
* `visiting_of_firstUnmapped`, `visiting_of_mapped` — what a run of visits comes to.
* `Fields.visits_hollowed` — nothing in a record that is absent is visited.
* `Record.flatten_in_order` — **the first field without a column is reported, or else every
  column keeps its last leaf.**
-/

namespace ResourceTable

/-! ### Visits -/

/-- What flattening meets on its way. -/
inductive FieldVisit
  /-- A field without a column, of the record `record`. -/
  | unmapped (record field : String)
  /-- A leaf with a content. -/
  | stored (column : String) (leaf : Leaf)
  /-- A leaf that is absent. -/
  | absent (column : String) (type : ScalarType)

namespace FieldVisit

/-- The leaf that is met, with its column. -/
def leaf? : FieldVisit → Option (String × Leaf)
  | unmapped _ _ => none
  | stored column leaf => some (column, leaf)
  | absent column s => some (column, s.absentLeaf)

/-- What the visit does to the columns so far. -/
def visit (flat : Flattened) : FieldVisit → Checked Flattened
  | unmapped record field => .error (.unmappedField record field)
  | stored column leaf => .ok (flat.insert column leaf)
  | absent column s => .ok (flat.insert column s.absentLeaf)

/-- The leaves that are met, in order. -/
def leaves (visits : List FieldVisit) : List (String × Leaf) := visits.filterMap leaf?

end FieldVisit

/-- The type of the leaf that an absent field is; a record is not a leaf. -/
def FieldType.leafType? : FieldType → Option ScalarType
  | .scalar s => some s
  | .optional t => t.leafType?
  | .record _ _ => none

mutual

/-- The visits of a field that is stored under a column; `mayLack` says that it is the inside
of an optional one. -/
def FieldType.visits (column : String) :
    (t : FieldType) → (mayLack : Bool) → t.Content → List FieldVisit
  | .scalar s, mayLack, x => [.stored column (if mayLack then (s.leaf x).asOptional else s.leaf x)]
  | .optional t, _, x =>
    match x with
    | none => (t.leafType?.map (FieldVisit.absent column)).toList
    | some x => t.visits column true x
  | .record name fields, _, x => fields.visits name x

/-- The visits of the fields of the record `name`, in the order of their declaration. -/
def Fields.visits (name : String) : (fields : Fields) → fields.Content → List FieldVisit
  | .nil, _ => []
  | .cons field none _ rest, (_, xs) => .unmapped name field :: rest.visits name xs
  | .cons _ (some column) t rest, (x, xs) => t.visits column false x ++ rest.visits name xs

end

/-- The visits of a record. -/
def Record.visits (r : Record) : List FieldVisit := r.type.fields.visits r.type.name r.content

/-- Of the fields without a column `field` of `record` is the first one that is visited. -/
def FirstUnmapped (record field : String) (visits : List FieldVisit) : Prop :=
  ∃ before after, visits = before ++ .unmapped record field :: after ∧
    ∀ other name, FieldVisit.unmapped other name ∉ before

/-- Of the leaves of the column this is the last one. -/
def LastLeaf (column : String) (leaf : Leaf) (leaves : List (String × Leaf)) : Prop :=
  ∃ before after, leaves = before ++ (column, leaf) :: after ∧
    ∀ later ∈ after, later.1 ≠ column

/-! ### A run of visits -/

section Runs

variable {flat : Flattened} {visits : List FieldVisit}

/-- Makes visits one after the other, up to an error. -/
def Flattened.visiting (flat : Flattened) (visits : List FieldVisit) : Checked Flattened :=
  visits.foldlM FieldVisit.visit flat

theorem Flattened.visiting_append (flat : Flattened) (visits more : List FieldVisit) :
    flat.visiting (visits ++ more) = flat.visiting visits >>= fun flat => flat.visiting more :=
  List.foldlM_append

/-- A field with a column has a leaf, and that is stored. -/
theorem FieldVisit.exists_leaf {v : FieldVisit} (h : ∀ record field, v ≠ .unmapped record field) :
    ∃ entry, v.leaf? = some entry ∧ ∀ flat, v.visit flat = .ok (flat.insert entry.1 entry.2) := by
  cases v with
  | unmapped record field => exact absurd rfl (h record field)
  | stored column leaf => exact ⟨_, rfl, fun _ => rfl⟩
  | absent column s => exact ⟨_, rfl, fun _ => rfl⟩

/-- **If every field has a column, then the leaves are stored one after the other.** -/
theorem visiting_of_mapped (h : ∀ record field, FieldVisit.unmapped record field ∉ visits) :
    flat.visiting visits =
      .ok ((FieldVisit.leaves visits).foldl (fun flat entry => flat.insert entry.1 entry.2) flat) := by
  induction visits generalizing flat with
  | nil => rfl
  | cons v rest ih =>
    have hv : ∀ record field, v ≠ .unmapped record field := by
      intro record field he
      exact h record field (he ▸ List.mem_cons_self)
    obtain ⟨entry, hleaf, hvisit⟩ := FieldVisit.exists_leaf hv
    have hrest : ∀ record field, FieldVisit.unmapped record field ∉ rest :=
      fun record field hmem => h record field (List.mem_cons_of_mem _ hmem)
    rw [Flattened.visiting, List.foldlM_cons, hvisit, FieldVisit.leaves,
      List.filterMap_cons_some hleaf, List.foldl_cons]
    exact ih hrest

/-- **The first field without a column ends the run.** -/
theorem visiting_of_firstUnmapped {record field : String} (h : FirstUnmapped record field visits) :
    flat.visiting visits = .error (.unmappedField record field) := by
  obtain ⟨before, after, rfl, hbefore⟩ := h
  rw [Flattened.visiting_append, visiting_of_mapped hbefore]
  rfl

/-- Unless every field has a column, there is a first one without. -/
theorem firstUnmapped_or_mapped (visits : List FieldVisit) :
    (∃ record field, FirstUnmapped record field visits) ∨
      ∀ record field, FieldVisit.unmapped record field ∉ visits := by
  induction visits with
  | nil => exact .inr fun _ _ => List.not_mem_nil
  | cons v rest ih =>
    by_cases hv : ∃ record field, FieldVisit.unmapped record field = v
    · obtain ⟨record, field, rfl⟩ := hv
      exact .inl ⟨record, field, [], rest, rfl, fun _ _ => List.not_mem_nil⟩
    · push Not at hv
      rcases ih with ⟨record, field, before, after, rfl, hbefore⟩ | hrest
      · left
        refine ⟨record, field, v :: before, after, rfl, ?_⟩
        simp [hv, hbefore]
      · right
        simp [hv, hrest]

end Runs

/-! ### The last leaf of a column -/

section LastLeaves

theorem lastLeaf_cons {column : String} {leaf : Leaf} {entry : String × Leaf}
    {rest : List (String × Leaf)} :
    LastLeaf column leaf (entry :: rest) ↔
      LastLeaf column leaf rest ∨
        entry = (column, leaf) ∧ ∀ later ∈ rest, later.1 ≠ column := by
  constructor
  · rintro ⟨before, after, heq, hafter⟩
    cases before with
    | nil =>
      cases heq
      exact .inr ⟨rfl, hafter⟩
    | cons first before =>
      cases heq
      exact .inl ⟨before, after, rfl, hafter⟩
  · rintro (⟨before, after, rfl, hafter⟩ | ⟨rfl, hrest⟩)
    · exact ⟨entry :: before, after, rfl, hafter⟩
    · exact ⟨[], rest, rfl, hrest⟩

/-- A column has the last leaf that was stored in it, or else what it had. -/
theorem get?_foldl_leaves {column : String} {leaf : Leaf} {leaves : List (String × Leaf)}
    {flat : Flattened} :
    (leaves.foldl (fun flat entry => flat.insert entry.1 entry.2) flat).get? column = some leaf ↔
      LastLeaf column leaf leaves ∨
        flat.get? column = some leaf ∧ ∀ entry ∈ leaves, entry.1 ≠ column := by
  induction leaves generalizing flat with
  | nil => simp [LastLeaf]
  | cons entry rest ih =>
    rw [List.foldl_cons, ih, NameMap.get?_insert, lastLeaf_cons, List.forall_mem_cons]
    obtain ⟨name, first⟩ := entry
    by_cases hname : name = column
    · simp [hname]
    · simp [hname]

/-- **Every column has its last leaf.** -/
theorem get?_ofList_eq_some {column : String} {leaf : Leaf} {leaves : List (String × Leaf)} :
    (NameMap.ofList leaves).get? column = some leaf ↔ LastLeaf column leaf leaves := by
  rw [NameMap.ofList, get?_foldl_leaves]
  simp

end LastLeaves

/-! ### Flattening makes the visits -/

section Flattening

theorem FieldType.storeAbsent_eq_visiting (column : String) (flat : Flattened) (t : FieldType) :
    .ok (t.storeAbsent column flat) =
      flat.visiting (t.leafType?.map (FieldVisit.absent column)).toList := by
  cases t with
  | scalar s => rfl
  | optional t => exact t.storeAbsent_eq_visiting column flat
  | record name fields => rfl

mutual

theorem FieldType.store_eq_visiting (column : String) : ∀ (t : FieldType) (mayLack : Bool)
    (x : t.Content) (flat : Flattened),
      t.store column mayLack x flat = flat.visiting (t.visits column mayLack x)
  | .scalar _, _, _, _ => rfl
  | .optional t, _, none, flat => t.storeAbsent_eq_visiting column flat
  | .optional t, _, some x, flat => t.store_eq_visiting column true x flat
  | .record name fields, _, x, flat => fields.store_eq_visiting name x flat

/-- **Storing the fields of a record makes its visits, one after the other.** -/
theorem Fields.store_eq_visiting (name : String) : ∀ (fields : Fields) (x : fields.Content)
    (flat : Flattened), fields.store name x flat = flat.visiting (fields.visits name x)
  | .nil, _, _ => rfl
  | .cons _ none _ _, _, _ => rfl
  | .cons _ (some column) t rest, (x, xs), flat => by
    rw [Fields.store, Fields.visits, Flattened.visiting_append, t.store_eq_visiting]
    exact congrArg _ (funext fun flat => rest.store_eq_visiting name xs flat)

end

end Flattening

/-! ### Records that are absent -/

/-- The type with no fields in the record that it is, if it is one. -/
def FieldType.hollow : FieldType → FieldType
  | .scalar s => .scalar s
  | .optional t => .optional t.hollow
  | .record name _ => .record name .nil

mutual

/-- A field with no fields in the records that are absent. -/
def FieldType.hollowed : (t : FieldType) → t.Content → (u : FieldType) × u.Content
  | .scalar s, x => ⟨.scalar s, x⟩
  | .optional t, x =>
    match x with
    | none => ⟨.optional t.hollow, none⟩
    | some x => ⟨.optional (t.hollowed x).1, some (t.hollowed x).2⟩
  | .record name fields, x => ⟨.record name (fields.hollowed x).1, (fields.hollowed x).2⟩

/-- Fields with no fields in the records that are absent. -/
def Fields.hollowed : (fields : Fields) → fields.Content → (more : Fields) × more.Content
  | .nil, x => ⟨.nil, x⟩
  | .cons field column t rest, (x, xs) =>
    ⟨.cons field column (t.hollowed x).1 (rest.hollowed xs).1,
      ((t.hollowed x).2, (rest.hollowed xs).2)⟩

end

/-- The record with no fields in the records that are absent. -/
def Record.hollowed (r : Record) : Record :=
  ⟨⟨r.type.name, (r.type.fields.hollowed r.content).1⟩, (r.type.fields.hollowed r.content).2⟩

section Hollowed

theorem FieldType.leafType?_hollow (t : FieldType) : t.hollow.leafType? = t.leafType? := by
  cases t with
  | scalar s => rfl
  | optional t => exact t.leafType?_hollow
  | record name fields => rfl

mutual

theorem FieldType.visits_hollowed (column : String) : ∀ (t : FieldType) (mayLack : Bool)
    (x : t.Content),
      (t.hollowed x).1.visits column mayLack (t.hollowed x).2 = t.visits column mayLack x
  | .scalar _, _, _ => rfl
  | .optional t, _, none => by
    show (t.hollow.leafType?.map (FieldVisit.absent column)).toList = _
    rw [t.leafType?_hollow]
    rfl
  | .optional t, _, some x => t.visits_hollowed column true x
  | .record name fields, _, x => fields.visits_hollowed name x

/-- **Nothing in a record that is absent is visited.** -/
theorem Fields.visits_hollowed (name : String) : ∀ (fields : Fields) (x : fields.Content),
    (fields.hollowed x).1.visits name (fields.hollowed x).2 = fields.visits name x
  | .nil, _ => rfl
  | .cons field none _ rest, (_, xs) =>
    congrArg (FieldVisit.unmapped name field :: ·) (rest.visits_hollowed name xs)
  | .cons _ (some column) t rest, (x, xs) =>
    congrArg₂ (· ++ ·) (t.visits_hollowed column false x) (rest.visits_hollowed name xs)

end

end Hollowed

/-! ### What flattening comes to -/

namespace Record

theorem flatten_eq_visiting (r : Record) : r.flatten = Flattened.visiting .empty r.visits :=
  r.type.fields.store_eq_visiting r.type.name r.content .empty

/-- A record that flattens keeps the leaves that are visited. -/
theorem flatten_eq_ok {r : Record} {flat : Flattened} (h : r.flatten = .ok flat) :
    flat = .ofList (FieldVisit.leaves r.visits) := by
  rw [flatten_eq_visiting] at h
  rcases firstUnmapped_or_mapped r.visits with ⟨record, field, hfirst⟩ | hmapped
  · rw [visiting_of_firstUnmapped hfirst] at h
    cases h
  · rw [visiting_of_mapped hmapped] at h
    exact (Except.ok.inj h).symm

theorem visits_hollowed (r : Record) : r.hollowed.visits = r.visits :=
  r.type.fields.visits_hollowed r.type.name r.content

end Record

/-! ### Fields that share columns -/

end ResourceTable
