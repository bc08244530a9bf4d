import ResourceTable.Proofs.AvoidedPrint
import ResourceTable.Record.Row

/-!
# The columns of a record

A record type has a leaf column for every scalar in it, however deep.  A record of the type
has a slot for every leaf column, in the same order: the slot holds the content of a field,
or the field is absent and leaves a null there, or it is part of a record that is absent and
leaves nothing.  A field in a box is the field that is in it, so that types do not tell of
boxes.

Flattening a record whose fields all have a column stores what its slots leave, one after
the other.  If the leaf columns are pairwise distinct, then nothing that is stored is
overwritten, and every column has what its slot leaves.

## Main definitions

* `Fields.columns`: the leaf columns.
* `Fields.Annotated`: every field has a column.
* `LeafSlot`, `LeafSlot.leaf?`: what a record has for a leaf column, and what that leaves there.
* `Fields.slots`: the slots of a record.
* `Fields.hasValue`: whether a record leaves something that is not null.

## Main results

* `map_column_slots` — there is a slot for every leaf column.
* `any_hasValue_slots` — a record leaves what its slots leave.
* `flatten_eq` — flattening stores what the slots leave.
* `Record.get?_flatten` — **every column has what its slot leaves.**
-/

namespace ResourceTable

/-! ### Leaf columns -/

mutual

/-- The leaf columns of a field that is stored under a column. -/
def FieldType.columns (column : String) : FieldType → List String
  | .scalar _ => [column]
  | .optional t => t.columns column
  | .record _ fields => fields.columns

/-- The leaf columns of the fields in order. -/
def Fields.columns : Fields → List String
  | .nil => []
  | .cons name column t rest => t.columns (column.getD name) ++ rest.columns

end

mutual

/-- Every field within the type has a column. -/
def FieldType.Annotated : FieldType → Prop
  | .scalar _ => True
  | .optional t => t.Annotated
  | .record _ fields => fields.Annotated

/-- Every field has a column, and so has every field within. -/
def Fields.Annotated : Fields → Prop
  | .nil => True
  | .cons _ column t rest => column.isSome ∧ t.Annotated ∧ rest.Annotated

end

/-! ### Slots -/

/-- What a record has for a leaf column of a scalar type. -/
inductive SlotState (s : ScalarType)
  /-- The content of a field, which may be the inside of an optional one. -/
  | holds (x : s.Content) (mayLack : Bool)
  /-- The field is absent. -/
  | absent
  /-- The field is part of a record that is absent. -/
  | skipped

/-- A leaf column of a record. -/
structure LeafSlot where
  /-- The column. -/
  column : String
  /-- The type of its field. -/
  type : ScalarType
  /-- What the record has for it. -/
  state : SlotState type

namespace LeafSlot

/-- What the record leaves in the column. -/
def leaf? : LeafSlot → Option Leaf
  | ⟨_, s, .holds x mayLack⟩ => some (if mayLack then (s.leaf x).asOptional else s.leaf x)
  | ⟨_, s, .absent⟩ => some s.absentLeaf
  | ⟨_, _, .skipped⟩ => none

/-- What the record stores for the column. -/
def entry? (s : LeafSlot) : Option (String × Leaf) := s.leaf?.map fun l => (s.column, l)

/-- Whether the record leaves something in the column that is not null. -/
def hasValue (s : LeafSlot) : Bool := s.leaf?.any fun l => !l.isNull

end LeafSlot

mutual

/-- The slots of a field that is absent, or part of a record that is. -/
def FieldType.unset (column : String) (stored : Bool) : FieldType → List LeafSlot
  | .scalar s => [⟨column, s, if stored then .absent else .skipped⟩]
  | .optional t => t.unset column stored
  | .record _ fields => fields.unset

/-- The slots of the fields of a record that is absent. -/
def Fields.unset : Fields → List LeafSlot
  | .nil => []
  | .cons name column t rest => t.unset (column.getD name) false ++ rest.unset

end

mutual

/-- The slots of a field with a content; `mayLack` says that it is the inside of an optional
one. -/
def FieldType.slots (column : String) :
    (t : FieldType) → (mayLack : Bool) → t.Content → List LeafSlot
  | .scalar s, mayLack, x => [⟨column, s, .holds x mayLack⟩]
  | .optional t, _, x =>
    match x with
    | none => t.unset column true
    | some x => t.slots column true x
  | .record _ fields, _, x => fields.slots x

/-- The slots of the fields in order. -/
def Fields.slots : (fields : Fields) → fields.Content → List LeafSlot
  | .nil, _ => []
  | .cons name column t rest, (x, xs) => t.slots (column.getD name) false x ++ rest.slots xs

end

mutual

/-- Whether a field leaves something that is not null. -/
def FieldType.hasValue : (t : FieldType) → t.Content → Bool
  | .scalar s, x => !(s.leaf x).isNull
  | .optional t, x =>
    match x with
    | none => false
    | some x => t.hasValue x
  | .record _ fields, x => fields.hasValue x

/-- Whether one of the fields leaves something that is not null. -/
def Fields.hasValue : (fields : Fields) → fields.Content → Bool
  | .nil, _ => false
  | .cons _ _ t rest, (x, xs) => t.hasValue x || rest.hasValue xs

end

/-! ### The slots of a type -/

section Slots

theorem ScalarType.isNull_absentLeaf (s : ScalarType) : s.absentLeaf.isNull = true := by
  cases s <;> rfl

mutual

theorem FieldType.map_column_unset (column : String) (stored : Bool) :
    ∀ t : FieldType, (t.unset column stored).map LeafSlot.column = t.columns column
  | .scalar _ => rfl
  | .optional t => t.map_column_unset column stored
  | .record _ fields => fields.map_column_unset

theorem Fields.map_column_unset :
    ∀ fields : Fields, fields.unset.map LeafSlot.column = fields.columns
  | .nil => rfl
  | .cons name column t rest => by
    rw [Fields.unset, Fields.columns, List.map_append, t.map_column_unset, rest.map_column_unset]

end

mutual

theorem FieldType.map_column_slots (column : String) : ∀ (t : FieldType) (mayLack : Bool)
    (x : t.Content), (t.slots column mayLack x).map LeafSlot.column = t.columns column
  | .scalar _, _, _ => rfl
  | .optional t, _, none => t.map_column_unset column true
  | .optional t, _, some x => t.map_column_slots column true x
  | .record _ fields, _, x => fields.map_column_slots x

/-- **There is a slot for every leaf column**, in the same order. -/
theorem Fields.map_column_slots :
    ∀ (fields : Fields) (x : fields.Content), (fields.slots x).map LeafSlot.column = fields.columns
  | .nil, _ => rfl
  | .cons name column t rest, (x, xs) => by
    rw [Fields.slots, Fields.columns, List.map_append, t.map_column_slots, rest.map_column_slots]

end

mutual

/-- What is absent leaves nothing but nulls. -/
theorem FieldType.any_hasValue_unset (column : String) (stored : Bool) :
    ∀ t : FieldType, (t.unset column stored).any LeafSlot.hasValue = false
  | .scalar s => by
    cases stored with
    | false => rfl
    | true =>
      show (!s.absentLeaf.isNull || false) = false
      rw [s.isNull_absentLeaf]
      rfl
  | .optional t => t.any_hasValue_unset column stored
  | .record _ fields => fields.any_hasValue_unset

theorem Fields.any_hasValue_unset :
    ∀ fields : Fields, fields.unset.any LeafSlot.hasValue = false
  | .nil => rfl
  | .cons name column t rest => by
    rw [Fields.unset, List.any_append, t.any_hasValue_unset, rest.any_hasValue_unset]
    rfl

end

mutual

theorem FieldType.any_hasValue_slots (column : String) : ∀ (t : FieldType) (mayLack : Bool)
    (x : t.Content), (t.slots column mayLack x).any LeafSlot.hasValue = t.hasValue x
  | .scalar s, mayLack, x => by
    show (!(if mayLack then (s.leaf x).asOptional else s.leaf x).isNull || false) = _
    rw [Bool.or_false]
    cases mayLack <;> rfl
  | .optional t, _, none => t.any_hasValue_unset column true
  | .optional t, _, some x => t.any_hasValue_slots column true x
  | .record _ fields, _, x => fields.any_hasValue_slots x

/-- **A record leaves what its slots leave.** -/
theorem Fields.any_hasValue_slots :
    ∀ (fields : Fields) (x : fields.Content),
      (fields.slots x).any LeafSlot.hasValue = fields.hasValue x
  | .nil, _ => rfl
  | .cons name column t rest, (x, xs) => by
    rw [Fields.slots, Fields.hasValue, List.any_append, t.any_hasValue_slots,
      rest.any_hasValue_slots]

end

end Slots

/-! ### Flattening -/

section Flattening

/-- The columns with what slots leave in them, stored one after the other. -/
def Flattened.storing (flat : Flattened) (slots : List LeafSlot) : Flattened :=
  (slots.filterMap LeafSlot.entry?).foldl (fun flat entry => flat.insert entry.1 entry.2) flat

theorem Flattened.storing_append (flat : Flattened) (slots more : List LeafSlot) :
    flat.storing (slots ++ more) = (flat.storing slots).storing more := by
  rw [storing, List.filterMap_append, List.foldl_append]
  rfl

mutual

/-- A record that is absent stores nothing. -/
theorem FieldType.entries_skipped (column : String) :
    ∀ t : FieldType, (t.unset column false).filterMap LeafSlot.entry? = []
  | .scalar _ => rfl
  | .optional t => t.entries_skipped column
  | .record _ fields => fields.entries_skipped

theorem Fields.entries_skipped :
    ∀ fields : Fields, fields.unset.filterMap LeafSlot.entry? = []
  | .nil => rfl
  | .cons name column t rest => by
    rw [Fields.unset, List.filterMap_append, t.entries_skipped, rest.entries_skipped,
      List.append_nil]

end

theorem FieldType.storeAbsent_eq (column : String) (flat : Flattened) :
    ∀ t : FieldType, t.storeAbsent column flat = flat.storing (t.unset column true)
  | .scalar _ => rfl
  | .optional t => t.storeAbsent_eq column flat
  | .record _ fields => by
    rw [Flattened.storing, FieldType.unset, fields.entries_skipped]
    rfl

mutual

theorem FieldType.store_eq (column : String) : ∀ (t : FieldType) (mayLack : Bool)
    (x : t.Content) (flat : Flattened), t.Annotated →
      t.store column mayLack x flat = .ok (flat.storing (t.slots column mayLack x))
  | .scalar _, _, _, _, _ => rfl
  | .optional t, _, none, flat, _ => congrArg Except.ok (t.storeAbsent_eq column flat)
  | .optional t, _, some x, flat, h => t.store_eq column true x flat h
  | .record name fields, _, x, flat, h => fields.store_eq name x flat h

/-- The fields of an annotated record store what their slots leave. -/
theorem Fields.store_eq (name : String) : ∀ (fields : Fields) (x : fields.Content)
    (flat : Flattened), fields.Annotated →
      fields.store name x flat = .ok (flat.storing (fields.slots x))
  | .nil, _, _, _ => rfl
  | .cons field none _ _, _, _, h => by cases h.1
  | .cons field (some column) t rest, (x, xs), flat, h => by
    rw [Fields.store, t.store_eq column false x flat h.2.1, Fields.slots,
      Flattened.storing_append]
    exact rest.store_eq name xs _ h.2.2

end

/-- **Flattening stores what the slots leave.** -/
theorem Record.flatten_eq (r : Record) (h : r.type.fields.Annotated) :
    r.flatten = .ok (Flattened.storing .empty (r.type.fields.slots r.content)) :=
  r.type.fields.store_eq r.type.name r.content .empty h

theorem sublist_entries : ∀ slots : List LeafSlot,
    ((slots.filterMap LeafSlot.entry?).map Prod.fst).Sublist (slots.map LeafSlot.column) := by
  intro slots
  induction slots with
  | nil => exact .slnil
  | cons s rest ih =>
    rw [List.filterMap_cons, LeafSlot.entry?]
    cases s.leaf? with
    | none => exact ih.cons _
    | some l => exact ih.cons_cons _

theorem lookup_entries : ∀ {slots : List LeafSlot}, (slots.map LeafSlot.column).Nodup →
    ∀ s ∈ slots, NameMap.lookup s.column (slots.filterMap LeafSlot.entry?) = s.leaf? := by
  intro slots
  induction slots with
  | nil => intro _ s hs; cases hs
  | cons first rest ih =>
    intro h s hs
    obtain ⟨hfirst, hrest⟩ := List.nodup_cons.1 h
    rw [List.filterMap_cons, LeafSlot.entry?]
    rcases List.mem_cons.1 hs with rfl | hs
    · -- The columns after the first one are others.
      have hnone : NameMap.lookup s.column (rest.filterMap LeafSlot.entry?) = none :=
        NameMap.lookup_eq_none_of_notMem fun hmem => hfirst ((sublist_entries rest).subset hmem)
      cases s.leaf? with
      | none => exact hnone
      | some l => exact if_pos rfl
    · have hne : first.column ≠ s.column := fun he => hfirst (he ▸ List.mem_map_of_mem hs)
      cases first.leaf? with
      | none => exact ih hrest s hs
      | some l => exact (if_neg hne).trans (ih hrest s hs)

/-- **Every column has what its slot leaves**, if the leaf columns are pairwise distinct. -/
theorem get?_flattened {slots : List LeafSlot} (h : (slots.map LeafSlot.column).Nodup)
    {s : LeafSlot} (hs : s ∈ slots) : (Flattened.storing .empty slots).get? s.column = s.leaf? := by
  have hentries : ((slots.filterMap LeafSlot.entry?).map Prod.fst).Nodup :=
    h.sublist (sublist_entries _)
  rw [← lookup_entries h s hs]
  exact NameMap.get?_ofList hentries s.column

/-- **A flattened record has in every column what its slot leaves.** -/
theorem Record.get?_flatten {r : Record} (h : r.type.fields.Annotated)
    (hleaves : r.type.fields.columns.Nodup) {flat : Flattened} (hflat : r.flatten = .ok flat) :
    ∀ s ∈ r.type.fields.slots r.content, flat.get? s.column = s.leaf? := by
  rw [r.flatten_eq h] at hflat
  obtain rfl := Except.ok.inj hflat
  intro s hs
  refine get?_flattened ?_ hs
  rwa [Fields.map_column_slots]

end Flattening

end ResourceTable
