import ResourceTable.Proofs.FlatRecord
import ResourceTable.Proofs.StoredInteger

/-!
# Reading a record back

A record is read from a row field by field, and each field from what the row has at its
column.  So if the row shows every slot of a record, that is if it reads a content where the
slot holds one and has a value exactly where the record leaves one, then the record is read
back, provided that the row can tell what is absent: an optional field that is there has to
leave something that is not null.

The row that is made of a flattened record shows its slots.  So decoding undoes flattening.

## Main definitions

* `Fields.Restorable`: optional fields that are there leave something, and documents are
  decoded as themselves.
* `Row.Shows`: the row shows a slot.

## Main results

* `present_eq_any` — a field is present when the row has a value at one of its columns.
* `fetch_of_shows` — **a record is read back from a row that shows its slots.**
* `Row.shows_of_leaf` — the row of a flattened record shows its slots.
* `ofRow_flatten` — **decoding undoes flattening.**
-/

namespace ResourceTable

/-! ### Records that can be restored -/

/-- A document is decoded as itself, and is null only if it was never set. -/
def ScalarType.Survives : (s : ScalarType) → s.Content → Prop
  | .document t, x => t.decode x = .ok x ∧ (Json.isNull x = true → x = t.blank)
  | .bool, _ | .integer _, _ | .single, _ | .double, _ | .char, _ | .string, _ | .bytes, _
  | .timestamp, _ | .date, _ | .json, _ => True

mutual

/-- Optional fields that are there leave something, and documents survive. -/
def FieldType.Restorable : (t : FieldType) → t.Content → Prop
  | .scalar s, x => s.Survives x
  | .optional t, x =>
    match x with
    | none => True
    | some x => t.hasValue x = true ∧ t.Restorable x
  | .record _ fields, x => fields.Restorable x

/-- Optional fields that are there leave something, and documents survive. -/
def Fields.Restorable : (fields : Fields) → fields.Content → Prop
  | .nil, _ => True
  | .cons _ _ t rest, (x, xs) => t.Restorable x ∧ rest.Restorable xs

end

/-! ### Rows that show a record -/

/-- The row shows a slot: it has a value where the record leaves one, and reads the content
that the slot holds. -/
structure Row.Shows (row : Row) (s : LeafSlot) : Prop where
  value : row.hasValue s.column = s.hasValue
  content : ∀ x mayLack, s.state = .holds x mayLack → s.type.fetch row s.column = .ok x

section Reading

variable {row : Row}

mutual

theorem FieldType.present_eq_any (column : String) :
    ∀ t : FieldType, t.present row column = (t.columns column).any row.hasValue
  | .scalar _ => (Bool.or_false _).symm
  | .optional t => t.present_eq_any column
  | .record _ fields => fields.present_eq_any

/-- A field is present when the row has a value at one of its leaf columns. -/
theorem Fields.present_eq_any :
    ∀ fields : Fields, fields.present row = fields.columns.any row.hasValue
  | .nil => rfl
  | .cons name column t rest => by
    rw [Fields.present, Fields.columns, List.any_append, t.present_eq_any, rest.present_eq_any]

end

theorem any_hasValue_of_shows {slots : List LeafSlot} (h : ∀ s ∈ slots, row.Shows s) :
    (slots.map LeafSlot.column).any row.hasValue = slots.any LeafSlot.hasValue := by
  have hvalues : slots.map (row.hasValue ∘ LeafSlot.column) = slots.map LeafSlot.hasValue :=
    List.map_congr_left fun s hs => (h s hs).value
  simpa only [List.any_map, Function.id_comp] using congrArg (fun values => values.any id) hvalues

mutual

/-- A field is read back from a row that shows its slots. -/
theorem FieldType.fetch_of_shows (column : String) : ∀ (t : FieldType) (mayLack : Bool)
    (x : t.Content), t.Restorable x → (∀ s ∈ t.slots column mayLack x, row.Shows s) →
      t.fetch row column = .ok x
  | .scalar s, mayLack, x, _, hrow =>
    (hrow ⟨column, s, .holds x mayLack⟩ (List.mem_singleton_self _)).content x mayLack rfl
  | .optional t, _, none, _, hrow => by
    -- All columns of the field are without a value, so that it is not present.
    have hunset : ∀ s ∈ t.unset column true, row.Shows s := hrow
    have hpresent : t.present row column = false := by
      rw [t.present_eq_any, ← t.map_column_unset column true, any_hasValue_of_shows hunset,
        t.any_hasValue_unset]
    rw [FieldType.fetch, hpresent]
    rfl
  | .optional t, mayLack, some x, h, hrow => by
    have hslots : ∀ s ∈ t.slots column true x, row.Shows s := hrow
    have hpresent : t.present row column = true := by
      rw [t.present_eq_any, ← t.map_column_slots column true x, any_hasValue_of_shows hslots,
        t.any_hasValue_slots]
      exact h.1
    rw [FieldType.fetch, hpresent, if_pos rfl, t.fetch_of_shows column true x h.2 hslots]
    rfl
  | .record _ fields, _, x, h, hrow => fields.fetch_of_shows x h hrow

/-- **A record is read back from a row that shows its slots.** -/
theorem Fields.fetch_of_shows : ∀ (fields : Fields) (x : fields.Content), fields.Restorable x →
    (∀ s ∈ fields.slots x, row.Shows s) → fields.fetch row = .ok x
  | .nil, _, _, _ => rfl
  | .cons name column t rest, (x, xs), h, hrow => by
    have hfirst := t.fetch_of_shows (column.getD name) false x h.1 fun s hs =>
      hrow s (List.mem_append_left _ hs)
    have hrest := rest.fetch_of_shows xs h.2 fun s hs => hrow s (List.mem_append_right _ hs)
    rw [Fields.fetch, hfirst, hrest]
    rfl

end

end Reading

/-! ### The row of a flattened record -/

section Flattening

variable {row : Row} {column : String}

/-- A JSON value is read back from its own leaf. -/
theorem Row.fetchJson_of_leaf {j : Json}
    (h : row.get? column = some (ScalarType.documentLeaf j).value) :
    row.fetchJson column = .ok j := by
  unfold fetchJson
  rw [h, ScalarType.documentLeaf]
  by_cases hnull : j.isNull = true
  · rw [if_pos hnull, Json.isNull_iff.1 hnull]
    rfl
  · rw [if_neg hnull]

/-- A document that survives is read off its JSON value. -/
theorem Row.fetchDocument_of_fetchJson {t : DocumentType} {j : Json}
    (hsurvives : (ScalarType.document t).Survives j) (h : row.fetchJson column = .ok j) :
    row.fetchDocument column t = .ok j := by
  unfold fetchDocument
  rw [h]
  -- A null document is the one that was never set, and any other is decoded as itself.
  by_cases hnull : Json.isNull j = true
  · show (if Json.isNull j = true then _ else _) = _
    rw [if_pos hnull]
    exact congrArg Except.ok (hsurvives.2 hnull).symm
  · show (if Json.isNull j = true then _ else _) = _
    rw [if_neg hnull, hsurvives.1]
    rfl

/-- The content of a field is read back from its leaf. -/
theorem ScalarType.fetch_of_leaf : ∀ (s : ScalarType) (x : s.Content), s.Survives x →
    row.get? column = some (s.leaf x).value → s.fetch row column = .ok x
  | .bool, true, _, h | .bool, false, _, h => Row.fetchWith_of_some h rfl rfl
  | .integer _, n, _, h => Row.fetchWith_of_some h rfl n.ofInt?_val
  | .single, _, _, h | .double, _, _, h | .char, _, _, h | .string, _, _, h | .bytes, _, _, h
  | .date, _, _, h => Row.fetchWith_of_some h rfl rfl
  | .timestamp, t, _, h => by
    show row.fetchTimestamp column = .ok t
    unfold Row.fetchTimestamp
    rw [h]
    exact Row.fetchWith_of_some h rfl rfl
  | .json, _, _, h => Row.fetchJson_of_leaf h
  | .document _, _, hsurvives, h =>
    Row.fetchDocument_of_fetchJson hsurvives (Row.fetchJson_of_leaf h)

/-- The content that the slot holds, if there is one, survives. -/
def LeafSlot.Survives : LeafSlot → Prop
  | ⟨_, s, .holds x _⟩ => s.Survives x
  | ⟨_, _, .absent⟩ | ⟨_, _, .skipped⟩ => True

/-- **The row of a flattened record shows its slots.** -/
theorem Row.shows_of_leaf {s : LeafSlot} (hsurvives : s.Survives)
    (h : row.get? s.column = s.leaf?.map Leaf.value) : row.Shows s := by
  constructor
  · rw [hasValue, h, LeafSlot.hasValue]
    cases s.leaf? <;> rfl
  · obtain ⟨column, type, state⟩ := s
    intro x mayLack hstate
    cases state with
    | absent => cases hstate
    | skipped => cases hstate
    | holds y _ =>
      cases hstate
      refine type.fetch_of_leaf y hsurvives (h.trans ?_)
      cases mayLack <;> rfl

mutual

theorem FieldType.survives_unset (column : String) (stored : Bool) :
    ∀ t : FieldType, ∀ s ∈ t.unset column stored, s.Survives
  | .scalar _, s, hs => by
    obtain rfl := List.mem_singleton.1 hs
    cases stored <;> trivial
  | .optional t, s, hs => t.survives_unset column stored s hs
  | .record _ fields, s, hs => fields.survives_unset s hs

theorem Fields.survives_unset : ∀ fields : Fields, ∀ s ∈ fields.unset, s.Survives
  | .nil, _, hs => by cases hs
  | .cons name column t rest, s, hs => by
    rcases List.mem_append.1 hs with hs | hs
    · exact t.survives_unset _ _ s hs
    · exact rest.survives_unset s hs

end

mutual

theorem FieldType.survives_slots (column : String) : ∀ (t : FieldType) (mayLack : Bool)
    (x : t.Content), t.Restorable x → ∀ s ∈ t.slots column mayLack x, s.Survives
  | .scalar _, _, _, h, s, hs => by
    obtain rfl := List.mem_singleton.1 hs
    exact h
  | .optional t, _, none, _, s, hs => t.survives_unset column true s hs
  | .optional t, _, some x, h, s, hs => t.survives_slots column true x h.2 s hs
  | .record _ fields, _, x, h, s, hs => fields.survives_slots x h s hs

theorem Fields.survives_slots : ∀ (fields : Fields) (x : fields.Content), fields.Restorable x →
    ∀ s ∈ fields.slots x, s.Survives
  | .nil, _, _, _, hs => by cases hs
  | .cons name column t rest, (x, xs), h, s, hs => by
    rcases List.mem_append.1 hs with hs | hs
    · exact t.survives_slots _ _ x h.1 s hs
    · exact rest.survives_slots xs h.2 s hs

end

theorem NameMap.get?_map {α β : Type} (f : α → β) (m : NameMap α) (name : String) :
    (m.map f).get? name = (m.get? name).map f := by
  show lookup name (m.entries.map fun entry => (entry.1, f entry.2)) = (lookup name m.entries).map f
  induction m.entries with
  | nil => rfl
  | cons entry rest ih =>
    obtain ⟨key, value⟩ := entry
    rw [List.map_cons, lookup, lookup, ih]
    split <;> rfl

/-- **Decoding undoes flattening.**  A record whose fields all have columns, and whose leaf
columns are pairwise distinct, is flattened; and what is decoded from the row of its columns
and values is the record, if it is restorable. -/
theorem Record.ofRow_flatten (r : Record) (hannotated : r.type.fields.Annotated)
    (hcolumns : r.type.fields.columns.Nodup) (h : r.type.fields.Restorable r.content) :
    ∃ flat, r.flatten = .ok flat ∧ r.type.ofRow (flat.map Leaf.value) = .ok r.content := by
  refine ⟨_, r.flatten_eq hannotated, ?_⟩
  have hslots : ((r.type.fields.slots r.content).map LeafSlot.column).Nodup := by
    rwa [r.type.fields.map_column_slots]
  refine r.type.fields.fetch_of_shows r.content h fun s hs => ?_
  refine Row.shows_of_leaf (r.type.fields.survives_slots r.content h s hs) ?_
  rw [NameMap.get?_map, get?_flattened hslots hs]

end Flattening

/-! ### A record -/

/-- The fields of a contact. -/
def contactFields : Fields :=
  .cons "name" (some "contact") (.optional (.scalar .string)) <|
    .cons "phone" (some "phone") (.scalar (.integer .u32)) .nil

/-- The type of hosts with two contacts, the other one in columns of its own. -/
def attendedHost : RecordType :=
  ⟨"Host", .cons "id" (some "id") (.scalar .string) <|
    .cons "memo" (some "memo") (.optional (.scalar .string)) <|
    .cons "tags" (some "tags") (.scalar (.document (.list .text))) <|
    .cons "owner" (some "owner") (.optional (.record "Contact" contactFields)) <|
    .cons "deputy" (some "deputy")
      (.optional (.record "Deputy" (.cons "name" (some "deputy") (.scalar .string) .nil))) .nil⟩

/-- A host without a memo, tags and a deputy, whose owner has neither a name nor a phone. -/
def lonelyHost : Record :=
  ⟨attendedHost, ("00000001", none, Json.array [], some (none, FixedInt.zero .u32, ()), none, ())⟩

theorem lonelyHost_restored :
    attendedHost.fields.Annotated ∧ attendedHost.fields.columns.Nodup ∧
    attendedHost.fields.Restorable lonelyHost.content ∧
    ∃ flat, lonelyHost.flatten = .ok flat ∧
      attendedHost.ofRow (flat.map Leaf.value) = .ok lonelyHost.content := by
  have hannotated : attendedHost.fields.Annotated :=
    ⟨rfl, trivial, rfl, trivial, rfl, trivial, rfl, ⟨rfl, trivial, rfl, trivial, trivial⟩,
      rfl, ⟨rfl, trivial, trivial⟩, trivial⟩
  have hcolumns : attendedHost.fields.columns.Nodup := by decide
  have hrestorable : attendedHost.fields.Restorable lonelyHost.content :=
    ⟨trivial, trivial, ⟨rfl, fun h => by cases h⟩, ⟨rfl, trivial, trivial, trivial⟩, trivial,
      trivial⟩
  exact ⟨hannotated, hcolumns, hrestorable, lonelyHost.ofRow_flatten hannotated hcolumns hrestorable⟩

end ResourceTable
