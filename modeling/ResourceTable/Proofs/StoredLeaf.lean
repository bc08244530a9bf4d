import ResourceTable.Proofs.CalendarReading
import ResourceTable.Proofs.RecordReading

/-!
# Records through the database

What a record leaves in its columns is bound as cells, and cells have fewer kinds than leaves:
a truth value comes back as an integer, a day or a document as a text, and a null without the
type that it had.  The types of the fields make up for it.  So a row of the cells that a record
was bound as shows its slots, and the record is read back from it.

Time columns are not bound.  They get the reading of the clock, to the microsecond, and what is
read back is the record with that reading in the place of its moments.

## Main definitions

* `ScalarType.Keeps`: the database gives a content back as it was bound.
* `Fields.stamp`, `LeafSlot.stamped`: a record, and its slots, with another moment in the place
  of the moments that it has.

## Main results

* `fetch_of_cell` — a content is read back from the cell that it was bound as.
* `slots_stamp`, `restorable_stamp` — a stamped record has stamped slots, and is as restorable.
* `shows_of_cell`, `shows_of_clock` — **a row of cells shows the slots of a record, and the
  clock's reading in its time columns.**
-/

namespace ResourceTable

open Sql

/-! ### Contents through cells -/

/-- The database gives the content back as it was bound: an integer is in the range of cells, a
day in the range of those that are read, a JSON value is read back from its text.  Fractional
numbers are not considered. -/
def ScalarType.Keeps : (s : ScalarType) → s.Content → Prop
  | .integer t, n => IntType.i64.Holds (FixedInt.val (t := t) n)
  | .date, d => isYear (Date.year d) = true
  | .json, j | .document _, j => Json.isNull j = true ∨ Json.document? (Json.text j) = some j
  | .single, _ | .double, _ => False
  | .bool, _ | .char, _ | .string, _ | .bytes, _ | .timestamp, _ => True

section Cells

variable {row : Row} {column : String}

/-- A JSON value is read back from the cell of its own leaf. -/
theorem Row.fetchJson_of_cell {j : Json} (h : j.isNull = true ∨ Json.document? j.text = some j) :
    ∃ cell, (ScalarType.documentLeaf j).value.toCell = .ok cell ∧
      (Value.ofCell cell).isNull = (ScalarType.documentLeaf j).isNull ∧
      (row.get? column = some (Value.ofCell cell) → row.fetchJson column = .ok j) := by
  cases hnull : j.isNull with
  | true =>
    refine ⟨.null, ?_, ?_, fun hrow => ?_⟩
    · rw [ScalarType.documentLeaf, if_pos hnull]
      rfl
    · rw [ScalarType.documentLeaf, if_pos hnull]
      rfl
    · unfold fetchJson
      rw [hrow, Json.isNull_iff.1 hnull]
      rfl
  | false =>
    have hne : ¬ j.isNull = true := by rw [hnull]; exact Bool.false_ne_true
    refine ⟨.text j.text, ?_, ?_, fun hrow => ?_⟩
    · rw [ScalarType.documentLeaf, if_neg hne]
      rfl
    · rw [ScalarType.documentLeaf, if_neg hne]
      rfl
    · unfold fetchJson
      rw [hrow]
      dsimp only [Value.ofCell]
      rw [Option.bind_some, h.resolve_left hne]

/-- **A content is read back from the cell that it was bound as**, and that is null if its leaf
is. -/
theorem ScalarType.fetch_of_cell : ∀ (s : ScalarType) (x : s.Content), s ≠ .timestamp →
    s.Survives x → s.Keeps x → ∃ cell, (s.leaf x).value.toCell = .ok cell ∧
      (Value.ofCell cell).isNull = (s.leaf x).isNull ∧
      (row.get? column = some (Value.ofCell cell) → s.fetch row column = .ok x)
  | .bool, true, _, _, _ | .bool, false, _, _, _ =>
    ⟨_, rfl, rfl, fun h => Row.fetchWith_of_some h rfl rfl⟩
  | .integer t, (n : FixedInt t), _, _, (hkeeps : IntType.i64.Holds n.val) => by
    obtain ⟨x, hx, hval⟩ := (Value.Carries.field t n).exists_toCell
    have hsame : x.val = n.val := hval.trans (if_pos hkeeps)
    refine ⟨.integer x, hx, rfl, fun h => Row.fetchWith_of_some h rfl ?_⟩
    show FixedInt.ofInt? t x.val = some n
    rw [hsame, n.ofInt?_val]
  | .char, (c : Char), _, _, _ =>
    ⟨.text (String.singleton c), rfl, rfl, fun h => Row.fetchWith_of_some h rfl
      (congrArg List.head? (String.toList_singleton c))⟩
  | .string, _, _, _, _ | .bytes, _, _, _, _ =>
    ⟨_, rfl, rfl, fun h => Row.fetchWith_of_some h rfl rfl⟩
  | .date, (d : Date), _, _, hkeeps =>
    ⟨.text d.text, rfl, rfl, fun h => Row.fetchWith_of_some h rfl (Date.read?_text hkeeps)⟩
  | .json, _, _, _, hkeeps => Row.fetchJson_of_cell hkeeps
  | .document t, j, _, hsurvives, hkeeps => by
    obtain ⟨cell, hcell, hnull, hfetch⟩ := Row.fetchJson_of_cell hkeeps
    exact ⟨cell, hcell, hnull, fun h => Row.fetchDocument_of_fetchJson hsurvives (hfetch h)⟩
  | .timestamp, _, h, _, _ => absurd rfl h
  | .single, _, _, _, hkeeps | .double, _, _, _, hkeeps => hkeeps.elim

/-- A stored moment is read back to the microsecond. -/
theorem Row.fetchTimestamp_of_clock {now : Timestamp}
    (hyear : 0 ≤ now.date.year ∧ now.date.year ≤ 9999)
    (h : row.get? column = some (Value.ofCell (.text now.stored))) :
    row.fetchTimestamp column = .ok now.truncateMicros := by
  unfold fetchTimestamp
  rw [h]
  dsimp only [Value.ofCell]
  rw [Timestamp.read?_stored hyear]

end Cells

/-! ### Stamped records -/

/-- The content of a field that was absent, if it is that of a moment. -/
def FieldType.stamped (now : Timestamp) : (t : FieldType) → Option t.Content
  | .scalar .timestamp => some now
  | .scalar .bool | .scalar (.integer _) | .scalar .single | .scalar .double | .scalar .char
  | .scalar .string | .scalar .bytes | .scalar .date | .scalar .json | .scalar (.document _) => none
  | .optional t => (t.stamped now).map some
  | .record _ _ => none

mutual

/-- The content of a field with another moment in the place of its moments. -/
def FieldType.stamp (now : Timestamp) : (t : FieldType) → t.Content → t.Content
  | .scalar .timestamp, _ => now
  | .scalar .bool, x | .scalar (.integer _), x | .scalar .single, x | .scalar .double, x
  | .scalar .char, x | .scalar .string, x | .scalar .bytes, x | .scalar .date, x
  | .scalar .json, x | .scalar (.document _), x => x
  | .optional t, x =>
    match x with
    | none => t.stamped now
    | some x => some (t.stamp now x)
  | .record _ fields, x => fields.stamp now x

/-- The contents of the fields with another moment in the place of the moments in them. -/
def Fields.stamp (now : Timestamp) : (fields : Fields) → fields.Content → fields.Content
  | .nil, x => x
  | .cons _ _ t rest, (x, xs) => (t.stamp now x, rest.stamp now xs)

end

/-- A slot with another moment in the place of its own, whether or not it is there; but what is
part of an absent record stays absent. -/
def LeafSlot.stamped (now : Timestamp) : LeafSlot → LeafSlot
  | ⟨column, .timestamp, .holds _ mayLack⟩ => ⟨column, .timestamp, .holds now mayLack⟩
  | ⟨column, .timestamp, .absent⟩ => ⟨column, .timestamp, .holds now true⟩
  | s => s

section Stamps

variable {now : Timestamp}

theorem LeafSlot.stamped_of_ne {s : LeafSlot} (h : s.type ≠ .timestamp) : s.stamped now = s := by
  obtain ⟨column, type, state⟩ := s
  cases type with
  | timestamp => exact absurd rfl h
  | _ => cases state <;> rfl

theorem LeafSlot.column_stamped (s : LeafSlot) : (s.stamped now).column = s.column := by
  obtain ⟨column, type, state⟩ := s
  cases type <;> cases state <;> rfl

mutual

/-- What is part of an absent record stays absent. -/
theorem FieldType.map_stamped_skipped (column : String) : ∀ t : FieldType,
    (t.unset column false).map (LeafSlot.stamped now) = t.unset column false
  | .scalar s => by cases s <;> rfl
  | .optional t => t.map_stamped_skipped column
  | .record _ fields => fields.map_stamped_unset

theorem Fields.map_stamped_unset : ∀ fields : Fields,
    fields.unset.map (LeafSlot.stamped now) = fields.unset
  | .nil => rfl
  | .cons name column t rest => by
    rw [Fields.unset, List.map_append, t.map_stamped_skipped, rest.map_stamped_unset]

end

/-- A field that was absent has its slot stamped if it is that of a moment. -/
theorem FieldType.map_stamped_unset (column : String) : ∀ t : FieldType,
    (t.unset column true).map (LeafSlot.stamped now) =
      match t.stamped now with
      | none => t.unset column true
      | some x => t.slots column true x
  | .scalar s => by cases s <;> rfl
  | .optional t => by
    show (t.unset column true).map (LeafSlot.stamped now) = _
    rw [t.map_stamped_unset column, FieldType.stamped]
    cases t.stamped now <;> rfl
  | .record _ fields => fields.map_stamped_unset

mutual

theorem FieldType.slots_stamp (column : String) : ∀ (t : FieldType) (mayLack : Bool)
    (x : t.Content), t.slots column mayLack (t.stamp now x) =
      (t.slots column mayLack x).map (LeafSlot.stamped now)
  | .scalar s, mayLack, x => by cases s <;> rfl
  | .optional t, mayLack, none => by
    show _ = (t.unset column true).map (LeafSlot.stamped now)
    rw [t.map_stamped_unset column, FieldType.stamp]
    cases t.stamped now <;> rfl
  | .optional t, _, some x => t.slots_stamp column true x
  | .record _ fields, _, x => fields.slots_stamp x

/-- **A stamped record has stamped slots.** -/
theorem Fields.slots_stamp : ∀ (fields : Fields) (x : fields.Content),
    fields.slots (fields.stamp now x) = (fields.slots x).map (LeafSlot.stamped now)
  | .nil, _ => rfl
  | .cons name column t rest, (x, xs) => by
    rw [Fields.stamp, Fields.slots, Fields.slots, List.map_append, t.slots_stamp, rest.slots_stamp]

end

mutual

/-- Who leaves something leaves something once it is stamped. -/
theorem FieldType.hasValue_stamp : ∀ (t : FieldType) (x : t.Content), t.hasValue x = true →
    t.hasValue (t.stamp now x) = true
  | .scalar s, x, h => by
    cases s with
    | timestamp => rfl
    | _ => exact h
  | .optional t, some x, h => t.hasValue_stamp x h
  | .record _ fields, x, h => fields.hasValue_stamp x h

theorem Fields.hasValue_stamp : ∀ (fields : Fields) (x : fields.Content),
    fields.hasValue x = true → fields.hasValue (fields.stamp now x) = true
  | .cons _ _ t rest, (x, xs), h => by
    rw [Fields.hasValue, Bool.or_eq_true] at h
    rw [Fields.stamp, Fields.hasValue, Bool.or_eq_true]
    exact h.imp (t.hasValue_stamp x) (rest.hasValue_stamp xs)

end

theorem FieldType.restorable_stamped : ∀ (t : FieldType) (x : t.Content),
    t.stamped now = some x → t.hasValue x = true ∧ t.Restorable x
  | .scalar s, x, h => by
    cases s with
    | timestamp =>
      cases h
      exact ⟨rfl, trivial⟩
    | _ => cases h
  | .optional t, x, h => by
    obtain ⟨y, hy, rfl⟩ := Option.map_eq_some_iff.1 h
    obtain ⟨hvalue, hrestorable⟩ := t.restorable_stamped y hy
    exact ⟨hvalue, hvalue, hrestorable⟩

mutual

theorem FieldType.restorable_stamp : ∀ (t : FieldType) (x : t.Content), t.Restorable x →
    t.Restorable (t.stamp now x)
  | .scalar s, x, h => by
    cases s with
    | timestamp => trivial
    | _ => exact h
  | .optional t, none, _ => by
    show match t.stamped now with
      | none => True
      | some x => t.hasValue x = true ∧ t.Restorable x
    cases hstamped : t.stamped now with
    | none => trivial
    | some x => exact t.restorable_stamped x hstamped
  | .optional t, some x, h => ⟨t.hasValue_stamp x h.1, t.restorable_stamp x h.2⟩
  | .record _ fields, x, h => fields.restorable_stamp x h

/-- **A stamped record is as restorable.** -/
theorem Fields.restorable_stamp : ∀ (fields : Fields) (x : fields.Content),
    fields.Restorable x → fields.Restorable (fields.stamp now x)
  | .nil, _, _ => trivial
  | .cons _ _ t rest, (x, xs), h => ⟨t.restorable_stamp x h.1, rest.restorable_stamp xs h.2⟩

end

end Stamps

/-! ### Slots through cells -/

/-- The database gives the content that the slot holds, if there is one, back as it was bound. -/
def LeafSlot.Keeps : LeafSlot → Prop
  | ⟨_, s, .holds x _⟩ => s.Keeps x
  | ⟨_, _, .absent⟩ | ⟨_, _, .skipped⟩ => True

section Slots

variable {row : Row}

/-- **A row shows a slot in the cell that it was bound as.** -/
theorem Row.shows_of_cell {s : LeafSlot} (htype : s.type ≠ .timestamp) (hsurvives : s.Survives)
    (hkeeps : s.Keeps) {leaf : Leaf} (hleaf : s.leaf? = some leaf) {cell : Cell}
    (hcell : leaf.value.toCell = .ok cell) (h : row.get? s.column = some (Value.ofCell cell)) :
    row.Shows s := by
  obtain ⟨column, type, state⟩ := s
  cases state with
  | skipped => cases hleaf
  | absent =>
    -- The null of an absent field is one of texts, whatever its type.
    cases hleaf
    obtain rfl : cell = .null := by
      cases type <;> cases hcell <;> rfl
    refine ⟨?_, fun x mayLack hstate => by cases hstate⟩
    rw [hasValue, h, LeafSlot.hasValue, LeafSlot.leaf?]
    show _ = !type.absentLeaf.isNull
    rw [type.isNull_absentLeaf]
    rfl
  | holds x mayLack =>
    cases hleaf
    obtain ⟨own, hown, hnull, hfetch⟩ := @ScalarType.fetch_of_cell row column type x htype
      hsurvives hkeeps
    have hvalue : (if mayLack then (type.leaf x).asOptional else type.leaf x).value =
        (type.leaf x).value := by cases mayLack <;> rfl
    rw [hvalue, hown] at hcell
    cases hcell
    refine ⟨?_, fun y _ hstate => ?_⟩
    · rw [hasValue, h, LeafSlot.hasValue]
      show (!(Value.ofCell cell).isNull) =
        !(if mayLack then (type.leaf x).asOptional else type.leaf x).isNull
      rw [hnull, Leaf.isNull, Leaf.isNull, hvalue]
    · cases hstate
      exact hfetch h

/-- **A row shows the reading of the clock in a time column**, to the microsecond. -/
theorem Row.shows_of_clock {s : LeafSlot} (htype : s.type = .timestamp)
    (hstate : s.state ≠ .skipped) {now : Timestamp}
    (hyear : 0 ≤ now.date.year ∧ now.date.year ≤ 9999)
    (h : row.get? s.column = some (Value.ofCell (.text now.stored))) :
    row.Shows (s.stamped now.truncateMicros) := by
  obtain ⟨column, type, state⟩ := s
  obtain rfl : type = .timestamp := htype
  have hvalue : row.hasValue column = true := by
    rw [hasValue, h]
    rfl
  have hshows (mayLack : Bool) :
      row.Shows ⟨column, .timestamp, .holds now.truncateMicros mayLack⟩ := by
    refine ⟨hvalue.trans ?_, fun x _ hstate => ?_⟩
    · cases mayLack <;> rfl
    · cases hstate
      exact fetchTimestamp_of_clock hyear h
  cases state with
  | skipped => exact absurd rfl hstate
  | absent => exact hshows true
  | holds x mayLack => exact hshows mayLack

end Slots

end ResourceTable
