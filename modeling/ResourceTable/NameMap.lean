/-!
# Maps keyed by names

Rows, parameters and schemas are finite maps from names to values, and wherever
one is shown its names come in byte order.  A map is therefore the list of its
entries in strictly ascending name order; two maps with the same look-ups are
equal.

## Main definitions

* `NameMap α`: the maps, with `get?`, `insert`, `erase`, `keys` and `ofList`.

## Main results

* `NameMap.get?_insert`: what an insertion changes.
* `NameMap.ext_get?`: a map is determined by its look-ups.
-/

namespace ResourceTable

universe u v

/-- Entries sorted by name, each name once. -/
structure NameMap (α : Type u) where
  /-- The entries in ascending name order. -/
  entries : List (String × α)
  /-- Names ascend strictly. -/
  sorted : entries.Pairwise (fun a b => a.1 < b.1)
  deriving DecidableEq

namespace NameMap

variable {α : Type u} {β : Type v}

instance [Repr α] : Repr (NameMap α) where
  reprPrec m n := reprPrec m.entries n

@[ext] theorem ext {m n : NameMap α} (h : m.entries = n.entries) : m = n := by
  cases m; cases n; cases h; rfl

/-- The map without entries. -/
def empty : NameMap α := ⟨[], .nil⟩

instance : Inhabited (NameMap α) := ⟨empty⟩

instance : EmptyCollection (NameMap α) := ⟨empty⟩

/-! ### Look-up -/

/-- The value of the first entry named `name`. -/
def lookup (name : String) : List (String × α) → Option α
  | [] => none
  | (key, value) :: rest => if key = name then some value else lookup name rest

/-- The value stored under `name`. -/
def get? (m : NameMap α) (name : String) : Option α := lookup name m.entries

/-- Whether `name` has a value. -/
def contains (m : NameMap α) (name : String) : Bool := (m.get? name).isSome

/-- The names in ascending order. -/
def keys (m : NameMap α) : List String := m.entries.map Prod.fst

/-- The values in ascending order of their names. -/
def values (m : NameMap α) : List α := m.entries.map Prod.snd

/-- Whether there is no entry. -/
def isEmpty (m : NameMap α) : Bool := m.entries.isEmpty

/-! ### Insertion -/

/-- Puts an entry at its place, replacing an entry of the same name. -/
def insertEntry (name : String) (value : α) : List (String × α) → List (String × α)
  | [] => [(name, value)]
  | (key, old) :: rest =>
    if name < key then (name, value) :: (key, old) :: rest
    else if name = key then (name, value) :: rest
    else (key, old) :: insertEntry name value rest

theorem mem_insertEntry {name : String} {value : α} {p : String × α} :
    {l : List (String × α)} → p ∈ insertEntry name value l → p = (name, value) ∨ p ∈ l
  | [], h => by simpa [insertEntry] using h
  | (key, old) :: rest, h => by
    unfold insertEntry at h
    split at h
    · simpa using h
    · split at h
      · rcases List.mem_cons.1 h with h | h
        · exact .inl h
        · exact .inr (List.mem_cons_of_mem _ h)
      · rcases List.mem_cons.1 h with h | h
        · exact .inr (h ▸ List.mem_cons_self)
        · exact (mem_insertEntry h).imp id (List.mem_cons_of_mem _)

theorem pairwise_insertEntry (name : String) (value : α) :
    (l : List (String × α)) → l.Pairwise (fun a b => a.1 < b.1) →
      (insertEntry name value l).Pairwise (fun a b => a.1 < b.1)
  | [], _ => by simp [insertEntry]
  | (key, old) :: rest, h => by
    have hhead := (List.pairwise_cons.1 h).1
    have htail := (List.pairwise_cons.1 h).2
    unfold insertEntry
    split
    · rename_i hlt
      refine List.pairwise_cons.2 ⟨fun p hp => ?_, h⟩
      rcases List.mem_cons.1 hp with rfl | hp
      · exact hlt
      · exact String.lt_trans hlt (hhead p hp)
    · split
      · rename_i _ heq
        subst heq
        exact List.pairwise_cons.2 ⟨hhead, htail⟩
      · rename_i hnlt hne
        refine List.pairwise_cons.2 ⟨fun p hp => ?_, pairwise_insertEntry name value rest htail⟩
        rcases mem_insertEntry hp with rfl | hp
        · exact Std.lt_of_le_of_ne (String.not_lt.1 hnlt) (Ne.symm hne)
        · exact hhead p hp

/-- Stores `value` under `name`, replacing an earlier value. -/
def insert (m : NameMap α) (name : String) (value : α) : NameMap α :=
  ⟨insertEntry name value m.entries, pairwise_insertEntry name value m.entries m.sorted⟩

/-- Drops the entry of `name`. -/
def erase (m : NameMap α) (name : String) : NameMap α :=
  ⟨m.entries.filter (fun entry => entry.1 != name), m.sorted.filter _⟩

/-- The map of a list of entries; the last entry of a name wins. -/
def ofList (l : List (String × α)) : NameMap α :=
  l.foldl (fun m entry => m.insert entry.1 entry.2) empty

/-- The entries of `n` stored over those of `m`. -/
def union (m n : NameMap α) : NameMap α :=
  n.entries.foldl (fun acc entry => acc.insert entry.1 entry.2) m

/-- Applies `f` to every value. -/
def map (f : α → β) (m : NameMap α) : NameMap β :=
  ⟨m.entries.map (fun entry => (entry.1, f entry.2)), by
    simpa [List.pairwise_map] using m.sorted⟩

/-! ### Laws -/

@[simp] theorem entries_empty : (empty : NameMap α).entries = [] := rfl

@[simp] theorem get?_empty (name : String) : (empty : NameMap α).get? name = none := rfl

@[simp] theorem keys_empty : (empty : NameMap α).keys = [] := rfl

theorem lookup_insertEntry (name other : String) (value : α) :
    (l : List (String × α)) → lookup other (insertEntry name value l) =
      if name = other then some value else lookup other l
  | [] => by simp [insertEntry, lookup]
  | (key, old) :: rest => by
    unfold insertEntry
    split
    · simp [lookup]
    · split
      · rename_i _ heq
        subst heq
        by_cases h : name = other <;> simp [lookup, h]
      · rename_i _ hne
        by_cases hk : key = other
        · have : name ≠ other := fun h => hne (h.trans hk.symm)
          simp [lookup, hk, this]
        · simp [lookup, hk, lookup_insertEntry name other value rest]

/-- An insertion changes the look-up of its own name only. -/
theorem get?_insert (m : NameMap α) (name other : String) (value : α) :
    (m.insert name value).get? other = if name = other then some value else m.get? other :=
  lookup_insertEntry name other value m.entries

@[simp] theorem get?_insert_self (m : NameMap α) (name : String) (value : α) :
    (m.insert name value).get? name = some value := by
  simp [get?_insert]

theorem lookup_eq_none_iff {name : String} :
    {l : List (String × α)} → (lookup name l = none ↔ ∀ p ∈ l, p.1 ≠ name)
  | [] => by simp [lookup]
  | (key, old) :: rest => by
    by_cases h : key = name
    · simp [lookup, h]
    · simp [lookup, h, lookup_eq_none_iff (l := rest)]

theorem lookup_eq_some_iff {name : String} {value : α} :
    {l : List (String × α)} → l.Pairwise (fun a b => a.1 < b.1) →
      (lookup name l = some value ↔ (name, value) ∈ l)
  | [], _ => by simp [lookup]
  | (key, old) :: rest, h => by
    have hhead := (List.pairwise_cons.1 h).1
    by_cases hk : key = name
    · subst hk
      simp only [lookup, if_true, Option.some.injEq, List.mem_cons, Prod.mk.injEq, true_and]
      refine ⟨fun e => .inl e.symm, fun e => e.elim Eq.symm fun hm => ?_⟩
      exact absurd (hhead _ hm) (String.lt_irrefl _)
    · have hk' : ¬ name = key := fun e => hk e.symm
      simp [lookup, hk, hk', lookup_eq_some_iff (List.pairwise_cons.1 h).2]

/-- A look-up finds exactly the stored entries. -/
theorem get?_eq_some_iff {m : NameMap α} {name : String} {value : α} :
    m.get? name = some value ↔ (name, value) ∈ m.entries :=
  lookup_eq_some_iff m.sorted

theorem mem_keys_iff {m : NameMap α} {name : String} :
    name ∈ m.keys ↔ (m.get? name).isSome := by
  rw [Option.isSome_iff_exists]
  simp [keys, get?_eq_some_iff]

theorem contains_iff_mem_keys {m : NameMap α} {name : String} :
    m.contains name ↔ name ∈ m.keys :=
  mem_keys_iff.symm

/-- The names of a map ascend strictly. -/
theorem keys_pairwise (m : NameMap α) : m.keys.Pairwise (· < ·) := by
  simpa [keys, List.pairwise_map] using m.sorted

theorem eq_of_pairwise_of_mem_iff :
    {l r : List (String × α)} → l.Pairwise (fun a b => a.1 < b.1) →
      r.Pairwise (fun a b => a.1 < b.1) → (∀ p, p ∈ l ↔ p ∈ r) → l = r
  | [], [], _, _, _ => rfl
  | [], q :: _, _, _, h => absurd ((h q).2 List.mem_cons_self) (by simp)
  | p :: _, [], _, _, h => absurd ((h p).1 List.mem_cons_self) (by simp)
  | p :: l, q :: r, hl, hr, h => by
    have hl' := List.pairwise_cons.1 hl
    have hr' := List.pairwise_cons.1 hr
    have hpq : p = q := by
      rcases List.mem_cons.1 ((h p).1 List.mem_cons_self) with e | hp
      · exact e
      · rcases List.mem_cons.1 ((h q).2 List.mem_cons_self) with e | hq
        · exact e.symm
        · exact absurd (String.lt_trans (hl'.1 q hq) (hr'.1 p hp)) (String.lt_irrefl _)
    subst hpq
    congr 1
    refine eq_of_pairwise_of_mem_iff hl'.2 hr'.2 fun x => ?_
    have hx := h x
    simp only [List.mem_cons] at hx
    constructor
    · intro hm
      rcases hx.1 (.inr hm) with rfl | hm'
      · exact absurd (hl'.1 _ hm) (String.lt_irrefl _)
      · exact hm'
    · intro hm
      rcases hx.2 (.inr hm) with rfl | hm'
      · exact absurd (hr'.1 _ hm) (String.lt_irrefl _)
      · exact hm'

/-- A map is determined by its look-ups. -/
theorem ext_get? {m n : NameMap α} (h : ∀ name, m.get? name = n.get? name) : m = n := by
  refine ext (eq_of_pairwise_of_mem_iff m.sorted n.sorted fun p => ?_)
  obtain ⟨name, value⟩ := p
  rw [← get?_eq_some_iff, ← get?_eq_some_iff, h name]

end NameMap

end ResourceTable
