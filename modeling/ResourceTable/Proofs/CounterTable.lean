import ResourceTable.Proofs.RowInsertion
import ResourceTable.Proofs.SaturatingSum

/-!
# The table of counters

Counters are rows of a table of their own, one for each kind that has advanced: the kind is
the key, and the number given out last stands beside it.  To advance a counter is to insert
a row, or to add to the row that has the key.

What the table says is a function from kinds to numbers, zero for the kinds without a row.
A counter stops at `2 ^ 63`, the first number that no integer column holds.

## Main definitions

* `Identifiers.counterTable`: the definition of the table.
* `Identifiers.Counts`: the rows of a table of counters, by what they say.
* `Identifiers.advanced`: what they say after one of them has advanced.

## Main results

* `counts_insert` — **to advance a counter advances that counter and no other.**
-/

namespace ResourceTable

open Sql

namespace Identifiers

/-- The table that counters are kept in: the kinds, and the numbers given out last. -/
def counterTable : TableDef where
  name := "id_generator"
  columns := [⟨"resource", .text, false⟩, ⟨"max_id", .numeric, true⟩]
  key := .column "resource"

/-- The most that a counter stands at. -/
def highest : Nat := 2 ^ 63

/-- The rows of a table of counters: one for each kind whose counter is not zero. -/
structure Counts (t : StoredTable) (level : String → Nat) : Prop where
  definition : t.definition = counterTable
  ordered : t.Ordered
  bounded : ∀ kind, level kind ≤ highest
  rows : ∀ r ∈ t.rows, ∃ kind, r.cell "resource" = .text kind ∧ 0 < level kind ∧
    r.cell "max_id" = .ofInt (level kind)
  distinct : ∀ r ∈ t.rows, ∀ s ∈ t.rows, r.cell "resource" = s.cell "resource" → r = s
  present : ∀ kind, 0 < level kind → ∃ r ∈ t.rows, r.cell "resource" = .text kind

/-- A table without rows. -/
theorem counts_nil : Counts ⟨counterTable, []⟩ fun _ => 0 where
  definition := rfl
  ordered := .nil
  bounded := fun _ => Nat.zero_le _
  rows := fun _ h => nomatch h
  distinct := fun _ h => nomatch h
  present := fun _ h => absurd h (lt_irrefl 0)

/-- The counters after one of them has advanced. -/
def advanced (level : String → Nat) (kind : String) (n : Nat) : String → Nat :=
  Function.update level kind (min (level kind + n) highest)

theorem advanced_self (level : String → Nat) (kind : String) (n : Nat) :
    advanced level kind n kind = min (level kind + n) highest := Function.update_self ..

theorem advanced_of_ne {kind other : String} (h : other ≠ kind) (level : String → Nat) (n : Nat) :
    advanced level kind n other = level other := Function.update_of_ne h ..

/-! ### Advancing a counter -/

/-- The statement that advances a counter, as it is read. -/
def advanceStatement (kind size : Cell) : InsertStatement where
  table := "id_generator"
  columns := ["resource", "max_id"]
  values := [.literal kind, .literal size]
  onConflict := .update "resource"
    [("max_id", .plus (.member "id_generator" "max_id" 104) (.member "excluded" "max_id" 126))]
  returning := ["max_id"]

section Rows

variable {t : StoredTable} {level : String → Nat} {kind : String} {n : Nat}

/-- The row of a kind whose counter has advanced for the first time. -/
def firstRow (number : Int) (kind : String) (n : Nat) : StoredRow :=
  ⟨number, ((counterTable.blankRow number).cells.insert "resource" (.text kind)).insert
    "max_id" (.ofInt n)⟩

@[simp] theorem resource_firstRow (number : Int) :
    (firstRow number kind n).cell "resource" = .text kind := by
  rw [StoredRow.cell, firstRow, NameMap.get?_insert, if_neg (by decide), NameMap.get?_insert_self]
  rfl

@[simp] theorem max_firstRow (number : Int) :
    (firstRow number kind n).cell "max_id" = .ofInt n := by
  rw [StoredRow.cell, firstRow, NameMap.get?_insert_self]
  rfl

/-- A row with another number in it. -/
def withMax (r : StoredRow) (n : Nat) : StoredRow :=
  { r with cells := r.cells.insert "max_id" (.ofInt n) }

@[simp] theorem resource_withMax (r : StoredRow) :
    (withMax r n).cell "resource" = r.cell "resource" := by
  rw [StoredRow.cell, withMax, NameMap.get?_insert, if_neg (by decide)]
  rfl

@[simp] theorem max_withMax (r : StoredRow) : (withMax r n).cell "max_id" = .ofInt n := by
  rw [StoredRow.cell, withMax, NameMap.get?_insert_self]
  rfl

theorem holds_of_lt {n : Nat} (h : n < highest) : IntType.i64.Holds n := by
  show (-9223372036854775808 : Int) ≤ n ∧ (n : Int) ≤ 9223372036854775807
  unfold highest at h
  omega

theorem isNull_ofInt {n : Nat} (h : n ≤ highest) : (Cell.ofInt n).isNull = false := by
  rcases Nat.lt_or_ge n highest with h | h
  · rw [Cell.ofInt_of_holds (holds_of_lt h)]
    rfl
  · obtain rfl : n = 2 ^ 63 := le_antisymm ‹_› h
    rw [Cell.ofInt_beyond]
    rfl

theorem spelled_resource : counterTable.spelled "resource" = "resource" := by decide

theorem spelled_max : counterTable.spelled "max_id" = "max_id" := by decide

theorem stored_resource (kind : String) :
    counterTable.stored "resource" (.text kind) = .text kind := by
  have hcolumn : counterTable.column? "resource" = some ⟨"resource", .text, false⟩ := by decide
  rw [TableDef.stored, hcolumn]
  rfl

theorem stored_max (c : Cell) :
    counterTable.stored "max_id" c = Affinity.numeric.store c := by
  have hcolumn : counterTable.column? "max_id" = some ⟨"max_id", .numeric, true⟩ := by decide
  rw [TableDef.stored, hcolumn]

theorem store_ofInt {n : Nat} (h : n < highest) :
    Affinity.numeric.store (.ofInt n) = .ofInt n := by
  rw [Cell.ofInt_of_holds (holds_of_lt h)]
  rfl

/-- The counter of every kind has a value. -/
theorem checkRequired_eq_ok {r : StoredRow} (h : (r.cell "max_id").isNull = false) :
    counterTable.checkRequired r = .ok () := by
  unfold TableDef.checkRequired
  have hnone : (counterTable.columns.find? fun d => d.required && (r.cell d.name).isNull &&
      counterTable.key != .rowNumber d.name) = none := by
    refine List.find?_eq_none.2 fun d hd => ?_
    rcases List.mem_cons.1 hd with rfl | hd
    · simp
    · obtain rfl := List.mem_singleton.1 hd
      simp [h]
  dsimp only
  rw [hnone]

/-- The row to insert. -/
theorem newRow_eq (h : Counts t level) (kind : String) (now : Timestamp) (hn : n < highest) :
    t.newRow now ["resource", "max_id"] [.literal (.text kind), .literal (.ofInt n)] =
      .ok (firstRow t.freshNumber kind n) := by
  obtain ⟨d, rows⟩ := t
  obtain rfl : d = counterTable := h.definition
  unfold StoredTable.newRow StoredTable.assigned
  simp only [List.isEmpty_cons, Bool.false_eq_true, ↓reduceIte, List.length_cons, List.length_nil,
    bne_self_eq_false, List.zip_cons_cons, List.zip_nil_right, List.mapM_cons, List.mapM_nil,
    Term.value, List.foldl_cons, List.foldl_nil, bind, Except.bind, pure, Except.pure,
    spelled_resource, spelled_max, stored_resource, stored_max, store_ofInt hn]
  rfl

/-! ### The row of a kind -/

theorem same_text {a b : String} : (Cell.text a).same (.text b) = true ↔ a = b := by
  rw [Cell.same, Cell.order, beq_iff_eq]
  exact Std.LawfulEqCmp.compare_eq_iff_eq

/-- A row whose kind no other row has can be added or changed. -/
theorem rival?_eq_none (h : Counts t level) {r : StoredRow} {apart : Option Int}
    (hr : r.cell "resource" = .text kind)
    (hother : ∀ s ∈ t.rows, s.cell "resource" = .text kind → some s.number = apart) :
    t.rival? r apart = none := by
  unfold StoredTable.rival?
  rw [h.definition]
  dsimp only [counterTable, Key.name?]
  rw [hr, if_neg nofun]
  refine List.find?_eq_none.2 fun s hs hboth => ?_
  obtain ⟨hnumber, hsame⟩ := Bool.and_eq_true_iff.1 hboth
  obtain ⟨other, hother', -⟩ := h.rows s hs
  rw [hother', same_text] at hsame
  exact bne_iff_ne.1 hnumber (hother s hs (hsame ▸ hother'))

/-- The row of a kind is in the way of another one. -/
theorem rival?_eq_some (h : Counts t level) {r s : StoredRow}
    (hr : r.cell "resource" = .text kind) (hs : s ∈ t.rows)
    (hkind : s.cell "resource" = .text kind) : t.rival? r none = some s := by
  unfold StoredTable.rival?
  rw [h.definition]
  dsimp only [counterTable, Key.name?]
  rw [hr, if_neg nofun]
  cases hfind : t.rows.find? fun s => some s.number != none &&
      (s.cell "resource").same (.text kind) with
  | none =>
    have hnot := List.find?_eq_none.1 hfind s hs
    rw [hkind, same_text.2 rfl] at hnot
    exact absurd rfl hnot
  | some q =>
    have hq := List.mem_of_find?_eq_some hfind
    have hboth : (some q.number != none && (q.cell "resource").same (.text kind)) = true :=
      List.find?_some (p := fun s : StoredRow => some s.number != none &&
        (s.cell "resource").same (.text kind)) hfind
    have hsame := (Bool.and_eq_true_iff.1 hboth).2
    obtain ⟨other, hother, -⟩ := h.rows q hq
    rw [hother, same_text] at hsame
    exact congrArg some (h.distinct q hq s hs (by rw [hother, hkind, hsame]))

/-! ### The step -/

/-- The first advance of a counter adds its row. -/
theorem counts_adding (h : Counts t level) (hzero : level kind = 0) (hpos : 0 < n)
    (hn : n < highest) :
    Counts (t.adding (firstRow t.freshNumber kind n)) (advanced level kind n) := by
  have hnew : advanced level kind n kind = n := by
    rw [advanced_self, hzero, Nat.zero_add, Nat.min_eq_left hn.le]
  have habsent : ∀ s ∈ t.rows, ∀ other, s.cell "resource" = .text other → other ≠ kind := by
    rintro s hs other hother rfl
    obtain ⟨k, hk, hlevel, -⟩ := h.rows s hs
    obtain rfl := Cell.text.inj (hother.symm.trans hk)
    omega
  constructor
  · exact h.definition
  · exact StoredTable.ordered_adding h.ordered fun s hs =>
      (StoredTable.lt_freshNumber h.ordered s hs).ne
  · intro other
    by_cases hother : other = kind
    · rw [hother, hnew]
      exact hn.le
    · rw [advanced_of_ne hother]
      exact h.bounded other
  · intro r hr
    rcases StoredTable.mem_place.1 hr with rfl | hr
    · exact ⟨kind, resource_firstRow _, by rwa [hnew], by rw [hnew, max_firstRow]⟩
    · obtain ⟨other, hother, hlevel⟩ := h.rows r hr
      refine ⟨other, hother, ?_⟩
      rwa [advanced_of_ne (habsent r hr other hother)]
  · have hapart : ∀ s ∈ t.rows, s.cell "resource" ≠ .text kind :=
      fun s hs he => habsent s hs kind he rfl
    intro r hr s hs he
    rcases StoredTable.mem_place.1 hr with rfl | hr <;>
      rcases StoredTable.mem_place.1 hs with rfl | hs
    · rfl
    · exact absurd (he.symm.trans (resource_firstRow _)) (hapart s hs)
    · exact absurd (he.trans (resource_firstRow _)) (hapart r hr)
    · exact h.distinct r hr s hs he
  · intro other hother
    by_cases hkind : other = kind
    · exact ⟨_, StoredTable.mem_place.2 (.inl rfl), by rw [hkind, resource_firstRow]⟩
    · rw [advanced_of_ne hkind] at hother
      obtain ⟨r, hr, hresource⟩ := h.present other hother
      exact ⟨r, StoredTable.mem_place.2 (.inr hr), hresource⟩

/-- Each further advance changes the row of its kind. -/
theorem counts_replacing (h : Counts t level) {s : StoredRow} (hs : s ∈ t.rows)
    (hkind : s.cell "resource" = .text kind) (hpos : 0 < n) :
    Counts ((t.without s.number).adding (withMax s (min (level kind + n) highest)))
      (advanced level kind n) := by
  have hnumbered := h.ordered.numbered
  -- Taking the number away takes the row of the kind away, and no other.
  have hmem (r : StoredRow) : r ∈ (t.without s.number).rows ↔
      r ∈ t.rows ∧ r.cell "resource" ≠ .text kind := by
    rw [StoredTable.without, List.mem_filter, bne_iff_ne]
    refine and_congr_right fun hr => not_congr ⟨fun he => ?_, fun he => ?_⟩
    · rw [hnumbered r hr s hs he, hkind]
    · rw [h.distinct r hr s hs (he.trans hkind.symm)]
  have hadvanced : 0 < advanced level kind n kind := by
    rw [advanced_self]
    exact lt_min (by omega) (by decide)
  constructor
  · exact h.definition
  · exact StoredTable.ordered_replacing (r := withMax s _) h.ordered
  · intro other
    by_cases hother : other = kind
    · rw [hother, advanced_self]
      exact Nat.min_le_right _ _
    · rw [advanced_of_ne hother]
      exact h.bounded other
  · intro r hr
    rcases StoredTable.mem_place.1 hr with rfl | hr
    · exact ⟨kind, by rw [resource_withMax, hkind], hadvanced, by rw [max_withMax, advanced_self]⟩
    · obtain ⟨hr, hne⟩ := (hmem r).1 hr
      obtain ⟨other, hother, hlevel⟩ := h.rows r hr
      have hkinds : other ≠ kind := by
        rintro rfl
        exact hne hother
      exact ⟨other, hother, by rwa [advanced_of_ne hkinds]⟩
  · intro r hr q hq he
    rcases StoredTable.mem_place.1 hr with rfl | hr <;>
      rcases StoredTable.mem_place.1 hq with rfl | hq
    · rfl
    · exact absurd (he.symm.trans ((resource_withMax s).trans hkind)) ((hmem q).1 hq).2
    · exact absurd (he.trans ((resource_withMax s).trans hkind)) ((hmem r).1 hr).2
    · exact h.distinct r ((hmem r).1 hr).1 q ((hmem q).1 hq).1 he
  · intro other hother
    by_cases hkinds : other = kind
    · exact ⟨_, StoredTable.mem_place.2 (.inl rfl), by rw [hkinds, resource_withMax, hkind]⟩
    · rw [advanced_of_ne hkinds] at hother
      obtain ⟨r, hr, hresource⟩ := h.present other hother
      refine ⟨r, StoredTable.mem_place.2 (.inr ((hmem r).2 ⟨hr, ?_⟩)), hresource⟩
      rw [hresource]
      exact fun he => hkinds (Cell.text.inj he)

/-- The row of a kind is given the sum of its number and the size. -/
theorem changeRow_eq (h : Counts t level) (now : Timestamp) {s : StoredRow} (hs : s ∈ t.rows)
    (hkind : s.cell "resource" = .text kind) (number : Int) (hpos : 0 < n) (hn : n ≤ 1000) :
    let changed := withMax s (min (level kind + n) highest)
    t.changeRow (t.definition.conflictScope now s (firstRow number kind n))
        [("max_id", .plus (.member "id_generator" "max_id" 104) (.member "excluded" "max_id" 126))]
        s = .ok ((t.without s.number).adding changed, changed) := by
  intro changed
  obtain ⟨other, hother, -, hmax⟩ := h.rows s hs
  obtain rfl := Cell.text.inj (hother.symm.trans hkind)
  have hslot (r : StoredRow) :
      counterTable.slot? r "max_id" = some ⟨.numeric, r.cell "max_id"⟩ := by
    have hresolve : counterTable.resolve "max_id" = some (.named "max_id") := by decide
    rw [TableDef.slot?, hresolve]
    rfl
  have hown : (counterTable.conflictScope now s (firstRow number other n)).member?
      "id_generator" "max_id" = some ⟨.numeric, .ofInt (level other)⟩ := by
    have hnot : sameName "id_generator" "excluded" = false := by decide
    have hname : sameName "id_generator" counterTable.name = true := by decide
    rw [TableDef.conflictScope]
    dsimp only
    rw [hnot, if_neg nofun, hname, if_pos rfl, hslot, hmax]
  have hexcluded : (counterTable.conflictScope now s (firstRow number other n)).member?
      "excluded" "max_id" = some ⟨.numeric, .ofInt n⟩ := by
    have hname : sameName "excluded" "excluded" = true := by decide
    rw [TableDef.conflictScope]
    dsimp only
    rw [hname, if_pos rfl, hslot, max_firstRow]
  have hassigned : t.assigned (counterTable.conflictScope now s (firstRow number other n))
      [("max_id", .plus (.member "id_generator" "max_id" 104) (.member "excluded" "max_id" 126))]
      s = .ok changed := by
    unfold StoredTable.assigned
    simp only [List.mapM_cons, List.mapM_nil, Term.value, hown, hexcluded, Term.slotValue,
      List.foldl_cons, List.foldl_nil, bind, Except.bind, pure, Except.pure, h.definition,
      spelled_max, stored_max, Cell.store_plus (h.bounded other) hpos hn]
    rfl
  have hnull : (changed.cell "max_id").isNull = false := by
    rw [max_withMax]
    exact isNull_ofInt (Nat.min_le_right _ _)
  have hrival : t.rival? changed (some s.number) = none :=
    rival?_eq_none h ((resource_withMax s).trans hother) fun q hq hresource => by
      rw [h.distinct q hq s hs (hresource.trans hother.symm)]
  have hnumbered : counterTable.numbered none changed = .ok changed := rfl
  unfold StoredTable.changeRow StoredTable.checkKey
  rw [h.definition, hassigned, Test.ok_bind, hnumbered, Test.ok_bind, checkRequired_eq_ok hnull,
    Test.ok_bind, hrival]
  rfl

/-- **To advance a counter advances that counter and no other**, and gives the number that
it then stands at. -/
theorem counts_insert (h : Counts t level) (now : Timestamp) (kind : String) (hpos : 0 < n)
    (hn : n ≤ 1000) :
    ∃ u r, t.insert now (advanceStatement (.text kind) (.ofInt n)) = .ok (u, r) ∧
      Counts u (advanced level kind n) ∧
      r.cell "max_id" = .ofInt (advanced level kind n kind) := by
  have hlt : n < highest := by unfold highest; omega
  have hnew := newRow_eq h kind now hlt
  have hnull : ((firstRow t.freshNumber kind n).cell "max_id").isNull = false := by
    rw [max_firstRow]
    exact isNull_ofInt hlt.le
  have hrequired := checkRequired_eq_ok hnull
  unfold StoredTable.insert
  dsimp only [advanceStatement]
  rw [hnew, Test.ok_bind, h.definition, hrequired, Test.ok_bind]
  rcases Nat.eq_zero_or_pos (level kind) with hzero | hlevel
  · have hrival : t.rival? (firstRow t.freshNumber kind n) none = none := by
      refine rival?_eq_none h (resource_firstRow _) fun s hs hresource => ?_
      obtain ⟨other, hother, hlevel, -⟩ := h.rows s hs
      obtain rfl := Cell.text.inj (hother.symm.trans hresource)
      omega
    rw [hrival]
    refine ⟨_, _, rfl, counts_adding h hzero hpos hlt, ?_⟩
    rw [max_firstRow, advanced_self, hzero, Nat.zero_add, Nat.min_eq_left hlt.le]
  · obtain ⟨s, hs, hresource⟩ := h.present kind hlevel
    rw [rival?_eq_some h (resource_firstRow _) hs hresource]
    refine ⟨_, withMax s (min (level kind + n) highest), ?_,
      counts_replacing h hs hresource hpos, ?_⟩
    · rw [← h.definition]
      exact changeRow_eq h now hs hresource t.freshNumber hpos hn
    · rw [max_withMax, advanced_self]

end Rows

end Identifiers

end ResourceTable
