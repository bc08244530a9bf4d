import ResourceTable.Proofs.RowTruth
import ResourceTable.Proofs.StoredOrder

/-!
# Filters on times

A text that is a value of a time column is in the Internet format.  It is bound as the
moment in UTC that it denotes, and stored and compared as the text of that moment.  The
texts compare as the instants do, to the microsecond, except that one whose year in UTC
has five digits comes before all others.

## Main definitions

* `Value.BindsTime`: the moment that a text denotes, and the text that is bound for it.

## Main results

* `readInternet_bounds` — a moment that was read has a year of four digits, and its offset
  is less than a day.
* `exists_bindsTime` — a text that suits a time column is bound.
* `BindsTime.compare_iff` — when the bound texts compare as the instants.
* `times_compare` — **filters on times compare instants to the microsecond**, up to the
  last year of four digits.
-/

namespace ResourceTable

open Sql

/-! ### Moments that were read -/

theorem foldl_digits_lt : ∀ {cs : List Char} (n : Nat), cs.all Char.isDigit = true →
    cs.foldl (fun n c => n * 10 + (c.toNat - '0'.toNat)) n < (n + 1) * 10 ^ cs.length := by
  intro cs
  induction cs with
  | nil =>
    intro n _
    simp
  | cons c rest ih =>
    intro n h
    rw [List.all_cons, Bool.and_eq_true] at h
    have hdigit : c.toNat - '0'.toNat < 10 := by
      have hrange := (isDigit_iff_toNat c).1 h.1
      show c.toNat - 48 < 10
      omega
    have hstep : n * 10 + (c.toNat - '0'.toNat) + 1 ≤ (n + 1) * 10 := by omega
    calc (c :: rest).foldl (fun n c => n * 10 + (c.toNat - '0'.toNat)) n
        < (n * 10 + (c.toNat - '0'.toNat) + 1) * 10 ^ rest.length := ih _ h.2
      _ ≤ (n + 1) * 10 * 10 ^ rest.length := Nat.mul_le_mul_right _ hstep
      _ = (n + 1) * 10 ^ (c :: rest).length := by
        rw [Nat.mul_assoc, List.length_cons, Nat.pow_succ, Nat.mul_comm 10]

/-- What some digits denote has no more digits. -/
theorem readDigits?_lt {cs : List Char} {n : Nat} (h : readDigits? cs = some n) :
    n < 10 ^ cs.length := by
  unfold readDigits? at h
  split at h
  · next hdigits =>
    obtain rfl := Option.some.inj h
    have hlt := foldl_digits_lt 0 hdigits
    rwa [Nat.zero_add, Nat.one_mul] at hlt
  · cases h

/-- An offset that was read is less than a day. -/
theorem readOffset?_lt {cs : List Char} {offset : Int} (h : readOffset? cs = some offset) :
    offset.natAbs < 1440 := by
  unfold readOffset? at h
  split at h
  · cases h
    decide
  · cases h
    decide
  · obtain ⟨hours, -, h⟩ := Option.bind_eq_some_iff.1 h
    obtain ⟨minutes, -, h⟩ := Option.bind_eq_some_iff.1 h
    dsimp only at h
    split at h
    · cases h
    · next hrange =>
      split at h
      · cases h
        omega
      · split at h
        · cases h
          omega
        · cases h
  · cases h

/-- A moment that was read has a year of four digits, and its offset is less than a day. -/
theorem readInternet_bounds {cs : List Char} {z : ZonedDateTime} (h : readInternet cs = some z) :
    (0 ≤ z.clock.date.year ∧ z.clock.date.year ≤ 9999) ∧ z.offset.natAbs < 1440 := by
  unfold readInternet at h
  split at h
  · obtain ⟨year, hyear, h⟩ := Option.bind_eq_some_iff.1 h
    obtain ⟨month, -, h⟩ := Option.bind_eq_some_iff.1 h
    obtain ⟨day, -, h⟩ := Option.bind_eq_some_iff.1 h
    obtain ⟨hour, -, h⟩ := Option.bind_eq_some_iff.1 h
    obtain ⟨minute, -, h⟩ := Option.bind_eq_some_iff.1 h
    obtain ⟨second, -, h⟩ := Option.bind_eq_some_iff.1 h
    split at h
    · obtain ⟨⟨nano, rest⟩, -, h⟩ := Option.bind_eq_some_iff.1 h
      obtain ⟨offset, hoffset, h⟩ := Option.bind_eq_some_iff.1 h
      obtain ⟨date, hdate, h⟩ := Option.bind_eq_some_iff.1 h
      obtain ⟨time, -, h⟩ := Option.bind_eq_some_iff.1 h
      obtain rfl := Option.some.inj h
      have hdigits : year < 10 ^ 4 := readDigits?_lt hyear
      have hsame : date.year = year := by
        unfold Date.ofNumbers? at hdate
        split at hdate
        · obtain rfl := Option.some.inj hdate
          rfl
        · cases hdate
      refine ⟨?_, readOffset?_lt hoffset⟩
      dsimp only
      omega
    · cases h
  · cases h

/-- The year in UTC is at most one away. -/
theorem ZonedDateTime.year_toTimestamp {z : ZonedDateTime}
    (h : 0 ≤ z.clock.date.year ∧ z.clock.date.year ≤ 9999) :
    -1 ≤ z.toTimestamp.date.year ∧ z.toTimestamp.date.year ≤ 10000 := by
  have hprevious (d : Date) : d.previous.year = d.year ∨ d.previous.year = d.year - 1 := by
    unfold Date.previous
    split
    · exact .inl rfl
    · split
      · exact .inl rfl
      · exact .inr rfl
  have hnext (d : Date) : d.next.year = d.year ∨ d.next.year = d.year + 1 := by
    unfold Date.next
    split
    · exact .inl rfl
    · split
      · exact .inl rfl
      · exact .inr rfl
  have hbefore := hprevious z.clock.date
  have hafter := hnext z.clock.date
  simp only [toTimestamp]
  split
  · omega
  · split <;> omega

/-! ### What is bound -/

namespace Value

/-- The moment that a text denotes as a value of a time column, and the text that is bound
for it. -/
structure BindsTime (s : String) (z : ZonedDateTime) (bound : String) : Prop where
  /-- The text denotes the moment. -/
  denotes : readInternet s.toList = some z
  /-- What is bound is a text. -/
  cell : ∃ v, (text s).bound (some .time) = .ok v ∧ v.toCell = .ok (.text bound)

variable {s s' : String} {z z' : ZonedDateTime} {b b' : String}

/-- A text that suits a time column is bound. -/
theorem exists_bindsTime (h : (text s).suits .time = true) :
    ∃ z, BindsTime s z z.toTimestamp.stored := by
  obtain ⟨z, hz⟩ : ∃ z, readInternet s.toList = some z := Option.isSome_iff_exists.1 h
  refine ⟨z, hz, .timestamp (some z.toTimestamp), ?_, rfl⟩
  unfold bound text
  simp only [hz]

namespace BindsTime

theorem eq_stored (h : BindsTime s z b) : b = z.toTimestamp.stored := by
  obtain ⟨v, hbound, hcell⟩ := h.cell
  unfold bound text at hbound
  simp only [h.denotes] at hbound
  cases hbound
  exact (Cell.text.inj (Except.ok.inj hcell)).symm

theorem year (h : BindsTime s z b) :
    -1 ≤ z.toTimestamp.date.year ∧ z.toTimestamp.date.year ≤ 10000 :=
  z.year_toTimestamp (readInternet_bounds h.denotes).1

theorem instant (h : BindsTime s z b) : z.toTimestamp.instant = z.instant :=
  z.instant_toTimestamp (readInternet_bounds h.denotes).2

/-- **The bound texts compare as the instants to the microsecond exactly if both moments
are of the year of five digits in UTC or neither is.** -/
theorem compare_iff (h : BindsTime s z b) (h' : BindsTime s' z' b') :
    compare b b' = cmp z.instant.micros z'.instant.micros ↔
      (z.toTimestamp.date.year = 10000 ↔ z'.toTimestamp.date.year = 10000) := by
  have hyear := h.year
  have hyear' := h'.year
  rw [h.eq_stored, h'.eq_stored, ← h.instant, ← h'.instant]
  by_cases hlate : z.toTimestamp.date.year = 10000 <;>
    by_cases hlate' : z'.toTimestamp.date.year = 10000
  · exact iff_of_true (Timestamp.compare_stored_of_year_eq (hlate.trans hlate'.symm))
      (iff_of_true hlate hlate')
  · -- The later moment has the smaller text.
    have htext := Timestamp.compare_stored_of_late hlate ⟨hyear'.1, by omega⟩
    have hinstant : z'.toTimestamp.instant.micros < z.toTimestamp.instant.micros :=
      Timestamp.micros_lt_of_year_lt (by omega)
    rw [htext, (cmp_eq_gt_iff _ _).2 hinstant]
    exact iff_of_false (by decide) fun hiff => hlate' (hiff.1 hlate)
  · -- The same the other way round.
    have htext := Timestamp.compare_stored_of_late hlate' ⟨hyear.1, by omega⟩
    have hinstant : z.toTimestamp.instant.micros < z'.toTimestamp.instant.micros :=
      Timestamp.micros_lt_of_year_lt (by omega)
    have hswap : compare z.toTimestamp.stored z'.toTimestamp.stored =
        (compare z'.toTimestamp.stored z.toTimestamp.stored).swap := Std.OrientedCmp.eq_swap
    rw [hswap, htext, (cmp_eq_lt_iff _ _).2 hinstant]
    exact iff_of_false (by decide) fun hiff => hlate (hiff.2 hlate')
  · exact iff_of_true (Timestamp.compare_stored (by omega) (by omega))
      (iff_of_false hlate hlate')

/-- The same instant binds the same text, whatever its offset. -/
theorem eq_of_micros_eq (h : BindsTime s z b) (h' : BindsTime s' z' b')
    (hsame : z.instant.micros = z'.instant.micros) : b = b' := by
  have hyear : z.toTimestamp.date.year = z'.toTimestamp.date.year := by
    rw [← h.instant, ← h'.instant] at hsame
    rcases lt_trichotomy z.toTimestamp.date.year z'.toTimestamp.date.year with hlt | heq | hgt
    · exact absurd hsame (Timestamp.micros_lt_of_year_lt hlt).ne
    · exact heq
    · exact absurd hsame (Timestamp.micros_lt_of_year_lt hgt).ne'
  have hcompare := (h.compare_iff h').2 (by rw [hyear])
  rw [(cmp_eq_eq_iff _ _).2 hsame] at hcompare
  exact Std.LawfulEqCmp.eq_of_compare hcompare

/-- A stored timestamp compares with a bound text as the instants. -/
theorem compare_stored (h : BindsTime s z b) (hz : z.toTimestamp.date.year ≠ 10000)
    {t : Timestamp} (ht : -1 ≤ t.date.year ∧ t.date.year ≤ 9999) :
    compare t.stored b = cmp t.instant.micros z.instant.micros := by
  have hyear := h.year
  rw [h.eq_stored, ← h.instant]
  exact Timestamp.compare_stored ht (by omega)

end BindsTime

end Value

/-! ### Filters -/

/-- The filter that a time column is not after a text. -/
def notAfter (field s : String) : Filter := .rule ⟨field, .lessOrEqual, .single (.text s)⟩

/-- It holds of a row whose timestamp is not after what the text denotes. -/
theorem holdsIn_notAfter {fields : Schema} {scope : Scope} {field s b : String}
    {z : ZonedDateTime} {t : Timestamp} (htime : fields.get? field = some .time)
    (hname : Parse.constant? field = none)
    (hcolumn : scope.column? field = some ⟨.text, .text t.stored⟩) (h : Value.BindsTime s z b)
    (hz : z.toTimestamp.date.year ≠ 10000) (ht : -1 ≤ t.date.year ∧ t.date.year ≤ 9999) :
    (notAfter field s).HoldsIn fields scope ↔ t.instant.micros ≤ z.instant.micros := by
  have hcell : ((Value.text s).moment (fields.get? field)).cell = .text b := by
    obtain ⟨v, hbound, hcell⟩ := h.cell
    rw [htime, Value.moment, hbound]
    show v.cell = _
    rw [Value.cell, hcell]
    rfl
  rw [notAfter, Filter.holdsIn_compare rfl hname hcolumn, hcell]
  show Truth.ofBool (Comparison.lessOrEqual.holds (compare t.stored b)) = .yes ↔ _
  rw [h.compare_stored hz ht, ← not_lt, ← cmp_eq_gt_iff]
  cases cmp t.instant.micros z.instant.micros <;> decide

/-- **Filters on times compare instants to the microsecond**, up to the last year of four
digits.  Every two texts that suit a time column are bound.  The bound texts compare as
the instants exactly if both or neither of these are in the year of five digits in UTC;
the same instant binds the same text; and the rows whose timestamp is not after a text are
those whose instant is not after its one. -/
theorem times_compare {s s' : String} (h : (Value.text s).suits .time = true)
    (h' : (Value.text s').suits .time = true) :
    ∃ z z' b b', Value.BindsTime s z b ∧ Value.BindsTime s' z' b' ∧
      (compare b b' = cmp z.instant.micros z'.instant.micros ↔
        (z.toTimestamp.date.year = 10000 ↔ z'.toTimestamp.date.year = 10000)) ∧
      (z.instant.micros = z'.instant.micros → b = b') ∧
      ∀ (fields : Schema) (scope : Scope) (t : Timestamp),
        fields.get? "created_at" = some .time →
        scope.column? "created_at" = some ⟨.text, .text t.stored⟩ →
        -1 ≤ t.date.year ∧ t.date.year ≤ 9999 → z.toTimestamp.date.year ≠ 10000 →
          ((notAfter "created_at" s).HoldsIn fields scope ↔
            t.instant.micros ≤ z.instant.micros) := by
  obtain ⟨z, hz⟩ := Value.exists_bindsTime h
  obtain ⟨z', hz'⟩ := Value.exists_bindsTime h'
  refine ⟨z, z', _, _, hz, hz', hz.compare_iff hz', hz.eq_of_micros_eq hz', ?_⟩
  intro fields scope t htime hcolumn ht hlate
  exact holdsIn_notAfter htime (by decide +kernel) hcolumn hz hlate ht

/-- A row that was created at a time. -/
def createdAt (t : Timestamp) : Scope where
  column? name := if name = "created_at" then some ⟨.text, .text t.stored⟩ else none
  member? _ _ := none
  now := t

/-- An instant of 2023 in UTC, as a clock in another year shows it. -/
theorem times_compare_newYear :
    (Value.text "2024-01-01T00:30:00.5+08:00").suits .time = true ∧
      (Value.text "2023-12-31t16:30:00.500000z").suits .time = true ∧
      ∃ z z' b b', Value.BindsTime "2024-01-01T00:30:00.5+08:00" z b ∧
        Value.BindsTime "2023-12-31t16:30:00.500000z" z' b' ∧
        compare b b' = cmp z.instant.micros z'.instant.micros ∧ b = b' ∧
        (notAfter "created_at" "2024-01-01T00:30:00.5+08:00").HoldsIn
          (.ofList [("created_at", .time)]) (createdAt .epoch) := by
  have h : (Value.text "2024-01-01T00:30:00.5+08:00").suits .time = true := by decide +kernel
  have h' : (Value.text "2023-12-31t16:30:00.500000z").suits .time = true := by decide +kernel
  obtain ⟨z, z', b, b', hz, hz', hcompare, hsame, hfilter⟩ := times_compare h h'
  let east : ZonedDateTime :=
    ⟨⟨⟨2024, 1, 1, by decide⟩, ⟨0, 30, 0, 500000000, by decide⟩⟩, 480⟩
  let utc : ZonedDateTime :=
    ⟨⟨⟨2023, 12, 31, by decide⟩, ⟨16, 30, 0, 500000000, by decide⟩⟩, 0⟩
  have hread : readInternet "2024-01-01T00:30:00.5+08:00".toList = some east := by
    decide +kernel
  have hread' : readInternet "2023-12-31t16:30:00.500000z".toList = some utc := by
    decide +kernel
  obtain rfl := Option.some.inj (hz.denotes.symm.trans hread)
  obtain rfl := Option.some.inj (hz'.denotes.symm.trans hread')
  have hyear : east.toTimestamp.date.year = 2023 := by decide +kernel
  have hyear' : utc.toTimestamp.date.year = 2023 := by decide +kernel
  have hholds := hfilter (.ofList [("created_at", .time)]) (createdAt .epoch) .epoch
    (by decide +kernel) rfl (by decide) (by rw [hyear]; decide)
  refine ⟨h, h', east, utc, b, b', hz, hz', hcompare.2 ?_, hsame (by decide +kernel), hholds.2 ?_⟩
  · rw [hyear, hyear']
  · decide +kernel

/-- The last hour before the year of five digits, as a clock behind UTC shows it, binds a
text that comes before that of an instant of 2024. -/
theorem times_compare_late :
    (Value.text "9999-12-31T23:59:59-01:00").suits .time = true ∧
      (Value.text "2024-01-01T00:00:00Z").suits .time = true ∧
      ¬ ∀ z z' b b', Value.BindsTime "9999-12-31T23:59:59-01:00" z b →
        Value.BindsTime "2024-01-01T00:00:00Z" z' b' →
          compare b b' = cmp z.instant.micros z'.instant.micros := by
  have h : (Value.text "9999-12-31T23:59:59-01:00").suits .time = true := by decide +kernel
  have h' : (Value.text "2024-01-01T00:00:00Z").suits .time = true := by decide +kernel
  refine ⟨h, h', fun hall => ?_⟩
  obtain ⟨z, hz⟩ := Value.exists_bindsTime h
  obtain ⟨z', hz'⟩ := Value.exists_bindsTime h'
  have hlate : z.toTimestamp.date.year = 10000 := by
    let late : ZonedDateTime := ⟨⟨⟨9999, 12, 31, by decide⟩, ⟨23, 59, 59, 0, by decide⟩⟩, -60⟩
    have hread : readInternet "9999-12-31T23:59:59-01:00".toList = some late := by
      decide +kernel
    obtain rfl := Option.some.inj (hz.denotes.symm.trans hread)
    decide +kernel
  have hearly : z'.toTimestamp.date.year = 2024 := by
    let newYear : ZonedDateTime := ⟨⟨⟨2024, 1, 1, by decide⟩, ⟨0, 0, 0, 0, by decide⟩⟩, 0⟩
    have hread : readInternet "2024-01-01T00:00:00Z".toList = some newYear := by decide +kernel
    obtain rfl := Option.some.inj (hz'.denotes.symm.trans hread)
    decide +kernel
  have hiff := (hz.compare_iff hz').1 (hall _ _ _ _ hz hz')
  rw [hearly] at hiff
  exact absurd (hiff.1 hlate) (by decide)

end ResourceTable
