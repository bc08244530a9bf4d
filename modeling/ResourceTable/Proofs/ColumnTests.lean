import ResourceTable.Proofs.FilterTest
import ResourceTable.Sql.Names

/-!
# Tests of columns

The test of a filter looks at columns and values, and at nothing else: not at the clock,
and at no number that has no value.  So it can be prepared wherever its columns are, and
holds of a row at all times or at none.

## Main definitions

* `Term.OnlyColumns`, `Test.OnlyColumns`: what looks at some columns and at values only.

## Main results

* `checkNames_of_onlyColumns`, `oversized?_of_onlyColumns` — such tests are prepared.
* `holds_congr` — **such tests depend on these columns alone**, and so not on the clock.
* `Filter.onlyColumns_asTest` — the test of a filter is one.
-/

namespace ResourceTable

open Sql

namespace Sql

/-! ### Terms -/

namespace Term

/-- The term is made of columns with some names and of values. -/
def OnlyColumns (P : String → Prop) : Term → Prop
  | .literal _ | .fixed _ _ => True
  | .column name _ => P name
  | .lower a | .negated a => a.OnlyColumns P
  | .plus a b | .minus a b | .part a b | .partKind a b | .partLength a b =>
    a.OnlyColumns P ∧ b.OnlyColumns P
  | .oversized _ _ | .member _ _ _ | .clock _ | .misused _ _ => False

section

variable {P Q : String → Prop} {s u : Scope} {t : Term}

theorem OnlyColumns.mono (h : t.OnlyColumns P) (hPQ : ∀ name, P name → Q name) :
    t.OnlyColumns Q := by
  induction t with
  | literal | fixed => trivial
  | column name => exact hPQ name h
  | lower _ ih | negated _ ih => exact ih h
  | plus _ _ iha ihb | minus _ _ iha ihb | part _ _ iha ihb | partKind _ _ iha ihb
  | partLength _ _ iha ihb => exact ⟨iha h.1, ihb h.2⟩
  | oversized | member | clock | misused => exact h

/-- The names in the term are found without a fault. -/
theorem OnlyColumns.lookUp_eq (h : t.OnlyColumns P)
    (hs : ∀ name, P name → (s.column? name).isSome = true) : t.lookUp s {} = {} := by
  induction t with
  | literal | fixed => rfl
  | column name => exact if_pos (hs name h)
  | lower _ ih =>
    rw [lookUp, Lookup.within, ih h]
  | negated _ ih => exact ih h
  | plus _ _ iha ihb | minus _ _ iha ihb =>
    have ha := iha h.1
    rw [lookUp]
    show ((lookUp s _ {}).andThen _) = _
    rw [ha]
    exact ihb h.2
  | part _ _ iha ihb | partKind _ _ iha ihb | partLength _ _ iha ihb =>
    rw [lookUp, Lookup.within, iha h.1]
    show { lookUp s _ {} with goesOn := true } = _
    rw [ihb h.2]
  | oversized | member | clock | misused => exact h.elim

/-- The numbers in the term have values. -/
theorem OnlyColumns.oversized?_eq (h : t.OnlyColumns P) : t.oversized? = none := by
  induction t with
  | literal | fixed | column => rfl
  | lower _ ih | negated _ ih => exact ih h
  | plus _ _ iha ihb | minus _ _ iha ihb | part _ _ iha ihb | partKind _ _ iha ihb
  | partLength _ _ iha ihb =>
    rw [oversized?, iha h.1, ihb h.2]
    rfl
  | oversized | member | clock | misused => exact h.elim

theorem OnlyColumns.affinity?_eq (h : t.OnlyColumns P)
    (hs : ∀ name, P name → s.column? name = u.column? name) : t.affinity? s = t.affinity? u := by
  cases t with
  | column name => rw [affinity?, affinity?, hs name h]
  | member => exact h.elim
  | _ => rfl

/-- The value of the term is that of its columns. -/
theorem OnlyColumns.value_eq (h : t.OnlyColumns P)
    (hs : ∀ name, P name → s.column? name = u.column? name) : t.value s = t.value u := by
  induction t with
  | literal | fixed => rfl
  | column name => rw [value, value, hs name h]
  | lower _ ih | negated _ ih => rw [value, value, ih h]
  | plus _ _ iha ihb | minus _ _ iha ihb | part _ _ iha ihb | partKind _ _ iha ihb
  | partLength _ _ iha ihb => rw [value, value, iha h.1, ihb h.2]
  | oversized | member | clock | misused => exact h.elim

end

end Term

theorem mapM_value_congr {P : String → Prop} {s u : Scope}
    (hs : ∀ name, P name → s.column? name = u.column? name) :
    ∀ {items : List Term}, (∀ item ∈ items, item.OnlyColumns P) →
      items.mapM (Term.value s) = items.mapM (Term.value u) := by
  intro items
  induction items with
  | nil => exact fun _ => rfl
  | cons item rest ih =>
    intro h
    obtain ⟨hitem, hrest⟩ := List.forall_mem_cons.1 h
    rw [List.mapM_cons, List.mapM_cons, hitem.value_eq hs, ih hrest]

/-! ### Tests -/

namespace Test

/-- The test looks at columns with some names and at values; in the test of elements there
is the column of their values besides. -/
def OnlyColumns (P : String → Prop) : Test → Prop
  | .compare _ a b | .fits _ a b => a.OnlyColumns P ∧ b.OnlyColumns P
  | .among _ a items => a.OnlyColumns P ∧ ∀ item ∈ items, item.OnlyColumns P
  | .missing _ a => a.OnlyColumns P
  | .someElement document path test =>
    document.OnlyColumns P ∧ path.OnlyColumns P ∧
      test.OnlyColumns fun name => P name ∨ sameName name "value" = true
  | .both a b | .either a b => a.OnlyColumns P ∧ b.OnlyColumns P

section

variable {t : Test}

/-- The names in the test are found without a fault. -/
theorem OnlyColumns.lookUp_eq : ∀ {P : String → Prop} {s : Scope}, t.OnlyColumns P →
    (∀ name, P name → (s.column? name).isSome = true) → t.lookUp s {} = {} := by
  induction t with
  | compare _ a b =>
    intro P s h hs
    rw [lookUp]
    show ((a.lookUp s {}).andThen _) = _
    rw [h.1.lookUp_eq hs]
    exact h.2.lookUp_eq hs
  | fits _ a b =>
    intro P s h hs
    rw [lookUp, Lookup.within, h.2.lookUp_eq hs]
    show { a.lookUp s {} with goesOn := true } = _
    rw [h.1.lookUp_eq hs]
  | among _ a items =>
    intro P s h hs
    rw [lookUp]
    show items.foldl _ (a.lookUp s {}) = _
    rw [h.1.lookUp_eq hs]
    have hitems := h.2
    clear h
    induction items with
    | nil => rfl
    | cons item rest ih =>
      obtain ⟨hitem, hrest⟩ := List.forall_mem_cons.1 hitems
      rw [List.foldl_cons]
      show rest.foldl _ (item.lookUp s {}) = _
      rw [hitem.lookUp_eq hs]
      exact ih hrest
  | missing _ a =>
    intro P s h hs
    have ha : a.OnlyColumns P := h
    rw [lookUp, Lookup.within, ha.lookUp_eq hs]
  | someElement document path test ih =>
    intro P s h hs
    obtain ⟨hdocument, hpath, htest⟩ := h
    have horigin : (if document.isElementColumn then ({} : Lookup) else document.lookUp s {}) =
        {} := by
      split
      · rfl
      · exact hdocument.lookUp_eq hs
    -- The column of the values is there for the elements.
    have hvalue : ∀ name, P name ∨ sameName name "value" = true →
        ((s.withColumn "value" .null).column? name).isSome = true := by
      intro name hname
      dsimp only [Scope.withColumn]
      split
      · rfl
      · next hnot => exact hs name (hname.resolve_right hnot)
    rw [lookUp]
    show ((((if document.isElementColumn then ({} : Lookup) else document.lookUp s {}).checked.andThen
      (path.lookUp s)).checked).andThen _) = _
    rw [horigin]
    show ((path.lookUp s {}).checked.andThen _) = _
    rw [hpath.lookUp_eq hs]
    show (test.lookUp (s.withColumn "value" .null) {}).checked = _
    rw [ih htest hvalue]
    rfl
  | both a b iha ihb | either a b iha ihb =>
    intro P s h hs
    rw [lookUp]
    show ((a.lookUp s {}).andThen _) = _
    rw [iha h.1 hs]
    exact ihb h.2 hs

theorem checkNames_of_onlyColumns {P : String → Prop} {s : Scope} (h : t.OnlyColumns P)
    (hs : ∀ name, P name → (s.column? name).isSome = true) : t.checkNames s = .ok () := by
  rw [checkNames, h.lookUp_eq hs]
  rfl

theorem oversized?_of_onlyColumns : ∀ {P : String → Prop}, t.OnlyColumns P →
    t.oversized? = none := by
  induction t with
  | compare _ a b | fits _ a b =>
    intro P h
    rw [oversized?, h.1.oversized?_eq, h.2.oversized?_eq]
    rfl
  | among _ a items =>
    intro P h
    rw [oversized?, h.1.oversized?_eq,
      List.findSome?_eq_none_iff.2 fun item hitem => (h.2 item hitem).oversized?_eq]
    rfl
  | missing _ a =>
    intro P h
    have ha : a.OnlyColumns P := h
    exact ha.oversized?_eq
  | someElement document path test ih =>
    intro P h
    rw [oversized?, h.1.oversized?_eq, h.2.1.oversized?_eq, ih h.2.2]
    rfl
  | both a b iha ihb | either a b iha ihb =>
    intro P h
    rw [oversized?, iha h.1, ihb h.2]
    rfl

/-- **Such a test holds by its columns alone**, whatever other columns there are and whatever
the clock shows. -/
theorem holds_congr : ∀ {P : String → Prop} {s u : Scope}, t.OnlyColumns P →
    (∀ name, P name → s.column? name = u.column? name) → t.holds s = t.holds u := by
  induction t with
  | compare op a b =>
    intro P s u h hs
    simp only [holds, truth, compareTerms, h.1.value_eq hs, h.2.value_eq hs, h.1.affinity?_eq hs,
      h.2.affinity?_eq hs]
  | fits kind a b =>
    intro P s u h hs
    simp only [holds, truth, h.1.value_eq hs, h.2.value_eq hs]
  | among negated a items =>
    intro P s u h hs
    simp only [holds, truth, isAmong, h.1.value_eq hs, h.1.affinity?_eq hs,
      mapM_value_congr hs h.2]
  | missing negated a =>
    intro P s u h hs
    have ha : a.OnlyColumns P := h
    simp only [holds, truth, ha.value_eq hs]
  | someElement document path test ih =>
    intro P s u h hs
    have helements : Term.elements s document path = Term.elements u document path := by
      simp only [Term.elements, h.1.value_eq hs, h.2.1.value_eq hs]
    -- The column of the values is the same for the elements of both.
    have hwith (c : Cell) : ∀ name, P name ∨ sameName name "value" = true →
        (s.withColumn "value" c).column? name = (u.withColumn "value" c).column? name := by
      intro name hname
      dsimp only [Scope.withColumn]
      split
      · rfl
      · next hnot => exact hs name (hname.resolve_right hnot)
    have htest (c : Cell) : test.holds (s.withColumn "value" c) =
        test.holds (u.withColumn "value" c) := ih h.2.2 (hwith c)
    simp only [holds, helements, htest]
  | both a b iha ihb | either a b iha ihb =>
    intro P s u h hs
    simp only [holds, iha h.1 hs, ihb h.2 hs]

end

end Test

end Sql

/-! ### Filters -/

theorem Question.onlyColumns_test {P : String → Prop} {cells : List Cell} {a : Term}
    (ha : a.OnlyColumns P) (q : Question) : (q.test cells a).OnlyColumns P := by
  cases q with
  | compare mark => exact ⟨ha, trivial⟩
  | listed negated =>
    have hitems : ∀ item ∈ cells.map Term.literal, item.OnlyColumns P := by
      rintro _ hitem
      obtain ⟨c, -, rfl⟩ := List.mem_map.1 hitem
      trivial
    rw [test]
    unfold Parse.listTest
    split
    · next b hb =>
      rw [hb] at hitems
      split
      · exact ⟨ha, hitems⟩
      · exact ⟨ha, hitems b List.mem_cons_self⟩
    · exact ⟨ha, hitems⟩
  | fits keyword => exact ⟨ha, trivial⟩
  | missing negated => exact ha

/-- The test of a rule looks at the column of its place. -/
theorem Rule.onlyColumns_asTest {r : Rule} {P : String → Prop} (hword : IsColumnWord r.place.1)
    (hP : P r.place.1) (type : Option ColumnType) : (r.asTest type).OnlyColumns P := by
  have hcolumn : Term.ofWord r.place.1 = .column r.place.1 0 := Term.ofWord_eq hword.constant
  have hplace : (Term.column r.place.1 0).OnlyColumns P := hP
  have hpath : (Term.literal (.text r.place.2)).OnlyColumns P := trivial
  have hvalue : (Term.column "value" 0).OnlyColumns
      fun name => P name ∨ sameName name "value" = true := .inr (by decide)
  have hterm (subject : Subject) (h : subject ≠ .element) :
      (subject.term (.column r.place.1 0) (.literal (.text r.place.2))).OnlyColumns P := by
    cases subject with
    | column | lowered => exact hplace
    | part | length | kind => exact ⟨hplace, hpath⟩
    | element => exact absurd rfl h
  unfold asTest
  rw [hcolumn]
  cases r.op.subject with
  | column => exact Question.onlyColumns_test (hterm .column (by rintro ⟨⟩)) _
  | lowered => exact Question.onlyColumns_test (hterm .lowered (by rintro ⟨⟩)) _
  | part => exact Question.onlyColumns_test (hterm .part (by rintro ⟨⟩)) _
  | length => exact Question.onlyColumns_test (hterm .length (by rintro ⟨⟩)) _
  | kind => exact Question.onlyColumns_test (hterm .kind (by rintro ⟨⟩)) _
  | element => exact ⟨hplace, hpath, Question.onlyColumns_test hvalue _⟩

namespace Filter

variable {fields : Schema} {P : String → Prop}

theorem onlyColumns_joinTests {op : Connective} : ∀ {us : List Test} {t : Test},
    t.OnlyColumns P → (∀ u ∈ us, u.OnlyColumns P) → (us.foldl op.joinTests t).OnlyColumns P := by
  intro us
  induction us with
  | nil => exact fun h _ => h
  | cons u rest ih =>
    intro t ht hus
    obtain ⟨hu, hrest⟩ := List.forall_mem_cons.1 hus
    refine ih ?_ hrest
    cases op with
    | and => exact ⟨ht, hu⟩
    | or => exact ⟨ht, hu⟩

/-- **The test of a filter looks at the columns of its rules.** -/
theorem onlyColumns_asTest {f : Filter} (hwords : f.HasColumnWords)
    (hP : ∀ r ∈ f.rules, P r.place.1) : (f.asTest fields).OnlyColumns P := by
  induction f using treeInduction with
  | rule r =>
    have hr : r ∈ (Filter.rule r).rules := List.mem_singleton.2 rfl
    exact Rule.onlyColumns_asTest (hwords r hr) (hP r hr) _
  | group op fs ih =>
    have hmem : ∀ f ∈ fs, ∀ r ∈ f.rules, r ∈ (group op fs).rules := by
      intro f hf r hr
      rw [rules, rulesAll_eq_flatMap]
      exact List.mem_flatMap.2 ⟨f, hf, hr⟩
    have hparts : ∀ f ∈ fs, (f.asTest fields).OnlyColumns P := fun f hf =>
      ih f hf (hasColumnWords_group hwords f hf) fun r hr => hP r (hmem f hf r hr)
    cases fs with
    | nil => exact ⟨trivial, trivial⟩
    | cons f rest =>
      obtain ⟨hfirst, hrest⟩ := List.forall_mem_cons.1 hparts
      rw [asTest, asTests_eq_map]
      exact onlyColumns_joinTests hfirst (List.forall_mem_map.2 hrest)

end Filter

end ResourceTable
