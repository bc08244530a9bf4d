import ResourceTable.Proofs.RowTruth
import ResourceTable.Sql.Database

/-!
# Plans find only rows that pass

A plan puts the parts of a condition to the rows in some order, and takes the ranges of a
choice one after the other.  However the parts are arranged, a row that passes the tests
of one of its passes passes the condition.

## Main definitions

* `Route.ChoosesFrom`: a route takes the ranges of one of the given parts.
* `Conjunct.Apart`: no two parts have the same place.

## Main results

* `choosesFrom_choose` — the route that is taken chooses among the parts of the condition.
* `passes_written` — the tests of a pass cover all parts of the condition.
* `passes_of_mem_visits` — **a row that passes the tests of a visit passes the condition.**
-/

namespace ResourceTable.Sql

variable {t : TableDef} {w : Wish}

/-! ### The choice of a route -/

namespace Route

/-- A choice that the route takes range by range is one of the parts. -/
def ChoosesFrom (own : List Conjunct) (r : Route) : Prop := ∀ c, r.choice = some c → c ∈ own

section Choice

variable {own : List Conjunct}

theorem choosesFrom_of_none {r : Route} (h : r.choice = none) : r.ChoosesFrom own := by
  intro c hc
  rw [h] at hc
  cases hc

theorem choice_scan {byKey : Bool} {r : Route} (h : scan t w own byKey = some r) :
    r.choice = none := by
  unfold scan at h
  dsimp only at h
  rw [Option.ite_none_left_eq_some] at h
  rw [← Option.some.inj h.2]
  rfl

theorem choice_searches {around : List Conjunct} {byKey : Bool} {r : Route}
    (h : r ∈ searches t w own around byKey) : r.choice = none := by
  obtain ⟨c, -, hr⟩ := List.mem_flatMap.1 h
  split at hr
  · rw [List.mem_singleton.1 hr]
    rfl
  · rw [List.mem_singleton.1 hr]
    rfl
  · rw [List.mem_singleton.1 hr]
    rfl
  · rcases List.mem_cons.1 hr with rfl | hr
    · rfl
    · obtain ⟨d, -, rfl⟩ := List.mem_map.1 hr
      rfl
  · cases hr

theorem choosesFrom_choices {fuel : Nat} {around : List Conjunct} {r : Route}
    (h : r ∈ choices t w fuel own around) : r.ChoosesFrom own := by
  cases fuel with
  | zero => cases h
  | succ fuel =>
    obtain ⟨c, hc, hr⟩ := List.mem_filterMap.1 h
    have hown : c ∈ own := List.mem_of_mem_filter hc
    obtain ⟨costs, -, hr⟩ := Option.bind_eq_some_iff.1 hr
    obtain ⟨first, -, hr⟩ := Option.bind_eq_some_iff.1 hr
    obtain rfl := Option.some.inj hr
    intro d hd
    rwa [← Option.some.inj hd]

/-- Bringing the estimates of a route in line changes nothing else. -/
theorem inLine_eq (s r : Route) :
    ∃ cost rows, inLine s r = { r with cost := cost, rows := rows } := by
  unfold inLine
  split
  · exact ⟨r.cost, r.rows, rfl⟩
  · split
    · exact ⟨_, _, rfl⟩
    · split
      · exact ⟨_, _, rfl⟩
      · exact ⟨r.cost, r.rows, rfl⟩

theorem mem_putAmong {r x : Route} {routes : List Route} (h : x ∈ putAmong r routes) :
    x = r ∨ x ∈ routes := by
  induction routes with
  | nil => exact .inl (List.mem_singleton.1 h)
  | cons s rest ih =>
    rw [putAmong] at h
    split at h
    · exact .inr h
    · split at h
      · rcases List.mem_cons.1 h with h | h
        · exact .inl h
        · exact .inr (List.mem_cons_of_mem s (List.mem_of_mem_filter h))
      · rcases List.mem_cons.1 h with h | h
        · exact .inr (h ▸ List.mem_cons_self)
        · exact (ih h).imp id (List.mem_cons_of_mem s)

/-- What holds of routes whatever their estimates holds of them once they are put among
others. -/
theorem forall_foldl_add {P : Route → Prop}
    (hestimates : ∀ r cost rows, P r → P { r with cost := cost, rows := rows })
    {added : List Route} (hadded : ∀ r ∈ added, P r) :
    ∀ {routes : List Route}, (∀ r ∈ routes, P r) → ∀ r ∈ added.foldl add routes, P r := by
  have hline (routes : List Route) : ∀ r, P r → P (routes.foldl (fun r s => inLine s r) r) := by
    induction routes with
    | nil => exact fun _ h => h
    | cons s rest ih =>
      intro r h
      obtain ⟨cost, rows, he⟩ := inLine_eq s r
      rw [List.foldl_cons, he]
      exact ih _ (hestimates r cost rows h)
  induction added with
  | nil =>
    intro routes h
    exact h
  | cons a rest ih =>
    intro routes h
    obtain ⟨ha, hrest⟩ := List.forall_mem_cons.1 hadded
    refine ih hrest fun r hr => ?_
    rcases mem_putAmong hr with rfl | hr
    · exact hline routes a ha
    · exact h r hr

/-- What holds of all scans, searches and choices, whatever their estimates, holds of the
routes that a condition allows. -/
theorem forall_all {P : Route → Prop} {fuel : Nat}
    (hestimates : ∀ r cost rows, P r → P { r with cost := cost, rows := rows })
    (hscan : ∀ byKey r, scan t w own byKey = some r → P r)
    (hsearch : ∀ byKey, ∀ r ∈ searches t w own [] byKey, P r)
    (hchoice : ∀ r ∈ choices t w fuel own [], P r) : ∀ r ∈ all t w fuel own, P r := by
  refine forall_foldl_add hestimates (fun r hr => ?_) fun r hr => absurd hr List.not_mem_nil
  rcases List.mem_append.1 hr with hr | hr
  · obtain ⟨byKey, -, hr⟩ := List.mem_flatMap.1 hr
    rcases List.mem_append.1 hr with hr | hr
    · exact hscan byKey r (Option.mem_toList.1 hr)
    · exact hsearch byKey r hr
  · exact hchoice r hr

/-- The routes that a condition allows choose among its parts. -/
theorem choosesFrom_all {fuel : Nat} : ∀ r ∈ all t w fuel own, r.ChoosesFrom own :=
  forall_all (fun _ _ _ h => h) (fun _ _ h => choosesFrom_of_none (choice_scan h))
    (fun _ _ h => choosesFrom_of_none (choice_searches h)) fun _ h => choosesFrom_choices h

/-- What is picked from a list step by step comes from one of its members. -/
theorem exists_mem_of_foldl_pick {α β : Type} {pick : Option β → α → Option β} {P : α → β → Prop}
    (hpick : ∀ b a x, pick b a = some x → P a x ∨ b = some x) :
    ∀ {l : List α} {b : Option β} {x : β}, l.foldl pick b = some x →
      (∃ a ∈ l, P a x) ∨ b = some x := by
  intro l
  induction l with
  | nil => exact fun h => .inr h
  | cons a rest ih =>
    intro b x h
    rcases ih h with ⟨c, hc, hP⟩ | hb
    · exact .inl ⟨c, List.mem_cons_of_mem a hc, hP⟩
    · exact (hpick b a x hb).imp (fun hP => ⟨a, List.mem_cons_self, hP⟩) id

/-- A route that is rated gives the order only where it says so. -/
theorem route_of_rated {order : Option (Wish.Order × Estimate)} {r : Route}
    {x : (Estimate × Estimate × Estimate) × Taken}
    (h : (match order with
      | none => ((r.cost.plus 0, r.rows, r.cost.plus 0 - 2), ⟨r, true, false⟩)
      | some (o, rows) =>
        if (r.inOrder t own o).1 then
          ((r.cost.plus 0, r.rows, r.cost.plus 0 - 2), ⟨r, true, (r.inOrder t own o).2⟩)
        else (((r.cost.plus 0).plus (sortingCost o rows) + 3, r.rows, r.cost.plus 0),
          ⟨r, false, false⟩)) = x) :
    x.2.route = r ∧ ∀ o rows, order = some (o, rows) → x.2.ordered = true →
      r.inOrder t own o = (true, x.2.fromEnd) := by
  subst h
  split
  · exact ⟨rfl, nofun⟩
  · split
    · next hordered =>
      refine ⟨rfl, fun o rows heq _ => ?_⟩
      obtain ⟨rfl, rfl⟩ := Prod.mk.inj (Option.some.inj heq)
      exact Prod.ext hordered rfl
    · exact ⟨rfl, nofun⟩

/-- The route that is best is one of the routes, and gives the order only where it says
so. -/
theorem inOrder_of_best {order : Option (Wish.Order × Estimate)} {routes : List Route}
    {taken : Taken} (h : best t own order routes = some taken) :
    taken.route ∈ routes ∧ ∀ o rows, order = some (o, rows) → taken.ordered = true →
      taken.route.inOrder t own o = (true, taken.fromEnd) := by
  unfold best at h
  dsimp only at h
  obtain ⟨x, hx, rfl⟩ := Option.map_eq_some_iff.1 h
  -- Each step keeps the route it has or takes the one it looks at, whatever the estimates.
  have hpicked : (∃ r ∈ routes, x.2.route = r ∧ ∀ o rows, order = some (o, rows) →
      x.2.ordered = true → r.inOrder t own o = (true, x.2.fromEnd)) ∨
      (none : Option ((Estimate × Estimate × Estimate) × Taken)) = some x := by
    refine exists_mem_of_foldl_pick (P := fun r x => x.2.route = r ∧ ∀ o rows,
      order = some (o, rows) → x.2.ordered = true → r.inOrder t own o = (true, x.2.fromEnd))
      (fun b r y hy => ?_) hx
    split at hy
    · exact .inl (route_of_rated (Option.some.inj hy))
    · rcases ite_eq_iff.1 hy with ⟨-, hy⟩ | ⟨-, hy⟩
      · exact .inl (route_of_rated (Option.some.inj hy))
      · exact .inr hy
  rcases hpicked with ⟨r, hr, rfl, ho⟩ | h
  · exact ⟨hr, ho⟩
  · cases h

theorem mem_of_best {order : Option (Wish.Order × Estimate)} {routes : List Route} {taken : Taken}
    (h : best t own order routes = some taken) : taken.route ∈ routes :=
  (inOrder_of_best h).1

theorem mem_of_cheapest {routes : List Route} {taken : Taken}
    (h : cheapest t w own routes = some taken) : taken.route ∈ routes := by
  unfold cheapest at h
  obtain ⟨first, hfirst, h⟩ := Option.bind_eq_some_iff.1 h
  split at h
  · obtain rfl := Option.some.inj h
    exact mem_of_best hfirst
  · have hmem := mem_of_best h
    split at hmem
    · exact List.mem_of_mem_filter hmem
    · exact hmem

theorem choosesFrom_cheapest {routes : List Route} (h : ∀ r ∈ routes, r.ChoosesFrom own) :
    ((cheapest t w own routes).getD plain).route.ChoosesFrom own := by
  cases hc : cheapest t w own routes with
  | none => exact choosesFrom_of_none rfl
  | some taken => exact h taken.route (mem_of_cheapest hc)

/-- The route that is taken chooses among the parts of the condition. -/
theorem choosesFrom_choose (fuel : Nat) : (choose t w fuel own).route.ChoosesFrom own := by
  unfold choose
  split
  · next r hr =>
    refine choosesFrom_of_none ?_
    unfold single? at hr
    dsimp only at hr
    split at hr
    · rw [← Option.some.inj hr]
    · rw [← Option.some.inj hr]
    · cases hr
  · exact choosesFrom_cheapest choosesFrom_all

end Choice

end Route

/-! ### The parts of a condition -/

namespace Conjunct

/-- No two parts have the same place. -/
def Apart (parts : List Conjunct) : Prop := ∀ c ∈ parts, ∀ d ∈ parts, c.path = d.path → c = d

/-- A part of a condition is one of its tests, or says the same as one of them. -/
theorem mem_all {path : List Nat} {tests : List Test} {c : Conjunct} (h : c ∈ all t path tests) :
    (∃ i test, tests[i]? = some test ∧ c = ofTest t (i :: path) none test) ∨
      ∃ i test list, tests[i]? = some test ∧ test.asList? t = some list ∧
        c = ofTest t (tests.length :: i :: path) (some (i :: path)) list := by
  have hpart : ∀ c ∈ tests.zipIdx.map fun p => ofTest t (p.2 :: path) none p.1,
      ∃ i test, tests[i]? = some test ∧ c = ofTest t (i :: path) none test := by
    intro c hc
    obtain ⟨⟨test, i⟩, htest, rfl⟩ := List.mem_map.1 hc
    exact ⟨i, test, List.mem_zipIdx_iff_getElem?.1 htest, rfl⟩
  rcases List.mem_append.1 h with h | h
  · exact .inl (hpart c h)
  · obtain ⟨d, hd, he⟩ := List.mem_filterMap.1 h
    obtain ⟨i, test, htest, rfl⟩ := hpart d hd
    obtain ⟨list, hlist, rfl⟩ := Option.map_eq_some_iff.1 he
    exact .inr ⟨i, test, list, htest, hlist, rfl⟩

theorem apart_all (path : List Nat) (tests : List Test) : Apart (all t path tests) := by
  intro c hc d hd he
  rcases mem_all hc with ⟨i, x, hx, rfl⟩ | ⟨i, x, l, hx, hl, rfl⟩ <;>
    rcases mem_all hd with ⟨j, y, hy, rfl⟩ | ⟨j, y, m, hy, hm, rfl⟩
  · obtain rfl : i = j := (List.cons.inj he).1
    rw [hx] at hy
    rw [Option.some.inj hy]
  · have hlength := congrArg List.length he
    simp [ofTest] at hlength
  · have hlength := congrArg List.length he
    simp [ofTest] at hlength
  · obtain rfl : i = j := (List.cons.inj (List.cons.inj he).2).1
    rw [hx] at hy
    obtain rfl := Option.some.inj hy
    rw [hl] at hm
    rw [Option.some.inj hm]

end Conjunct

namespace Plan

/-- The tests of a condition are its written parts. -/
theorem exists_written (path : List Nat) {tests : List Test} {test : Test} (h : test ∈ tests) :
    ∃ c ∈ written (Conjunct.all t path tests), c.test = test := by
  obtain ⟨i, hi⟩ := List.mem_iff_getElem?.1 h
  refine ⟨Conjunct.ofTest t (i :: path) none test, List.mem_filter.2 ⟨?_, rfl⟩, rfl⟩
  refine List.mem_append_left _ (List.mem_map.2 ⟨(test, i), ?_, rfl⟩)
  exact List.mem_zipIdx_iff_getElem?.2 hi

/-- However parts are put to a row, none of them is left out. -/
theorem test_mem_staged {byKey : Bool} {parts : List Conjunct} {c : Conjunct} (h : c ∈ parts) :
    c.test ∈ staged t byKey parts := by
  unfold staged
  simp only [List.partition_eq_filter_filter]
  refine List.mem_map.2 ⟨c, ?_, rfl⟩
  simp only [List.mem_append, List.mem_filter, h, true_and, Function.comp_apply]
  cases c.test.seeksOwnElements t with
  | true => exact .inr rfl
  | false =>
    refine .inl ?_
    generalize (byKey && c.within (.number :: t.keyRef?.toList)) = inKey
    cases inKey with
    | true => exact .inl ⟨rfl, rfl⟩
    | false => exact .inr ⟨rfl, rfl⟩

/-- **The tests of a pass cover all parts of a condition.**  The induction is on how deep
choices are nested; a row that passes a range of a choice passes the choice. -/
theorem passes_written {s : Scope} : ∀ {fuel : Nat} {parts : List Conjunct} {taken : Route.Taken},
    Conjunct.Apart parts → taken.route.ChoosesFrom parts → ∀ p ∈ passesOf t w fuel parts taken,
      (∀ test ∈ p.tests ++ p.further, test.Passes s) → ∀ c ∈ written parts, c.test.Passes s := by
  intro fuel
  induction fuel generalizing w with
  | zero =>
    intro parts taken _ _ p hp h c hc
    obtain rfl := List.mem_singleton.1 hp
    exact h c.test (List.mem_append_left _ (test_mem_staged hc))
  | succ fuel ih =>
    intro parts taken hapart hchoice p hp h c hc
    rw [passesOf] at hp
    split at hp
    · obtain rfl := List.mem_singleton.1 hp
      exact h c.test (List.mem_append_left _ (List.mem_append_right _ (test_mem_staged hc)))
    · next choice hchosen =>
      obtain ⟨arm, harm, hp⟩ := List.mem_flatMap.1 hp
      obtain ⟨q, hq, rfl⟩ := List.mem_map.1 hp
      by_cases hpath : c.path = choice.path
      · -- The part is the choice itself, and the row passes one of its ranges.
        have hsame : c = choice :=
          hapart c (List.mem_of_mem_filter hc) choice (hchoice choice hchosen) hpath
        rw [hsame]
        refine Test.passes_of_disjunct harm (Test.passes_iff_conjuncts.2 fun u hu => ?_)
        have hinner := ih (Conjunct.apart_all _ _)
          (Route.choosesFrom_cheapest Route.choosesFrom_all) q hq
          fun test htest => h test (List.mem_append_left _ htest)
        obtain ⟨d, hd, rfl⟩ :=
          exists_written (t := t) [] (List.mem_append_left (shared choice parts) hu)
        exact hinner d hd
      · -- Any other part is tested on the row as it is written.
        refine h c.test (List.mem_append_right _ (test_mem_staged (List.mem_filter.2 ⟨hc, ?_⟩)))
        simpa using hpath

/-- A row that passes the tests of a visit passes all tests that the plan is for. -/
theorem passes_of_mem_visits_ofTests {table : StoredTable} {tests : List Test} {v : Visit}
    (hv : v ∈ visits table (ofTests t w tests)) {s : Scope}
    (h : ∀ test ∈ v.tests ++ v.further, test.Passes s) : ∀ test ∈ tests, test.Passes s := by
  obtain ⟨p, hp, hv⟩ := List.mem_flatMap.1 hv
  obtain ⟨r, -, rfl⟩ := List.mem_map.1 hv
  intro test htest
  obtain ⟨c, hc, rfl⟩ := exists_written (t := t) [] htest
  exact passes_written (Conjunct.apart_all _ _) (Route.choosesFrom_choose _) p hp h c hc

/-- **A row that passes the tests of a visit passes the condition**, if values were not put
in the places of columns. -/
theorem passes_of_mem_visits {table : StoredTable} {condition : Test} (hw : w.changes = true)
    {v : Visit} (hv : v ∈ visits table (ofCondition t w (some condition))) {s : Scope}
    (h : ∀ test ∈ v.tests ++ v.further, test.Passes s) : condition.Passes s := by
  unfold ofCondition at hv
  dsimp only at hv
  rw [if_pos hw] at hv
  exact Test.passes_iff_conjuncts.2 (passes_of_mem_visits_ofTests hv h)

/-! ### The rows that are found -/

theorem holds_of_allHold {s : Scope} {tests : List Test} (h : Test.allHold s tests = .ok true) :
    ∀ test ∈ tests, test.holds s = .ok true := by
  induction tests with
  | nil => exact List.forall_mem_nil _
  | cons test rest ih =>
    rw [Test.allHold, List.allM] at h
    obtain ⟨b, hb, h⟩ := Test.bind_eq_ok h
    cases b with
    | true => exact List.forall_mem_cons.2 ⟨hb, ih h⟩
    | false => cases h

/-- What a visit comes to. -/
inductive Fate
  /-- The row is skipped: it is not met, or was met before. -/
  | skipped
  /-- The row is met for the first time, but not found. -/
  | away
  /-- The row is found. -/
  | found

/-- What a visit of a row comes to, if rows of some numbers were met before. -/
def fate (s : Scope) (met : List Int) (v : Visit) : Except Fault Fate := do
  if ← Test.allHold s v.tests then
    if met.contains v.row.number then return .skipped
    else if ← Test.allHold s v.further then return .found
    else return .away
  else return .skipped

/-- Rows are gathered visit by visit. -/
theorem gather_cons {scope : StoredRow → Scope} {most : Option Nat} (hmost : most ≠ some 0)
    (met : List Int) (v : Visit) (rest : List Visit) :
    gather scope most met (v :: rest) = do
      match ← fate (scope v.row) met v with
      | .skipped => gather scope most met rest
      | .away => gather scope most (v.row.number :: met) rest
      | .found =>
        return v.row :: (← gather scope (most.map (· - 1)) (v.row.number :: met) rest) := by
  rw [gather.eq_3 scope most met v rest hmost, fate]
  cases Test.allHold (scope v.row) v.tests with
  | error e => rfl
  | ok b =>
    cases b with
    | false => rfl
    | true =>
      simp only [Test.ok_bind, if_true]
      cases met.contains v.row.number with
      | true => rfl
      | false =>
        cases Test.allHold (scope v.row) v.further with
        | error e => rfl
        | ok b => cases b <;> rfl

theorem gather_zero (scope : StoredRow → Scope) (met : List Int) (l : List Visit) :
    gather scope (some 0) met l = .ok [] := by
  rw [gather]

theorem gather_nil (scope : StoredRow → Scope) (most : Option Nat) (met : List Int) :
    gather scope most met [] = .ok [] := by
  cases most with
  | none => rfl
  | some n => cases n <;> rfl

/-- A row that is found passed all its tests. -/
theorem holds_of_fate {s : Scope} {met : List Int} {v : Visit} (h : fate s met v = .ok .found) :
    ∀ test ∈ v.tests ++ v.further, test.holds s = .ok true := by
  unfold fate at h
  obtain ⟨b, htests, h⟩ := Test.bind_eq_ok h
  cases b with
  | false => cases h
  | true =>
    rw [if_pos rfl] at h
    split at h
    · cases h
    · obtain ⟨b, hfurther, h⟩ := Test.bind_eq_ok h
      cases b with
      | false => cases h
      | true =>
        exact List.forall_mem_append.2 ⟨holds_of_allHold htests, holds_of_allHold hfurther⟩

/-- The rows that are gathered passed the tests of a visit. -/
theorem mem_gather {scope : StoredRow → Scope} : ∀ {l : List Visit} {most : Option Nat}
    {met : List Int} {rows : List StoredRow}, gather scope most met l = .ok rows →
      ∀ r ∈ rows, ∃ v ∈ l, v.row = r ∧ ∀ test ∈ v.tests ++ v.further, test.Passes (scope r) := by
  intro l
  induction l with
  | nil =>
    intro most met rows h r hr
    rw [gather_nil] at h
    rw [← Except.ok.inj h] at hr
    cases hr
  | cons v rest ih =>
    intro most met rows h r hr
    -- A row that the later visits give passed the tests of one of them.
    have hlater {most : Option Nat} {met : List Int} {more : List StoredRow}
        (h : gather scope most met rest = .ok more) (hr : r ∈ more) :
        ∃ u ∈ v :: rest, u.row = r ∧ ∀ test ∈ u.tests ++ u.further, test.Passes (scope r) := by
      obtain ⟨u, hu, hpass⟩ := ih h r hr
      exact ⟨u, List.mem_cons_of_mem v hu, hpass⟩
    by_cases hmost : most = some 0
    · rw [hmost, gather_zero] at h
      rw [← Except.ok.inj h] at hr
      cases hr
    · rw [gather_cons hmost] at h
      obtain ⟨x, hx, h⟩ := Test.bind_eq_ok h
      cases x with
      | skipped => exact hlater h hr
      | away => exact hlater h hr
      | found =>
        obtain ⟨more, hmore, h⟩ := Test.bind_eq_ok h
        obtain rfl := Except.ok.inj h
        rcases List.mem_cons.1 hr with rfl | hr
        · refine ⟨v, List.mem_cons_self, rfl, fun test htest => ?_⟩
          exact Test.passes_of_holds (holds_of_fate hx test htest)
        · exact hlater hmore hr

/-- The rows that a plan finds passed the tests of one of its visits. -/
theorem exists_visit_of_mem_found {plan : Plan} {table : StoredTable} {now : Timestamp}
    {most : Option Nat} {rows : List StoredRow} (h : plan.found table now most = .ok rows) :
    ∀ r ∈ rows, ∃ v ∈ visits table plan, v.row = r ∧
      ∀ test ∈ v.tests ++ v.further, test.Passes (table.definition.scope now r) := by
  unfold found at h
  obtain ⟨b, -, h⟩ := Test.bind_eq_ok h
  cases b with
  | false => cases h; exact List.forall_mem_nil _
  | true => exact mem_gather h

/-- **The rows that a plan finds pass its condition.** -/
theorem passes_of_mem_found {table : StoredTable} {condition : Test} (hw : w.changes = true)
    {now : Timestamp} {most : Option Nat} {rows : List StoredRow}
    (h : (ofCondition t w (some condition)).found table now most = .ok rows) :
    ∀ r ∈ rows, condition.Passes (table.definition.scope now r) := by
  intro r hr
  obtain ⟨v, hv, rfl, hpass⟩ := exists_visit_of_mem_found h r hr
  exact passes_of_mem_visits hw hv hpass

end Plan

end ResourceTable.Sql
