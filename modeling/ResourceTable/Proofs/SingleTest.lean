import ResourceTable.Proofs.PlanOrder

/-!
# Queries with a single test

A plan may put the tests of a condition to the rows in an order that is not theirs, so that
a query can fail where its condition does not.  The plan for a single test has nothing to
arrange: it visits all rows once, and puts nothing but the test to them.

## Main definitions

* `Test.IsSingle`: a test without parts that looks at rows.

## Main results

* `exists_pass_of_isSingle` — the plan for a single test is one pass with it.
* `gather_eq_filter` — a pass over rows that are told apart gives those that pass.
* `SelectStatement.selectsExactly_of_isSingle` — **a query with a single test finds the rows
  for which it is true.**
-/

namespace ResourceTable.Sql

variable {d : TableDef} {w : Wish} {test : Test}

/-! ### Tests without parts -/

theorem Term.replace_none (a : Term) : a.replace (fun _ => none) = a := by
  induction a with
  | lower _ ih | negated _ ih => rw [replace, ih]
  | plus _ _ iha ihb | minus _ _ iha ihb | part _ _ iha ihb | partKind _ _ iha ihb
  | partLength _ _ iha ihb => rw [replace, iha, ihb]
  | _ => rfl

namespace Test

theorem replace_none (test : Test) : test.replace (fun _ => none) = test := by
  induction test with
  | compare op a b | fits kind a b => rw [replace, a.replace_none, b.replace_none]
  | among negated a items =>
    have hitems : items.map (Term.replace fun _ => none) = items :=
      List.map_id'' Term.replace_none items
    rw [replace, a.replace_none, hitems]
  | missing negated a => rw [replace, a.replace_none]
  | someElement => rfl
  | both _ _ iha ihb | either _ _ iha ihb => rw [replace, iha, ihb]

/-- A test without parts that looks at rows. -/
structure IsSingle (test : Test) (d : TableDef) : Prop where
  notBoth : ∀ a b, test ≠ .both a b
  notEither : ∀ a b, test ≠ .either a b
  notConstant : test.isConstant d = false

namespace IsSingle

theorem conjuncts_eq (h : test.IsSingle d) : test.conjuncts = [test] := by
  cases test with
  | both a b => exact absurd rfl (h.notBoth a b)
  | _ => rfl

theorem disjuncts_eq (h : test.IsSingle d) : test.disjuncts = [test] := by
  cases test with
  | either a b => exact absurd rfl (h.notEither a b)
  | _ => rfl

/-- No list of values says the same. -/
theorem asList?_eq (h : test.IsSingle d) : test.asList? d = none := by
  unfold asList?
  rw [h.disjuncts_eq, List.mapM_cons, List.mapM_nil]
  cases test.equation? d <;> rfl

end IsSingle

/-- A single test stays as it is: what it says of a column is put in the place of the column in
other tests. -/
theorem settled_singleton (d : TableDef) (test : Test) : settled d [test] = [test] := by
  have hknown : ∀ k ∈ fixed d [test], k.2.2 = 0 := by
    unfold fixed
    rw [List.zipIdx_singleton, List.foldl_cons, List.foldl_nil]
    dsimp only
    cases test.fixes? d with
    | none => exact List.forall_mem_nil _
    | some known =>
      obtain ⟨column, value⟩ := known
      exact List.forall_mem_singleton.2 rfl
  unfold settled
  rw [List.zipIdx_singleton, List.map_singleton]
  show [test.replace _] = [test]
  refine congrArg (fun t => [t]) ((congrArg test.replace ?_).trans test.replace_none)
  funext name
  cases d.resolve name with
  | none => rfl
  | some column =>
    have hfind : ((fixed d [test]).find? fun k => k.1 == column && k.2.2 != 0) = none := by
      refine List.find?_eq_none.2 fun k hk => ?_
      rw [hknown k hk, bne_self_eq_false, Bool.and_false]
      exact Bool.false_ne_true
    show ((fixed d [test]).find? fun k => k.1 == column && k.2.2 != 0).bind _ = none
    rw [hfind]
    rfl

end Test

/-! ### Routes -/

namespace Conjunct

/-- A single test is the only part of a condition. -/
theorem all_eq_of_isSingle (h : test.IsSingle d) :
    all d [] [test] = [ofTest d [0] none test] := by
  have hlist : (ofTest d [0] none test).test.asList? d = none := h.asList?_eq
  unfold all
  rw [List.zipIdx_singleton, List.map_singleton]
  dsimp only
  rw [List.filterMap_cons, hlist]
  rfl

end Conjunct

namespace Route

variable {own : List Conjunct}

/-- A route whose parts are no choices takes no ranges. -/
theorem choice_choose (h : ∀ c ∈ own, isChoice d c = false) (fuel : Nat) :
    (choose d w fuel own).route.choice = none := by
  have hall : ∀ r ∈ all d w fuel own, r.choice = none := by
    refine forall_all (fun _ _ _ h => h) (fun _ _ h => choice_scan h)
      (fun _ _ h => choice_searches h) fun r hr => ?_
    cases fuel with
    | zero => cases hr
    | succ fuel =>
      have hnone : own.filter (isChoice d) = [] :=
        List.filter_eq_nil_iff.2 fun c hc => Bool.eq_false_iff.1 (h c hc)
      rw [choices, hnone] at hr
      cases hr
  unfold choose
  split
  · next r hr =>
    unfold single? at hr
    dsimp only at hr
    split at hr
    · rw [← Option.some.inj hr]
    · rw [← Option.some.inj hr]
    · cases hr
  · cases hcheapest : cheapest d w own (all d w fuel own) with
    | none => rfl
    | some taken => exact hall taken.route (mem_of_cheapest hcheapest)

/-- A route is driven by parts of the condition. -/
theorem mem_of_mem_drivers {fuel : Nat} :
    ∀ c ∈ (choose d w fuel own).route.drivers, c ∈ own := by
  unfold choose
  split
  · next r hr =>
    unfold single? at hr
    dsimp only at hr
    split at hr
    · next hc =>
      rw [← Option.some.inj hr]
      exact List.forall_mem_singleton.2 (List.mem_of_find?_eq_some hc)
    · next hc =>
      obtain ⟨key, -, hc⟩ := Option.bind_eq_some_iff.1 hc
      rw [← Option.some.inj hr]
      exact List.forall_mem_singleton.2 (List.mem_of_find?_eq_some hc)
    · cases hr
  · cases hcheapest : cheapest d w own (all d w fuel own) with
    | none => exact List.forall_mem_nil _
    | some taken => exact fun c hc => (drivenBy_all _ (mem_of_cheapest hcheapest) c hc).1

end Route

namespace Plan

/-- What is put to a row is the test of a part. -/
theorem exists_of_mem_staged {byKey : Bool} {parts : List Conjunct} {u : Test}
    (h : u ∈ staged d byKey parts) : ∃ c ∈ parts, c.test = u := by
  unfold staged at h
  simp only [List.partition_eq_filter_filter] at h
  obtain ⟨c, hc, rfl⟩ := List.mem_map.1 h
  refine ⟨c, ?_, rfl⟩
  simp only [List.mem_append, List.mem_filter] at hc
  rcases hc with (⟨⟨hc, -⟩, -⟩ | ⟨⟨hc, -⟩, -⟩) | ⟨hc, -⟩ <;> exact hc

/-- **The plan for a single test is one pass with it.** -/
theorem exists_pass_of_isSingle (h : test.IsSingle d) : ∃ p : Pass,
    (ofCondition d w (some test)).constants = [] ∧
    (ofCondition d w (some test)).passes = [p] ∧ p.further = [] ∧ test ∈ p.tests ∧
      ∀ u ∈ p.tests, u = test := by
  have htests : (if w.changes then ((some test).map Test.conjuncts).getD []
      else Test.settled d (((some test).map Test.conjuncts).getD [])) = [test] := by
    rw [Option.map_some, Option.getD_some, h.conjuncts_eq, Test.settled_singleton, ite_self]
  obtain ⟨fuel, hfuel⟩ : ∃ fuel, [test].foldl (fun n test => n + test.size) 1 = fuel + 1 :=
    ⟨test.size, Nat.add_comm 1 test.size⟩
  have hparts := Conjunct.all_eq_of_isSingle h
  have hchoice : (Route.choose d w (fuel + 1) (Conjunct.all d [] [test])).route.choice = none := by
    refine Route.choice_choose (fun c hc => ?_) _
    rw [hparts] at hc
    obtain rfl := List.mem_singleton.1 hc
    have harms : (Conjunct.ofTest d [0] none test).arms d = [] := by
      cases test with
      | either a b => exact absurd rfl (h.notEither a b)
      | _ => rfl
    rw [Route.isChoice, harms]
    rfl
  unfold ofCondition
  dsimp only
  rw [htests]
  unfold ofTests
  dsimp only
  rw [hfuel, passesOf, hchoice]
  refine ⟨_, ?_, rfl, rfl, ?_, fun u hu => ?_⟩
  · refine List.filter_eq_nil_iff.2 (List.forall_mem_singleton.2 ?_)
    exact Bool.eq_false_iff.1 h.notConstant
  · obtain ⟨c, hc, rfl⟩ := exists_written (t := d) [] (List.mem_singleton_self test)
    exact List.mem_append_right _ (test_mem_staged hc)
  · -- Whatever drives the route or is put to the rows is the only part.
    have hpart : ∀ c ∈ Conjunct.all d [] [test], c.test = test := by
      rw [hparts]
      exact List.forall_mem_singleton.2 rfl
    rcases List.mem_append.1 hu with hu | hu
    · obtain ⟨c, hc, rfl⟩ := List.mem_map.1 hu
      exact hpart c (Route.mem_of_mem_drivers c hc)
    · obtain ⟨c, hc, rfl⟩ := exists_of_mem_staged hu
      exact hpart c (List.mem_of_mem_filter hc)

/-! ### The rows that are found -/

/-- A test that is put to a row several times comes to the same each time. -/
theorem allHold_eq {s : Scope} {b : Bool} (hb : test.holds s = .ok b) {tests : List Test}
    (hmem : test ∈ tests) (hall : ∀ u ∈ tests, u = test) : Test.allHold s tests = .ok b := by
  have htrue : b = true → ∀ {l : List Test}, (∀ u ∈ l, u = test) → Test.allHold s l = .ok true := by
    rintro rfl l hl
    induction l with
    | nil => rfl
    | cons u rest ih =>
      obtain ⟨rfl, hrest⟩ := List.forall_mem_cons.1 hl
      rw [Test.allHold, List.allM, hb, Test.ok_bind]
      exact ih hrest
  cases b with
  | true => exact htrue rfl hall
  | false =>
    cases tests with
    | nil => cases hmem
    | cons u rest =>
      obtain ⟨rfl, -⟩ := List.forall_mem_cons.1 hall
      rw [Test.allHold, List.allM, hb, Test.ok_bind]
      rfl

/-- **A pass over rows that are told apart gives those that pass**, if each of them can be
tested. -/
theorem gather_eq_filter {scope : StoredRow → Scope} {keep : StoredRow → Bool} :
    ∀ {l : List Visit} {met : List Int}, (l.map fun v => v.row.number).Nodup →
      (∀ v ∈ l, v.row.number ∉ met) →
      (∀ v ∈ l, v.further = [] ∧ Test.allHold (scope v.row) v.tests = .ok (keep v.row)) →
        gather scope none met l = .ok ((l.map Visit.row).filter keep) := by
  intro l
  induction l with
  | nil =>
    intro met _ _ _
    rw [gather_nil]
    rfl
  | cons v rest ih =>
    intro met hnodup hmet hkeep
    obtain ⟨hnew, hnodup⟩ := List.nodup_cons.1 hnodup
    obtain ⟨hfirst, hmet⟩ := List.forall_mem_cons.1 hmet
    obtain ⟨⟨hfurther, htests⟩, hkeep⟩ := List.forall_mem_cons.1 hkeep
    rw [gather_cons (by simp), fate, htests, Test.ok_bind, List.map_cons]
    cases hv : keep v.row with
    | false =>
      rw [List.filter_cons_of_neg (Bool.eq_false_iff.1 hv), ← ih hnodup hmet hkeep]
      rfl
    | true =>
      have hcontains : met.contains v.row.number = false := by
        rw [← Bool.not_eq_true, List.contains_iff_mem]
        exact hfirst
      -- No later row has the number of this one.
      have hlater : ∀ u ∈ rest, u.row.number ∉ v.row.number :: met := fun u hu hmem => by
        rcases List.mem_cons.1 hmem with he | hmem
        · exact hnew (List.mem_map.2 ⟨u, hu, he⟩)
        · exact hmet u hu hmem
      rw [List.filter_cons_of_pos hv, if_pos rfl, hcontains, hfurther]
      show (gather scope none (v.row.number :: met) rest >>= fun more => .ok (v.row :: more)) = _
      rw [ih hnodup hlater hkeep, Test.ok_bind]

variable {t : StoredTable} {now : Timestamp}

/-- A pass over an ordered table gives the rows that pass, if each of them can be tested. -/
theorem gather_visited (hordered : t.Ordered) {p : Pass} (hfurther : p.further = [])
    {keep : StoredRow → Bool} (hkeep : ∀ r ∈ t.rows,
      Test.allHold (t.definition.scope now r) p.tests = .ok (keep r)) :
    gather (t.definition.scope now) none [] ((visited t p).map (⟨·, p.tests, p.further⟩)) =
      .ok ((visited t p).filter keep) := by
  have hperm := StoredTable.visited_perm t p
  rw [gather_eq_filter ?_ (fun _ _ => List.not_mem_nil) ?_, List.map_map]
  · exact congrArg (fun rows => Except.ok (rows.filter keep)) (List.map_id _)
  · rw [List.map_map]
    exact (hperm.map StoredRow.number).nodup_iff.2 hordered.nodup
  · exact List.forall_mem_map.2 fun r hr => ⟨hfurther, hkeep r (hperm.mem_iff.1 hr)⟩

/-- The rows that the plan for a single test finds are those for which it is true, if it can be
put to each row. -/
theorem exists_found_of_isSingle (h : test.IsSingle t.definition) (hordered : t.Ordered)
    (hdecided : ∀ r ∈ t.rows, ∃ b, test.holds (t.definition.scope now r) = .ok b) :
    ∃ rows, (ofCondition t.definition w (some test)).found t now none = .ok rows ∧
      ∀ r, r ∈ rows ↔ r ∈ t.rows ∧ test.holds (t.definition.scope now r) = .ok true := by
  obtain ⟨p, hconstants, hpasses, hfurther, hmem, hall⟩ := @exists_pass_of_isSingle t.definition w test h
  have hkeep : ∀ r ∈ t.rows, Test.allHold (t.definition.scope now r) p.tests =
      .ok (decide (test.holds (t.definition.scope now r) = .ok true)) := fun r hr => by
    obtain ⟨b, hb⟩ := hdecided r hr
    rw [allHold_eq hb hmem hall, hb]
    cases b <;> rfl
  refine ⟨(visited t p).filter fun r =>
    decide (test.holds (t.definition.scope now r) = .ok true), ?_, fun r => ?_⟩
  · unfold found
    rw [hconstants, visits, hpasses, List.flatMap_singleton]
    exact gather_visited hordered hfurther hkeep
  · rw [List.mem_filter, decide_eq_true_eq, (StoredTable.visited_perm t p).mem_iff]

end Plan

/-- **A query with a single test finds the rows for which it is true**, and no others. -/
theorem SelectStatement.selectsExactly_of_isSingle {s : SelectStatement} {db : Database}
    {now : Timestamp} {name : String} {t : StoredTable} (hname : s.table = some name)
    (ht : db.table name = .ok t) (hcondition : s.condition = some test)
    (h : test.IsSingle t.definition) (hordered : t.Ordered)
    (hdecided : ∀ r ∈ t.rows, ∃ b, test.holds (t.definition.scope now r) = .ok b) :
    db.SelectsExactly now s := by
  intro other u condition hother hu hcondition'
  obtain rfl := Option.some.inj (hname.symm.trans hother)
  obtain rfl := Except.ok.inj (ht.symm.trans hu)
  obtain rfl := Option.some.inj (hcondition.symm.trans hcondition')
  have hplan : s.plan t.definition = .ofCondition t.definition
      { columns := s.columns t.definition, order := s.order t.definition } (some test) := by
    rw [SelectStatement.plan, hcondition]
  rw [hplan]
  exact Plan.exists_found_of_isSingle h hordered hdecided

end ResourceTable.Sql
