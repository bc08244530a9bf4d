import ResourceTable.Proofs.AvoidedPrint
import ResourceTable.Proofs.ClauseBinding

/-!
# Clauses that differ in names

A clause can be given other names in two ways.  The finished clause gives up the names
that are taken, in the order of its names; or the filter is compiled with these names
reserved, and takes others in the order of its rules.  The two ways give different
names, but both keep the print of the clause, and names are nothing that the database
receives.

## Main definitions

* `Clause.PrintedAs`: a clause with its print, whose holes are all that is bound.
* `Clause.SameButNames`: clauses that differ in the names of their placeholders.

## Main results

* `PrintedAs.avoiding` — a clause that gives up names has its print with other names.
* `PrintedAs.sameButNames` — clauses of one print differ in names.
* `renaming_invisible` — **a clause with other names is executed as before.**
-/

namespace ResourceTable

/-! ### Entries -/

namespace NameMap

variable {α : Type}

theorem nodup_entries (m : NameMap α) : m.entries.Nodup := .of_map Prod.fst m.nodup_keys

/-- A map holds nothing but the entries it is made of, if their names are distinct. -/
theorem entries_ofList_perm {l : List (String × α)} (h : (l.map Prod.fst).Nodup) :
    (ofList l).entries.Perm l := by
  refine (List.perm_ext_iff_of_nodup (nodup_entries _) (.of_map Prod.fst h)).2 ?_
  rintro ⟨name, value⟩
  rw [← get?_eq_some_iff, get?_ofList h]
  refine ⟨fun hfound => ?_, lookup_of_mem h⟩
  by_contra hnot
  have hname : name ∈ l.map Prod.fst := by
    by_contra hnone
    rw [lookup_eq_none_of_notMem hnone] at hfound
    cases hfound
  obtain ⟨⟨key, other⟩, hmem, rfl⟩ := List.mem_map.1 hname
  rw [lookup_of_mem h hmem] at hfound
  exact hnot (Option.some.inj hfound ▸ hmem)

end NameMap

namespace Clause

/-- Distinct names, each changed to the one in the same place. -/
theorem map_renamed_zip : ∀ {olds news : List String}, olds.Nodup →
    olds.length = news.length → olds.map (renamed (olds.zip news)) = news := by
  intro olds
  induction olds with
  | nil => intro news _ hlength; exact (List.length_eq_zero_iff.1 hlength.symm).symm
  | cons old rest ih =>
    intro news hnodup hlength
    obtain ⟨hold, hrest⟩ := List.nodup_cons.1 hnodup
    cases news with
    | nil => cases hlength
    | cons new more =>
      have hmore : rest.map (renamed ((old :: rest).zip (new :: more))) =
          rest.map (renamed (rest.zip more)) := by
        refine List.map_congr_left fun name hname => ?_
        have hne : (name == old) = false := beq_false_of_ne fun he => hold (he ▸ hname)
        rw [renamed, renamed, List.zip_cons_cons, List.lookup_cons, hne]
      have hfirst : renamed ((old :: rest).zip (new :: more)) old = new := by
        rw [renamed, List.zip_cons_cons, List.lookup_cons_self]
        rfl
      rw [List.map_cons, hfirst, hmore, ih hrest (Nat.succ.inj hlength)]

/-! ### Clauses and their prints -/

/-- A clause with its print.  There are cells for what is bound, and the holes of the print,
each of which has a name of its own, are all that is bound. -/
structure PrintedAs (c : Clause) (is : List (Ink (String × Param))) : Prop where
  /-- The text is that of the print. -/
  text : c.sql = namedText is
  /-- The print can be executed. -/
  bindable : Bindable c.params is
  /-- Nothing is bound but what is in its holes. -/
  entries : c.params.entries.Perm (holesOf is)

/-- Clauses that differ in the names of their placeholders, and in nothing else. -/
structure SameButNames (c d : Clause) : Prop where
  /-- There are as many names. -/
  asMany : d.params.keys.length = c.params.keys.length
  /-- Each value is kept under another name, and the placeholders have that name. -/
  renamed : ∃ rename : String → String,
    d.params.entries.Perm (c.params.entries.map fun entry => (rename entry.1, entry.2)) ∧
      d.query.placeholders = c.query.placeholders.map rename
  /-- Both match every row, or none of them is known to. -/
  matchesAll : d.matchesAll = c.matchesAll
  /-- They are executed as the same text with the same cells. -/
  bound : ∃ text cells, c.query.bound = .ok (text, cells) ∧ d.query.bound = .ok (text, cells)

namespace PrintedAs

variable {c d : Clause} {is js : List (Ink (String × Param))}

theorem placeholders_eq (h : c.PrintedAs is) :
    c.query.placeholders = (holesOf is).map Prod.fst := by
  rw [query, h.text]
  exact h.bindable.placeholders_eq

/-- Every hole has a name of its own. -/
theorem nodup_names (h : c.PrintedAs is) : ((holesOf is).map Prod.fst).Nodup :=
  (h.entries.map Prod.fst).nodup_iff.1 c.params.nodup_keys

/-- Executed, a clause is the positional form of its print. -/
theorem bound_eq (h : c.PrintedAs is) : c.query.bound =
    .ok (positionalText (is.map (Ink.map Prod.snd)), cellsOf (is.map (Ink.map Prod.snd))) := by
  rw [query, h.text]
  exact h.bindable.bound_print

/-- **Clauses whose prints differ in names differ in names.** -/
theorem sameButNames (hc : c.PrintedAs is) (hd : d.PrintedAs js)
    (hsame : js.map (Ink.map Prod.snd) = is.map (Ink.map Prod.snd))
    (hall : d.matchesAll = c.matchesAll) : c.SameButNames d := by
  have hvalues : (holesOf js).map Prod.snd = (holesOf is).map Prod.snd := by
    rw [← holesOf_map, ← holesOf_map, hsame]
  have hlength : (holesOf is).length = (holesOf js).length := by
    have hcount := congrArg List.length hvalues
    rw [List.length_map, List.length_map] at hcount
    exact hcount.symm
  have hnames : ((holesOf is).map Prod.fst).map
      (Clause.renamed (((holesOf is).map Prod.fst).zip ((holesOf js).map Prod.fst))) =
        (holesOf js).map Prod.fst :=
    map_renamed_zip hc.nodup_names (by rw [List.length_map, List.length_map, hlength])
  generalize Clause.renamed (((holesOf is).map Prod.fst).zip ((holesOf js).map Prod.fst)) = rename
    at hnames
  -- Hole by hole the second print holds what the first one holds, under the new name.
  have hholes : (holesOf is).map (fun hole => (rename hole.1, hole.2)) = holesOf js := by
    have hfirst : ((holesOf is).map fun hole => (rename hole.1, hole.2)).map Prod.fst =
        (holesOf js).map Prod.fst := by
      rw [List.map_map, ← hnames, List.map_map]
      rfl
    have hsecond : ((holesOf is).map fun hole => (rename hole.1, hole.2)).map Prod.snd =
        (holesOf js).map Prod.snd := by
      rw [List.map_map, hvalues]
      rfl
    exact (List.zip_of_prod hfirst hsecond).trans (List.zip_of_prod rfl rfl).symm
  refine ⟨?_, ⟨rename, ?_, ?_⟩, hall, _, _, hc.bound_eq, ?_⟩
  · rw [NameMap.keys, NameMap.keys, List.length_map, List.length_map, hd.entries.length_eq,
      hc.entries.length_eq, hlength]
  · exact hd.entries.trans (hholes ▸ (hc.entries.map _).symm)
  · rw [hc.placeholders_eq, hd.placeholders_eq, hnames]
  · rw [← hsame]
    exact hd.bound_eq

/-- **A clause that gives up names differs in names**, none of which is one that is
taken. -/
theorem avoiding (h : c.PrintedAs is) (taken : List String) :
    (∀ name ∈ (c.avoiding taken).params.keys, name ∉ taken) ∧
      c.SameButNames (c.avoiding taken) := by
  obtain ⟨-, -, -, -, hfree⟩ := avoiding_named h.text h.bindable.toNamed taken
  refine ⟨hfree, ?_⟩
  rcases c.avoiding_eq_renamed taken rfl with ⟨hsame, -⟩ | hother
  · rw [hsame]
    exact h.sameButNames h rfl rfl
  · let changes := renames taken (taken ++ c.params.keys) c.params.keys
    have hused : ∀ name ∈ c.params.keys, name ∈ taken ++ c.params.keys :=
      fun _ => List.mem_append_right taken
    have hnodup : ((renamedEntries changes c.params).map Prod.fst).Nodup :=
      c.nodup_renamedEntries hused
    have hprinted : (c.avoiding taken).PrintedAs (renamedInks changes is) := by
      rw [hother]
      refine ⟨?_, ⟨named_renamedInks h.bindable.toNamed hnodup isBareName_renamed, ?_⟩, ?_⟩
      · rw [h.text]
        exact substitute_namedText h.bindable.toNamed
      · intro b hb
        rw [renamedInks, holesOf_map] at hb
        obtain ⟨hole, hhole, rfl⟩ := List.mem_map.1 hb
        exact h.bindable.cells hole hhole
      · rw [renamedInks, holesOf_map]
        exact (NameMap.entries_ofList_perm hnodup).trans (h.entries.map _)
    exact h.sameButNames hprinted map_renamedInks (by rw [hother])

end PrintedAs

end Clause

/-! ### Compiled clauses -/

namespace ValidFilter

variable {rules : FilterRules} {options : CompileOptions} {c : Clause}

/-- What is in the holes of a clause does not depend on the names. -/
theorem map_print (v : ValidFilter rules) (options : CompileOptions) :
    (v.print options).map (Ink.map Prod.snd) = [.word "WHERE", .blank] ++
      (v.arranged options).print fun r => r.payload (rules.fields.get? r.field) := by
  rw [print, List.map_append, lowered, Filter.map_lowered]
  rfl

/-- The holes of a clause take names that are not reserved, and nothing else is bound. -/
theorem takes_print (v : ValidFilter rules) (options : CompileOptions) :
    Filter.Takes (.start options.reserved) (holesOf (v.print options))
      (v.lowered options).2 :=
  Filter.takes_lowered _ _

/-- A clause is compiled with its print. -/
theorem printedAs (hnames : rules.HasFieldPaths) (v : ValidFilter rules)
    (hcrown : Filter.CrownPasses rules options.crown) :
    (v.compiled options).PrintedAs (v.print options) := by
  have hbindable := v.bindable_print hnames hcrown
  have htakes := v.takes_print options
  have hnodup : (holesOf (v.print options)).Nodup := .of_map Prod.fst htakes.distinct
  refine ⟨rfl, hbindable, (List.perm_ext_iff_of_nodup (NameMap.nodup_entries _) hnodup).2
    fun entry => ⟨fun hentry => ?_, fun hhole => ?_⟩⟩
  · have hkey : entry.1 ∈ (v.lowered options).2.params.keys := List.mem_map.2 ⟨entry, hentry, rfl⟩
    have htaken := ((htakes.keys entry.1).1 hkey).resolve_left List.not_mem_nil
    obtain ⟨hole, hhole, hname⟩ := List.mem_map.1 htaken
    have hfound := NameMap.get?_eq_some_iff.2 hentry
    rw [← hname] at hfound
    have hvalue := (hbindable.bound hole hhole).symm.trans hfound
    have hsame : hole = entry := Prod.ext hname (Option.some.inj hvalue)
    exact hsame ▸ hhole
  · exact NameMap.get?_eq_some_iff.1 (hbindable.bound entry hhole)

/-- **A clause with other names is executed as before**, whether it gives up the names that
are taken or is compiled with these names reserved.  None of its names is taken, there are
as many as before, every value is kept under one of them, and the database receives the
same text and the same cells. -/
theorem renaming_invisible (hnames : rules.HasFieldPaths) (v : ValidFilter rules)
    (h : v.compile options = .ok c) (taken : List String) :
    ((∀ name ∈ (c.avoiding taken).params.keys, name ∉ taken) ∧
        c.SameButNames (c.avoiding taken)) ∧
      ∀ reserved, (∀ name, name ∈ reserved ↔ name ∈ options.reserved ∨ name ∈ taken) →
        ∃ d, v.compile { options with reserved } = .ok d ∧
          (∀ name ∈ d.params.keys, name ∉ taken) ∧ c.SameButNames d := by
  have hcrown := crownPasses_of_compile h
  obtain rfl := Except.ok.inj ((v.compile_eq hcrown).symm.trans h)
  have hprinted := v.printedAs hnames hcrown
  refine ⟨hprinted.avoiding taken, fun reserved hreserved => ?_⟩
  let others : CompileOptions := { options with reserved }
  have hother : (v.compiled others).PrintedAs (v.print others) := v.printedAs hnames hcrown
  refine ⟨v.compiled others, v.compile_eq hcrown, fun name hname htaken => ?_,
    hprinted.sameButNames hother ?_ rfl⟩
  · have htakes := v.takes_print others
    have hholes := ((htakes.keys name).1 hname).resolve_left List.not_mem_nil
    obtain ⟨hole, hhole, rfl⟩ := List.mem_map.1 hholes
    exact htakes.fresh hole hhole ((hreserved hole.1).2 (.inr htaken))
  · rw [map_print, map_print]

end ValidFilter

/-- The clashing fields again, under names that are given up or reserved. -/
theorem clashingFilter_renamed :
    clashingRules.HasFieldPaths ∧ ∃ c d,
      clashingFilter.compile { reserved := ["name"] } = .ok c ∧
      clashingFilter.compile { reserved := ["a_b_2", "name", "name_2"] } = .ok d ∧
      (c.avoiding ["a_b_2", "name_2"]).query.placeholders =
        ["a_b", "a_b_2_2", "name_2_3", "name_3", "name_2_2", "created_at"] ∧
      d.query.placeholders = ["a_b", "a_b_3", "name_3", "name_4", "name_2_2", "created_at"] ∧
      c.SameButNames (c.avoiding ["a_b_2", "name_2"]) ∧ c.SameButNames d := by
  have hnames : clashingRules.HasFieldPaths := by decide
  have hcompile : clashingFilter.compile { reserved := ["name"] } =
      .ok (clashingFilter.compiled { reserved := ["name"] }) :=
    clashingFilter.compile_eq (by decide)
  obtain ⟨⟨-, hsame⟩, hreserved⟩ :=
    clashingFilter.renaming_invisible hnames hcompile ["a_b_2", "name_2"]
  obtain ⟨d, hd, -, hother⟩ := hreserved ["a_b_2", "name", "name_2"] fun name => by
    simp only [List.mem_cons, List.not_mem_nil, or_false]
    exact or_left_comm
  have hdirect : clashingFilter.compile { reserved := ["a_b_2", "name", "name_2"] } =
      .ok (clashingFilter.compiled { reserved := ["a_b_2", "name", "name_2"] }) :=
    clashingFilter.compile_eq (by decide)
  refine ⟨hnames, _, d, hcompile, hd, ?_, ?_, hsame, hother⟩
  · rw [clashingFilter.compiled_unranked rfl]
    decide +kernel
  · rw [← Except.ok.inj (hdirect.symm.trans hd), clashingFilter.compiled_unranked rfl]
    decide +kernel

end ResourceTable
