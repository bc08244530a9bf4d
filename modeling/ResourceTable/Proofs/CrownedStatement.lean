import ResourceTable.Access
import ResourceTable.Proofs.AcceptedRequest
import ResourceTable.Proofs.UpdateBinding

/-!
# Statements under a crown

The statements of an access are printed around the clause of the caller's filter, which
the crown joins.  What the database reads of them acts only on rows for which the crowned
filter holds; under a conjunction these are rows of which the crown holds.

## Main definitions

* `Query.PrintedIn`: the print of a statement in parts.
* `selectParts`, `deleteParts`, `updateParts`: the parts of the statements.

## Main results

* `PrintedIn.tokens_eq` — a statement scans to the tokens of its parts.
* `actsOn_select`, `actsOn_update`, `actsOn_delete` — **what the database reads of a
  statement acts on the rows for which the crowned filter holds.**
* `ActsOn.of_arranged` — under a conjunction it acts within the crown.
-/

namespace ResourceTable

open Sql Sql.Parse

/-! ### Reading a print -/

/-- The print of a statement in parts: with blanks between them and an ending behind. -/
structure Query.PrintedIn (q : Query) (parts : List (List (Ink (String × Param))))
    (back : List (Ink (String × Param))) : Prop where
  /-- The parts are legible under what is bound. -/
  named : ∀ part ∈ parts, Named q.params part
  /-- The text is theirs, with an ending. -/
  text : ∃ ending, EndPrint q.params ending back ∧
    q.sql = String.intercalate " " (parts.map namedText) ++ ending

/-- The tokens of parts, with values in their holes. -/
def partTokens (parts : List (List (Ink (String × Param)))) : List Token :=
  parts.flatMap fun part => tokensOf Param.tokens (part.map (Ink.map Prod.snd))

namespace Query.PrintedIn

variable {q : Query} {parts : List (List (Ink (String × Param)))}
  {back : List (Ink (String × Param))}

theorem named_all (h : q.PrintedIn parts back) : Named q.params (spacedInks parts ++ back) := by
  obtain ⟨ending, hback, -⟩ := h.text
  refine (named_spacedInks h.named).append hback.named fun i _ j hj => ?_
  rw [hback.head j hj]
  exact Ink.joins_blank i

theorem eq_mk (h : q.PrintedIn parts back) :
    q = ⟨namedText (spacedInks parts ++ back), q.params⟩ := by
  obtain ⟨ending, hback, hsql⟩ := h.text
  have htext : namedText (spacedInks parts ++ back) = q.sql := by
    rw [hsql, ← String.toList_inj, namedText, String.toList_ofList, print_append,
      spacedInks, print_joinInks, hback.text, String.toList_append]
    rfl
  rw [htext]

/-- **Bound, the statement scans to the tokens of its parts**, whose holes are values by
now. -/
theorem tokens_eq (h : q.PrintedIn parts back) {sql : String} {cells : List Cell}
    (hbound : q.bound = .ok (sql, cells)) :
    (Lexeme.fill (Lexeme.scan sql.toList) cells).map Lexeme.token =
      partTokens parts ++ tokensOf Param.tokens (back.map (Ink.map Prod.snd)) := by
  rw [h.eq_mk] at hbound
  obtain ⟨rfl, rfl⟩ := h.named_all.eq_of_bound hbound
  rw [h.named_all.tokens_bound_print, List.map_append, tokensOf_append, spacedInks, map_joinInks]
  refine congrArg (· ++ _) ((tokensOf_spacedInks _ _).trans ?_)
  rw [List.flatMap_map]
  rfl

end Query.PrintedIn

/-- What is read of a print acts as its parts say, whatever it ends with. -/
theorem Sql.Statement.read_of_parts {q : Query} {parts : List (List (Ink (String × Param)))}
    {back : List (Ink (String × Param))} (h : q.PrintedIn parts back) {sql : String}
    {cells : List Cell} {s : Statement} (hbound : q.bound = .ok (sql, cells))
    (hs : Statement.read sql cells = .ok s) {P : Statement → Prop}
    (hyields : ∀ fuel rest, EndsCondition (headToken rest) →
      Yields (Parse.statement fuel) (partTokens parts) rest P) : P s := by
  obtain ⟨ls, rest, hsplit, hls, hrest⟩ := List.map_eq_append_iff.1 (h.tokens_eq hbound)
  obtain ⟨ending, hback, -⟩ := h.text
  have hends : EndsCondition (headToken rest) := by
    have hhead : headToken rest = (rest.map Lexeme.token).head? := List.head?_map.symm
    rw [hhead, hrest]
    exact hback.ends
  exact Statement.read_of_yields hs hsplit hls fun fuel => hyields fuel rest hends

/-! ### The clause -/

namespace ValidFilter

variable {rules : FilterRules}

/-- The filter that a clause is compiled from, with its crown and in the order of
priority. -/
abbrev arranged (v : ValidFilter rules) (options : CompileOptions) : Filter :=
  (v.filter.crownedBy options.crown).prioritize options.priority

theorem tokens_print (v : ValidFilter rules) (options : CompileOptions) :
    tokensOf Param.tokens ((v.print options).map (Ink.map Prod.snd)) =
      .word "WHERE" :: (v.arranged options).tokens rules.fields := by
  rw [print, List.map_append, tokensOf_append, lowered, Filter.map_lowered]
  rfl

end ValidFilter

/-! ### Statements around a clause -/

/-- The parts of a `SELECT`, from what it gives to its clause. -/
def selectParts (table : Table) (outputs clause : List (Ink (String × Param))) :
    List (List (Ink (String × Param))) :=
  [[.word "SELECT"], outputs, [.word "FROM"], [.word table.name], clause]

/-- The parts of a `DELETE`. -/
def deleteParts (table : Table) (clause : List (Ink (String × Param))) :
    List (List (Ink (String × Param))) :=
  [[.word "DELETE"], [.word "FROM"], [.word table.name], clause]

/-- The parts of an `UPDATE`. -/
def updateParts (table : Table) (written : List (String × Leaf))
    (clause : List (Ink (String × Param))) : List (List (Ink (String × Param))) :=
  [[.word "UPDATE"], [.word table.name], [.word "SET"], assignmentsInks written, clause]

section Around

variable {rules : FilterRules} {v : ValidFilter rules} {options : CompileOptions} {table : Table}
  {q : Query} {sql : String} {cells : List Cell} {s : Statement}

theorem printedIn_selectParts {params : Params} {projection clause ending : String}
    {outs inks back : List (Ink (String × Param))} (hname : isBareName table.name.toList = true)
    (houts : OutputsPrint params projection outs) (hclause : clause = namedText inks)
    (hnamed : Named params inks) (hback : EndPrint params ending back) :
    (Query.mk ("SELECT " ++ projection ++ " FROM " ++ table.name ++ " " ++ clause ++ ending)
      params).PrintedIn (selectParts table outs inks) back := by
  refine ⟨?_, ending, hback, ?_⟩
  · simp only [selectParts, List.forall_mem_cons]
    exact ⟨.word (by decide), houts.named, .word (by decide), .word hname, hnamed,
      List.forall_mem_nil _⟩
  · simp only [selectParts, List.map_cons, List.map_nil, namedText_word, houts.text, ← hclause,
      String.intercalate_cons_cons, String.intercalate_singleton, String.append_assoc]
    rw [← String.toList_inj]
    simp only [String.toList_append]
    rfl

/-- **What the database reads of a `SELECT` acts on the rows for which the crowned filter
holds.** -/
theorem actsOn_select (hnames : rules.HasFieldPaths) (hplain : table.IsPlain)
    (hcrown : Filter.CrownPasses rules options.crown) {selection : Selection}
    (hfilter : selection.filter = some (v.compiled options))
    (hq : selection.query table = .ok q) (hbound : q.bound = .ok (sql, cells))
    (hs : Statement.read sql cells = .ok s) :
    (∃ select, s = .select select) ∧ s.ActsOn rules.fields table.name (v.arranged options) := by
  have hclause := (v.bindable_print hnames hcrown).toNamed
  unfold Selection.query at hq
  cases hprojection : selection.projection table with
  | error e => rw [hprojection] at hq; cases hq
  | ok projection =>
    cases hsuffix : selection.suffix with
    | error e => rw [hprojection, hsuffix] at hq; cases hq
    | ok suffix =>
      rw [hprojection, hsuffix, hfilter] at hq
      have hprinted : ∃ is, OutputsPrint (v.compiled options).params projection is :=
        exists_outputsPrint hplain hprojection
      have hended : ∃ is, EndPrint (v.compiled options).params (Selection.spaced suffix) is :=
        exists_endPrint hsuffix
      obtain ⟨outs, houts⟩ := hprinted
      obtain ⟨back, hback⟩ := hended
      have hsql : (v.compiled options).sql = namedText (v.print options) := rfl
      have hparts := printedIn_selectParts hplain.name houts hsql hclause hback
      have hsame : q = ⟨"SELECT " ++ projection ++ " FROM " ++ table.name ++ " " ++
          (v.compiled options).sql ++ Selection.spaced suffix, (v.compiled options).params⟩ := by
        rw [← Except.ok.inj hq]
        simp only [String.append_assoc]
      rw [← hsame] at hparts
      refine Statement.read_of_parts (P := fun s => (∃ select, s = .select select) ∧
        s.ActsOn rules.fields table.name (v.arranged options)) hparts hbound hs
        fun fuel rest hends => ?_
      simp only [partTokens, selectParts, List.flatMap_cons, List.flatMap_nil, List.append_nil,
        v.tokens_print]
      exact yields_select (v.rulesPass hcrown) table.name (houts.covers fuel) hends

/-- A `DELETE` is printed in its parts. -/
theorem printedIn_deleteParts (hnames : rules.HasFieldPaths)
    (hname : isBareName table.name.toList = true)
    (hcrown : Filter.CrownPasses rules options.crown)
    (hq : table.deleteQuery (some (v.compiled options)) = .ok q) :
    q.PrintedIn (deleteParts table (v.print options)) [] := by
  have hclause := (v.bindable_print hnames hcrown).toNamed
  unfold Table.deleteQuery at hq
  split at hq
  · cases hq
  · next clause hclaused =>
    obtain rfl := Option.some.inj (Option.filter_eq_some_iff.1 hclaused).1
    obtain rfl := Except.ok.inj hq
    refine ⟨?_, "", .nothing, ?_⟩
    · simp only [deleteParts, List.forall_mem_cons]
      exact ⟨.word (by decide), .word (by decide), .word hname, hclause,
        List.forall_mem_nil _⟩
    · simp only [deleteParts, List.map_cons, List.map_nil, namedText_word,
        String.intercalate_cons_cons, String.intercalate_singleton, String.append_assoc,
        String.append_empty]
      rw [← String.toList_inj]
      simp only [String.toList_append]
      rfl

/-- **What the database reads of a `DELETE` acts on the rows for which the crowned filter
holds.** -/
theorem actsOn_delete (hnames : rules.HasFieldPaths) (hplain : table.IsPlain)
    (hcrown : Filter.CrownPasses rules options.crown)
    (hq : table.deleteQuery (some (v.compiled options)) = .ok q)
    (hbound : q.bound = .ok (sql, cells)) (hs : Statement.read sql cells = .ok s) :
    s.ActsOn rules.fields table.name (v.arranged options) := by
  refine Statement.read_of_parts (printedIn_deleteParts hnames hplain.name hcrown hq) hbound hs
    fun fuel rest hends => ?_
  simp only [partTokens, deleteParts, List.flatMap_cons, List.flatMap_nil, List.append_nil,
    v.tokens_print]
  exact yields_delete (v.rulesPass hcrown) table.name hends

/-- An `UPDATE` is printed in its parts: the assignments of what is written, and the clause
with other names. -/
theorem exists_updateParts (hnames : rules.HasFieldPaths)
    (hname : isBareName table.name.toList = true)
    (hcolumns : ∀ c ∈ table.columns.columns, isBareName c.name.toList = true)
    (hcrown : Filter.CrownPasses rules options.crown) {record : Record} {policy : UpdatePolicy}
    {set : SetClause} (hset : record.setClause policy = .ok set)
    (hq : set.query table (some (v.compiled options)) = .ok q) :
    ∃ flat back, record.flatten = .ok flat ∧
      q.PrintedIn (updateParts table (policy.written flat) back) [] ∧
      back.map (Ink.map Prod.snd) = (v.print options).map (Ink.map Prod.snd) := by
  have hclause := (v.bindable_print hnames hcrown).toNamed
  obtain ⟨flat, hflat, hnodup, hwritten, htext, hparams⟩ := setClause_eq hset
  obtain ⟨hcheck, -, rfl⟩ := SetClause.query_eq_ok hq
  have hbare : ∀ entry ∈ policy.written flat, isBareName entry.1.toList = true := by
    intro entry hentry
    refine isBareName_of_checkColumns hcolumns hcheck entry.1 ?_
    rw [hwritten]
    exact List.mem_map.2 ⟨entry, hentry, rfl⟩
  obtain ⟨back, hparts⟩ :=
    SetClause.exists_updatePrint hnodup htext hparams hbare rfl hclause
  refine ⟨flat, back, hflat, ⟨?_, "", .nothing, ?_⟩, hparts.same⟩
  · simp only [updateParts, List.forall_mem_cons]
    exact ⟨.word (by decide), .word hname, .word (by decide), hparts.assigned,
      hparts.clauseNamed, List.forall_mem_nil _⟩
  · simp only [updateParts, List.map_cons, List.map_nil, namedText_word, hparts.text,
      hparts.clauseText, String.intercalate_cons_cons, String.intercalate_singleton,
      String.append_assoc, String.append_empty]
    rw [← String.toList_inj]
    simp only [String.toList_append]
    rfl

/-- **What the database reads of an `UPDATE` acts on the rows for which the crowned filter
holds.** -/
theorem actsOn_update (hnames : rules.HasFieldPaths) (hplain : table.IsPlain)
    (hcrown : Filter.CrownPasses rules options.crown) {record : Record} {policy : UpdatePolicy}
    {set : SetClause} (hset : record.setClause policy = .ok set)
    (hq : set.query table (some (v.compiled options)) = .ok q)
    (hbound : q.bound = .ok (sql, cells)) (hs : Statement.read sql cells = .ok s) :
    s.ActsOn rules.fields table.name (v.arranged options) := by
  obtain ⟨flat, back, -, hparts, hsame⟩ := exists_updateParts hnames hplain.name
    (fun c hc => (hplain.columns c hc).1) hcrown hset hq
  refine Statement.read_of_parts hparts hbound hs fun fuel rest hends => ?_
  simp only [partTokens, updateParts, List.flatMap_cons, List.flatMap_nil, List.append_nil, hsame,
    v.tokens_print]
  have hassigned := (covers_assignmentsInks (policy.written flat) fuel).mono (fun _ ht => ht)
    fun _ _ => trivial
  exact yields_update (v.rulesPass hcrown) table.name hassigned hends

end Around

/-! ### Acting within a crown -/

section Crown

variable {fields : Schema} {table : String} {s : Statement} {f g : Filter}

theorem Sql.Statement.ActsOn.mono (h : s.ActsOn fields table f)
    (hfg : ∀ scope, f.HoldsIn fields scope → g.HoldsIn fields scope) :
    s.ActsOn fields table g := by
  have himplies {t : Test} (ht : t.Implies fields f) : t.Implies fields g :=
    fun scope hpass => hfg scope (ht scope hpass)
  cases s with
  | select s => exact ⟨h.1, h.2.imp fun _ ht => ⟨ht.1, himplies ht.2⟩⟩
  | update name assignments condition => exact ⟨h.1, h.2.imp fun _ ht => ⟨ht.1, himplies ht.2⟩⟩
  | delete name condition => exact ⟨h.1, h.2.imp fun _ ht => ⟨ht.1, himplies ht.2⟩⟩
  | insert s => exact h.elim
  | createTable ifAbsent t => exact h.elim

/-- A filter that a conjunction crowns holds only where the crown holds. -/
theorem Filter.holdsIn_crown {f c : Filter} {cs : List Filter} {scope : Scope}
    (h : (f.crownedBy (some (.and, c :: cs))).HoldsIn fields scope) :
    (Filter.group .and (c :: cs)).HoldsIn fields scope := by
  unfold crownedBy at h
  dsimp only at h
  split at h
  · exact h
  · exact holdsIn_and.1 h _ (by simp)

/-- **Under a conjunction a statement acts within the crown.** -/
theorem Sql.Statement.ActsOn.of_arranged {rules : FilterRules} {v : ValidFilter rules}
    {options : CompileOptions} {c : Filter} {cs : List Filter}
    (hcrown : options.crown = some (.and, c :: cs))
    (h : s.ActsOn fields table (v.arranged options)) :
    s.ActsOn fields table (.group .and (c :: cs)) := by
  refine h.mono fun scope hholds => Filter.holdsIn_crown (f := v.filter) ?_
  rw [Filter.HoldsIn, ValidFilter.arranged, Filter.truth_prioritize, hcrown] at hholds
  exact hholds

end Crown

/-! ### The statements of an access -/

/-- A query is read as one statement. -/
theorem Query.statement_unique {query : Checked Query} {q q' : Query} {sql sql' : String}
    {cells cells' : List Cell} {s s' : Statement} (hq : query = .ok q)
    (hbound : q.bound = .ok (sql, cells)) (hread : Statement.read sql cells = .ok s)
    (hq' : query = .ok q') (hbound' : q'.bound = .ok (sql', cells'))
    (hread' : Statement.read sql' cells' = .ok s') : s = s' := by
  obtain rfl := Except.ok.inj (hq.symm.trans hq')
  obtain ⟨rfl, rfl⟩ := Prod.mk.inj (Except.ok.inj (hbound.symm.trans hbound'))
  exact Except.ok.inj (hread.symm.trans hread')

namespace Access

variable {r : Resource} {a : Access r} {c : Filter} {cs : List Filter} {q : Query}
  {sql : String} {cells : List Cell} {s : Statement}

/-- An access whose names can be written into statements. -/
structure IsPlain (a : Access r) : Prop where
  table : r.table.IsPlain
  fields : a.rules.HasFieldPaths

/-- The clause of a filter that passes the check, under a crown that does. -/
theorem clause_of_validate {filter : Filter} {v : ValidFilter a.rules}
    (hvalid : filter.validate a.rules = .ok v)
    (hcrown : Filter.CrownPasses a.rules a.options.crown) :
    a.clause filter = .ok (v.compiled a.options) := by
  rw [clause, hvalid]
  exact v.compile_eq hcrown

/-- The clause of a filter is that of a filter that passed the check, under a crown that
did. -/
theorem clause_eq {filter : Filter} {clause : Clause} (h : a.clause filter = .ok clause) :
    ∃ v : ValidFilter a.rules, Filter.CrownPasses a.rules a.options.crown ∧
      clause = v.compiled a.options := by
  unfold Access.clause at h
  cases hv : filter.validate a.rules with
  | error e => rw [hv] at h; cases h
  | ok v =>
    rw [hv] at h
    have hc : v.compile a.options = .ok clause := h
    have hpasses := v.crownPasses_of_compile hc
    rw [v.compile_eq hpasses] at hc
    exact ⟨v, hpasses, (Except.ok.inj hc).symm⟩

/-- What the statement of an update is made of. -/
theorem updateQuery_eq_ok {filter : Filter} {patch : Record} {policy : UpdatePolicy}
    (h : a.updateQuery filter patch policy = .ok q) :
    ∃ clause set, a.clause filter = .ok clause ∧ patch.setClause policy = .ok set ∧
      set.query r.table (some clause) = .ok q := by
  unfold updateQuery at h
  obtain ⟨clause, hclause, h⟩ := Rule.bind_eq_ok h
  obtain ⟨set, hset, h⟩ := Rule.bind_eq_ok h
  exact ⟨clause, set, hclause, hset, h⟩

/-- What the statement of a deletion is made of. -/
theorem deleteQuery_eq_ok {filter : Filter} (h : a.deleteQuery filter = .ok q) :
    ∃ clause, a.clause filter = .ok clause ∧ r.table.deleteQuery (some clause) = .ok q := by
  unfold deleteQuery at h
  obtain ⟨clause, hclause, h⟩ := Rule.bind_eq_ok h
  exact ⟨clause, hclause, h⟩

theorem actsOn_list (hplain : a.IsPlain) (hcrown : a.options.crown = some (.and, c :: cs))
    {request : ListRequest} (hq : a.listQuery request = .ok q)
    (hbound : q.bound = .ok (sql, cells)) (hs : Statement.read sql cells = .ok s) :
    (∃ select, s = .select select) ∧
      s.ActsOn a.rules.fields r.table.name (.group .and (c :: cs)) := by
  obtain ⟨v, hv, hpasses, -⟩ := exists_accepted_of_listQuery hq
  unfold listQuery at hq
  rw [hv] at hq
  simp only [bind, Except.bind, v.compile_eq hpasses] at hq
  have hselect := actsOn_select hplain.fields hplain.table hpasses rfl hq hbound hs
  exact ⟨hselect.1, hselect.2.of_arranged hcrown⟩

theorem actsOn_update (hplain : a.IsPlain) (hcrown : a.options.crown = some (.and, c :: cs))
    {filter : Filter} {patch : Record} {policy : UpdatePolicy}
    (hq : a.updateQuery filter patch policy = .ok q)
    (hbound : q.bound = .ok (sql, cells)) (hs : Statement.read sql cells = .ok s) :
    s.ActsOn a.rules.fields r.table.name (.group .and (c :: cs)) := by
  obtain ⟨clause, set, hc, hset, hq⟩ := updateQuery_eq_ok hq
  obtain ⟨v, hpasses, rfl⟩ := clause_eq hc
  exact (ResourceTable.actsOn_update hplain.fields hplain.table hpasses hset hq hbound
    hs).of_arranged hcrown

theorem actsOn_delete (hplain : a.IsPlain) (hcrown : a.options.crown = some (.and, c :: cs))
    {filter : Filter} (hq : a.deleteQuery filter = .ok q)
    (hbound : q.bound = .ok (sql, cells)) (hs : Statement.read sql cells = .ok s) :
    s.ActsOn a.rules.fields r.table.name (.group .and (c :: cs)) := by
  obtain ⟨clause, hc, hq⟩ := deleteQuery_eq_ok hq
  obtain ⟨v, hpasses, rfl⟩ := clause_eq hc
  exact (ResourceTable.actsOn_delete hplain.fields hplain.table hpasses hq hbound
    hs).of_arranged hcrown

end Access

end ResourceTable
