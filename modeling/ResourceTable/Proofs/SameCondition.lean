import ResourceTable.Proofs.CrownedStatement
import ResourceTable.Proofs.SelectReading

/-!
# One filter in three statements

The clause of a filter stands in the query that counts its rows, in an `UPDATE` and in a
`DELETE`.  The names of its placeholders may differ there, and so do the places of its
tokens, but not the tokens themselves.  So whenever the database reads one of the changing
statements, it reads the counting query as well, with the same condition but for places.

## Main definitions

* `Sql.Test.IsReadOf`: a test is what the tokens of a clause are read as.

## Main results

* `Statement.read_eq_ok_iff` — when a text is read as a statement.
* `exists_update_read`, `exists_delete_read` — what the changing statements are read as.
* `exists_count_read` — **the counting query is read with the condition of the others.**
-/

namespace ResourceTable

open Sql Sql.Parse

/-! ### Holes -/

section Holes

variable {α : Type}

theorem Sql.Lexeme.holes_eq_count (ls : List Lexeme) :
    Lexeme.holes ls = (ls.map Lexeme.token).count (.mark "?") := by
  rw [Lexeme.holes, List.count, List.countP_map]
  rfl

/-- A legible print has a question mark in every hole, and nowhere else. -/
theorem count_tokensOf {is : List (Ink α)} (h : ∀ i ∈ is, i.IsSound) :
    (tokensOf (fun _ => [Token.mark "?"]) is).count (.mark "?") = (holesOf is).length := by
  induction is with
  | nil => rfl
  | cons i rest ih =>
    obtain ⟨hi, hrest⟩ := List.forall_mem_cons.1 h
    have happend : tokensOf (fun _ => [Token.mark "?"]) (i :: rest) =
        tokensOf (fun _ => [Token.mark "?"]) [i] ++ tokensOf (fun _ => [Token.mark "?"]) rest :=
      tokensOf_append _ [i] rest
    have hholes : holesOf (i :: rest) = holesOf [i] ++ holesOf rest := holesOf_append [i] rest
    rw [happend, List.count_append, ih hrest, hholes, List.length_append]
    refine congrArg (· + _) ?_
    cases i with
    | mark s =>
      -- No mark that is printed is a question mark.
      have hs : s ≠ "?" := by
        rintro rfl
        exact absurd hi (by decide : "?" ∉ Ink.printedMarks)
      refine List.count_eq_zero.2 fun hmem => hs ?_
      exact (Token.mark.inj (List.mem_singleton.1 hmem)).symm
    | _ => rfl

theorem holes_scan_print {is : List (Ink α)} (h : Legible is) :
    Lexeme.holes (Lexeme.scan (print Ink.question is)) = (holesOf is).length := by
  rw [Lexeme.holes_eq_count, Lexeme.tokens_scan_print h, count_tokensOf h.sound]

end Holes

namespace Query.PrintedIn

variable {q : Query} {parts : List (List (Ink (String × Param)))}

/-- A statement without an ending scans to the tokens of its parts. -/
theorem tokens_eq_parts (h : q.PrintedIn parts []) {sql : String} {cells : List Cell}
    (hbound : q.bound = .ok (sql, cells)) :
    (Lexeme.fill (Lexeme.scan sql.toList) cells).map Lexeme.token = partTokens parts :=
  (h.tokens_eq hbound).trans (List.append_nil _)

/-- There is a cell for each question mark of a statement that is bound. -/
theorem holes_eq {back : List (Ink (String × Param))} (h : q.PrintedIn parts back)
    {sql : String} {cells : List Cell} (hbound : q.bound = .ok (sql, cells)) :
    Lexeme.holes (Lexeme.scan sql.toList) = cells.length := by
  rw [h.eq_mk] at hbound
  obtain ⟨rfl, rfl⟩ := h.named_all.eq_of_bound hbound
  have hlegible := (h.named_all.legible.map Prod.snd).spreadAll h.named_all.noEmptyHole
  have hholes := holes_scan_print hlegible
  unfold Ink.question at hholes
  rw [positionalText, String.toList_ofList, ← print_spreadAll, hholes, holesOf_spreadAll, cellsOf,
    List.length_map]

/-- Cells hold the values of a statement that is bound. -/
theorem toCell_of_bound {back : List (Ink (String × Param))} (h : q.PrintedIn parts back)
    {sql : String} {cells : List Cell} (hbound : q.bound = .ok (sql, cells)) :
    ∀ b ∈ holesOf (spacedInks parts ++ back), ∀ v ∈ b.2.values, v.toCell = .ok v.cell := by
  rw [h.eq_mk] at hbound
  exact h.named_all.toCell_of_bound hbound

/-- A statement for whose values there are cells is executed. -/
theorem exists_bound {back : List (Ink (String × Param))} (h : q.PrintedIn parts back)
    (hcells : ∀ b ∈ holesOf (spacedInks parts ++ back), ∀ v ∈ b.2.values, v.toCell = .ok v.cell) :
    ∃ sql cells, q.bound = .ok (sql, cells) := by
  have hbindable : Bindable q.params (spacedInks parts ++ back) := ⟨h.named_all, hcells⟩
  rw [h.eq_mk]
  exact ⟨_, _, hbindable.bound_print⟩

end Query.PrintedIn

/-! ### Whole texts -/

/-- A text is read as a statement if its lexemes are, all of them, and if there are as many
cells as question marks. -/
theorem Sql.Statement.read_eq_ok_iff {sql : String} {cells : List Cell} {s : Statement} :
    Statement.read sql cells = .ok s ↔
      Parse.statement (Parse.depth (Lexeme.scan sql.toList).length)
          (Lexeme.fill (Lexeme.scan sql.toList) cells) = .ok (s, []) ∧
        Lexeme.holes (Lexeme.scan sql.toList) = cells.length := by
  unfold Statement.read Parse.whole
  dsimp only
  rw [bind_run]
  generalize Parse.statement _ _ = x
  rcases x with f | ⟨t, _ | ⟨l, rest⟩⟩
  · exact ⟨nofun, fun h => nomatch h.1⟩
  · have hrun : (do
        if (← peek).isSome then refuse else return t : Parse Statement) [] = .ok (t, []) := rfl
    rw [Test.ok_bind, hrun, Test.ok_bind]
    by_cases hholes : Lexeme.holes (Lexeme.scan sql.toList) = cells.length
    · simp [hholes, pure, Except.pure]
    · simp [hholes, bind, Except.bind]
  · refine ⟨fun h => ?_, fun h => by cases h.1⟩
    rw [Test.ok_bind] at h
    obtain ⟨x, hx, -⟩ := Test.bind_eq_ok h
    exact (refuse_ne_ok (l :: rest) x hx).elim

namespace Sql.Parse

variable {α β : Type} {ls out : List Lexeme} {ts us : List Token} {b : β}

/-! ### What is left to be read -/

/-- After what a reader covers, what follows it is read. -/
theorem Covers.cut {p : Parse α} {next : Option Token → Prop} {P : α → Prop} {f : α → Parse β}
    (hp : Covers p ts next P) (hls : ls.map Lexeme.token = ts ++ us) (hnext : next us.head?)
    (hb : (p >>= f) ls = .ok (b, out)) :
    ∃ a more, P a ∧ more.map Lexeme.token = us ∧ f a more = .ok (b, out) := by
  obtain ⟨first, more, rfl, hfirst, hmore⟩ := List.map_eq_append_iff.1 hls
  rw [bind_run] at hb
  obtain ⟨⟨a, middle⟩, ha, hrest⟩ := Test.bind_eq_ok hb
  have hhead : headToken more = us.head? := by
    rw [headToken, ← List.head?_map, hmore]
  obtain ⟨rfl, hP⟩ := hp first more middle a hfirst (hhead ▸ hnext) ha
  exact ⟨a, middle, hP, hmore, hrest⟩

section Keywords

variable {ks : List String} {w : String} {f : Bool → Parse β}

theorem cut_keyword (hw : Keyword.upper w ∈ ks) (hls : ls.map Lexeme.token = .word w :: us)
    (hb : (acceptAny ks >>= f) ls = .ok (b, out)) :
    ∃ more, more.map Lexeme.token = us ∧ f true more = .ok (b, out) := by
  obtain ⟨l, more, rfl, hl, hmore⟩ := List.map_eq_cons_iff.1 hls
  rw [bind_run] at hb
  rcases acceptAny_run ks (l :: more) with ⟨-, hrun⟩ | ⟨hnot, -⟩
  · rw [hrun] at hb
    exact ⟨more, hmore, hb⟩
  · exact absurd ⟨w, congrArg some hl, hw⟩ hnot

theorem pass_keyword (hw : Keyword.upper w ∉ ks) (hls : ls.map Lexeme.token = .word w :: us)
    (hb : (acceptAny ks >>= f) ls = .ok (b, out)) : f false ls = .ok (b, out) := by
  obtain ⟨l, more, rfl, hl, -⟩ := List.map_eq_cons_iff.1 hls
  rw [bind_run] at hb
  rcases acceptAny_run ks (l :: more) with ⟨⟨v, hv, hmem⟩, -⟩ | ⟨-, hrun⟩
  · have hsame : v = w := Token.word.inj (Option.some.inj (hv.symm.trans (congrArg some hl)))
    exact absurd (hsame ▸ hmem) hw
  · rw [hrun] at hb
    exact hb

end Keywords

/-- A word that is read as a name is not reserved. -/
theorem covers_freeName (w : String) {next : Option Token → Prop} :
    Covers name [.word w] next fun a => a = w ∧ Keyword.isReserved w = false := by
  refine .peeked fun l hl => ?_
  obtain ⟨token, written, offset⟩ := l
  obtain rfl : token = .word w := hl
  cases h : Keyword.isReserved w with
  | true =>
    simp only [h, if_true]
    exact .refuse
  | false =>
    simp only [h]
    exact .advanced (.pure ⟨rfl, trivial⟩)

theorem cut_update {table : String} {assigned : List Token} {fuel : Nat}
    {l : List (String × Term)} {s : Statement}
    (hassigned : Covers (separated (assignment fuel) fuel) assigned EndsAssignments (· = l))
    (hls : ls.map Lexeme.token = .word "UPDATE" :: .word table :: .word "SET" ::
      (assigned ++ .word "WHERE" :: ts))
    (hs : statement fuel ls = .ok (s, out)) :
    Keyword.isReserved table = false ∧ ∃ c more, more.map Lexeme.token = .word "WHERE" :: ts ∧
      condition more = .ok (c, out) ∧ s = .update table l c := by
  -- `SELECT` and `INSERT` are tried in front of `UPDATE`.
  have hs := pass_keyword (by decide) hls (pass_keyword (by decide) hls hs)
  obtain ⟨ls, hls, hs⟩ := cut_keyword (by decide) hls hs
  have hname : Covers name [.word table] (fun _ => True)
      fun a => a = table ∧ Keyword.isReserved table = false := covers_freeName table
  have hnamed : ls.map Lexeme.token =
      [.word table] ++ .word "SET" :: (assigned ++ .word "WHERE" :: ts) := hls
  obtain ⟨_, ls, ⟨rfl, hfree⟩, hls, hs⟩ := hname.cut hnamed trivial hs
  have hset : Covers (keywords ["SET"]) (["SET"].map Token.word) (fun _ => True) fun _ => True :=
    covers_keywords (by decide)
  obtain ⟨_, ls, -, hls, hs⟩ := hset.cut hls trivial hs
  obtain ⟨_, ls, rfl, hls, hs⟩ := hassigned.cut hls ⟨"WHERE", rfl, by decide⟩ hs
  rw [bind_run] at hs
  obtain ⟨⟨c, more⟩, hc, hs⟩ := Test.bind_eq_ok hs
  cases hs
  exact ⟨hfree, c, ls, hls, hc, rfl⟩

theorem cut_delete {table : String} {fuel : Nat} {s : Statement}
    (hls : ls.map Lexeme.token = .word "DELETE" :: .word "FROM" :: .word table ::
      .word "WHERE" :: ts)
    (hs : statement fuel ls = .ok (s, out)) :
    Keyword.isReserved table = false ∧ ∃ c more, more.map Lexeme.token = .word "WHERE" :: ts ∧
      condition more = .ok (c, out) ∧ s = .delete table c := by
  have hs := pass_keyword (by decide) hls (pass_keyword (by decide) hls
    (pass_keyword (by decide) hls hs))
  obtain ⟨ls, hls, hs⟩ := cut_keyword (by decide) hls hs
  have hfrom : Covers (keywords ["FROM"]) (["FROM"].map Token.word) (fun _ => True) fun _ => True :=
    covers_keywords (by decide)
  obtain ⟨_, ls, -, hls, hs⟩ := hfrom.cut hls trivial hs
  have hname : Covers name [.word table] (fun _ => True)
      fun a => a = table ∧ Keyword.isReserved table = false := covers_freeName table
  obtain ⟨_, ls, ⟨rfl, hfree⟩, hls, hs⟩ := hname.cut hls trivial hs
  rw [bind_run] at hs
  obtain ⟨⟨c, more⟩, hc, hs⟩ := Test.bind_eq_ok hs
  cases hs
  exact ⟨hfree, c, ls, hls, hc, rfl⟩

end Sql.Parse

/-! ### The statements of a filter -/

/-- The test is what the tokens of a clause are read as, at some place. -/
def Sql.Test.IsReadOf (t : Test) (ts : List Token) : Prop :=
  ∃ ls : List Lexeme, ls.map Lexeme.token = ts ∧ condition ls = .ok (some t, [])

section Statements

variable {rules : FilterRules} {v : ValidFilter rules} {options : CompileOptions} {table : Table}
  {q : Query} {sql : String} {cells : List Cell} {s : Statement}

/-- The tokens of the clause of a filter. -/
abbrev ValidFilter.clauseTokens (v : ValidFilter rules) (options : CompileOptions) : List Token :=
  .word "WHERE" :: (v.arranged options).tokens rules.fields

/-- What is written is bound by the statement. -/
theorem mem_holesOf_updateParts {written : List (String × Leaf)}
    {back : List (Ink (String × Param))} {entry : String × Leaf} (h : entry ∈ written) :
    (entry.1, .single entry.2.value) ∈
      holesOf (spacedInks (updateParts table written back) ++ []) := by
  rw [List.append_nil, spacedInks, holesOf_joinInks (by rfl)]
  refine List.mem_flatMap.2 ⟨assignmentsInks written, by simp [updateParts], ?_⟩
  rw [holesOf_assignmentsInks]
  exact List.mem_map.2 ⟨entry, h, rfl⟩

theorem partTokens_updateParts {written : List (String × Leaf)} {back : List (Ink (String × Param))}
    (hback : back.map (Ink.map Prod.snd) = (v.print options).map (Ink.map Prod.snd)) :
    partTokens (updateParts table written back) = .word "UPDATE" :: .word table.name ::
      .word "SET" :: (tokensOf Param.tokens ((assignmentsInks written).map (Ink.map Prod.snd)) ++
        v.clauseTokens options) := by
  simp only [partTokens, updateParts, List.flatMap_cons, List.flatMap_nil, List.append_nil, hback,
    v.tokens_print]
  rfl

theorem partTokens_deleteParts (table : Table) (v : ValidFilter rules) (options : CompileOptions) :
    partTokens (deleteParts table (v.print options)) = .word "DELETE" :: .word "FROM" ::
      .word table.name :: v.clauseTokens options := by
  simp only [partTokens, deleteParts, List.flatMap_cons, List.flatMap_nil, List.append_nil,
    v.tokens_print]
  rfl

theorem partTokens_countParts (table : Table) (v : ValidFilter rules) (options : CompileOptions) :
    partTokens (selectParts table countInks (v.print options)) = .word "SELECT" ::
      .word "COUNT" :: .mark "(" :: .mark "*" :: .mark ")" :: .word "FROM" :: .word table.name ::
        v.clauseTokens options := by
  simp only [partTokens, selectParts, List.flatMap_cons, List.flatMap_nil, List.append_nil,
    v.tokens_print]
  rfl

/-- A clause is read as a test. -/
theorem isReadOf_of_condition (hcrown : Filter.CrownPasses rules options.crown)
    {ls : List Lexeme} {c : Option Test} (hls : ls.map Lexeme.token = v.clauseTokens options)
    (hc : condition ls = .ok (c, [])) :
    ∃ t, c = some t ∧ t.IsReadOf (v.clauseTokens options) := by
  have hends : EndsCondition (headToken []) := .inl rfl
  have hrun : condition (ls ++ []) = .ok (c, []) := by rw [List.append_nil, hc]
  obtain ⟨-, t, rfl, -⟩ := covers_condition (v.rulesPass hcrown) ls [] [] c hls hends hrun
  exact ⟨t, rfl, ls, hls, hc⟩

/-- **What an `UPDATE` is read as**: it assigns what is written, and the time, where the
clause of its filter holds. -/
theorem exists_update_read (hnames : rules.HasFieldPaths)
    (hname : isBareName table.name.toList = true)
    (hcolumns : ∀ c ∈ table.columns.columns, isBareName c.name.toList = true)
    (hcrown : Filter.CrownPasses rules options.crown) {record : Record} {policy : UpdatePolicy}
    {set : SetClause} (hset : record.setClause policy = .ok set)
    (hq : set.query table (some (v.compiled options)) = .ok q)
    (hbound : q.bound = .ok (sql, cells)) (hs : Statement.read sql cells = .ok s) :
    Keyword.isReserved table.name = false ∧ ∃ flat t, record.flatten = .ok flat ∧
      (∀ entry ∈ policy.written flat, entry.2.value.toCell = .ok entry.2.value.cell) ∧
      s = .update table.name (assignedTerms (policy.written flat)) (some t) ∧
      t.IsReadOf (v.clauseTokens options) := by
  obtain ⟨flat, back, hflat, hparts, hsame⟩ :=
    exists_updateParts hnames hname hcolumns hcrown hset hq
  have htokens := (hparts.tokens_eq_parts hbound).trans (partTokens_updateParts hsame)
  obtain ⟨hfree, c, ls, hls, hc, rfl⟩ :=
    cut_update (covers_assignmentsInks (policy.written flat) _) htokens
      (Statement.read_eq_ok_iff.1 hs).1
  obtain ⟨t, rfl, ht⟩ := isReadOf_of_condition hcrown hls hc
  refine ⟨hfree, flat, t, hflat, fun entry hentry => ?_, rfl, ht⟩
  exact hparts.toCell_of_bound hbound (entry.1, .single entry.2.value)
    (mem_holesOf_updateParts hentry) entry.2.value (List.mem_singleton.2 rfl)

/-- **What a `DELETE` is read as.** -/
theorem exists_delete_read (hnames : rules.HasFieldPaths)
    (hname : isBareName table.name.toList = true)
    (hcrown : Filter.CrownPasses rules options.crown)
    (hq : table.deleteQuery (some (v.compiled options)) = .ok q)
    (hbound : q.bound = .ok (sql, cells)) (hs : Statement.read sql cells = .ok s) :
    Keyword.isReserved table.name = false ∧ ∃ t, s = .delete table.name (some t) ∧
      t.IsReadOf (v.clauseTokens options) := by
  have hparts := printedIn_deleteParts hnames hname hcrown hq
  have htokens := (hparts.tokens_eq_parts hbound).trans (partTokens_deleteParts table v options)
  obtain ⟨hfree, c, ls, hls, hc, rfl⟩ := cut_delete htokens (Statement.read_eq_ok_iff.1 hs).1
  obtain ⟨t, rfl, ht⟩ := isReadOf_of_condition hcrown hls hc
  exact ⟨hfree, t, rfl, ht⟩

/-- The query for the number of rows of a table, and what the database reads of it. -/
def countStatement (table : String) (t : Test) : SelectStatement where
  outputs := [.count "COUNT(*)"]
  table := some table
  condition := some t
  sorting := none
  window := none

/-- **The query that counts the rows of a filter is executed and read**, with the condition
of any other statement of the filter but for its places. -/
theorem exists_count_read (hnames : rules.HasFieldPaths)
    (hname : isBareName table.name.toList = true)
    (hcrown : Filter.CrownPasses rules options.crown)
    (hfree : Keyword.isReserved table.name = false) {t : Test}
    (ht : t.IsReadOf (v.clauseTokens options))
    (hq : q = ⟨"SELECT COUNT(*) FROM " ++ table.name ++ " " ++ (v.compiled options).sql,
      (v.compiled options).params⟩) :
    ∃ sql cells u, q.bound = .ok (sql, cells) ∧
      Statement.read sql cells = .ok (.select (countStatement table.name u)) ∧
      t.unplaced = u.unplaced := by
  have hclause := v.bindable_print hnames hcrown
  have hsql : (v.compiled options).sql = namedText (v.print options) := rfl
  have hparts := printedIn_selectParts hname outputsPrint_count hsql hclause.toNamed .nothing
  have htext : "SELECT " ++ "COUNT(*)" ++ " FROM " = "SELECT COUNT(*) FROM " := rfl
  rw [htext, String.append_empty, ← hq] at hparts
  -- All that is bound is what the clause holds.
  have hholes : holesOf (spacedInks (selectParts table countInks (v.print options)) ++ []) =
      holesOf (v.print options) := by
    rw [List.append_nil, spacedInks, holesOf_joinInks (by rfl)]
    simp only [selectParts, List.flatMap_cons, List.flatMap_nil, List.append_nil]
    rfl
  obtain ⟨sql, cells, hbound⟩ := hparts.exists_bound fun b hb => by
    rw [hholes] at hb
    exact hclause.cells b hb
  have htokens := (hparts.tokens_eq_parts hbound).trans (partTokens_countParts table v options)
  -- Wherever the tokens of the clause stand, they are read as the test that they were.
  obtain ⟨ls, hls, hc⟩ := ht
  have hagain : Reads condition (v.clauseTokens options) (· = none)
      (Option.Rel SameTest (some t)) := by
    refine reads_of_whole fun more hmore => ?_
    obtain ⟨c, rest, hread, hsame, hrest⟩ :=
      follows_condition ls more [] (some t) (hls.trans hmore.symm) hc
    obtain rfl := List.map_eq_nil_iff.1 hrest.symm
    exact ⟨c, hread, hsame⟩
  obtain ⟨_, hstatement, _, c, rfl, rfl, hsame⟩ :=
    (reads_plainSelect reads_count hfree hagain).whole htokens
  cases hsame with
  | @some t u htu =>
    exact ⟨sql, cells, u, hbound,
      Statement.read_eq_ok_iff.2 ⟨hstatement, hparts.holes_eq hbound⟩, htu⟩

end Statements

end ResourceTable
