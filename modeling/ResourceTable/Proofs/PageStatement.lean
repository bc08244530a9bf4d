import ResourceTable.Proofs.AcceptedRequest
import ResourceTable.Proofs.CrownedStatement
import ResourceTable.Proofs.FilterTest
import ResourceTable.Proofs.SameCondition

/-!
# The statements of list requests

A list request that is accepted is executed as a query.  If the names that it uses are
read as columns, the database reads the query as what the request asks for: the columns
that are shown, of the rows that the crowned filter tests, in the order and the window of
the page, or the number of all of them.

## Main definitions

* `Access.HasColumnNames`: the names of an access are read as columns.
* `ListRequest.IsRead`: what the query of a page is read as.

## Main results

* `Rule.Passed.place_fst` — a rule looks at the column that its field begins with.
* `Access.exists_page_read` — **the query of a page is executed and read.**
* `Access.exists_total_read` — **so is that of a count.**
-/

namespace ResourceTable

open Sql Sql.Parse

/-! ### Fields and their columns -/

/-- The column that a field begins with. -/
def columnOf (field : String) : String := String.ofList (field.toList.takeWhile (· != '.'))

theorem takeWhile_append_mark {mark : Char} (a b : List Char) :
    (a ++ mark :: b).takeWhile (· != mark) = a.takeWhile (· != mark) := by
  induction a with
  | nil => exact List.takeWhile_cons_of_neg (by simp)
  | cons c rest ih =>
    rw [List.cons_append, List.takeWhile_cons, List.takeWhile_cons, ih]

theorem takeWhile_of_notMem {mark : Char} {a : List Char} (h : mark ∉ a) :
    a.takeWhile (· != mark) = a :=
  List.takeWhile_eq_self_iff.2 fun _ hc => bne_iff_ne.2 fun he => h (he ▸ hc)

/-- **A rule looks at the column that its field begins with.** -/
theorem Rule.Passed.place_fst {rules : FilterRules} {r : Rule} {type : ColumnType}
    (h : Passed rules r type) : r.place.1 = columnOf r.field := by
  cases hop : r.op.isJson with
  | false =>
    rw [place_of_column hop, columnOf, takeWhile_of_notMem (h.column hop), String.ofList_toList]
  | true =>
    cases hcut : cutAtMark '.' r.fullField.toList with
    | none => exact absurd (h.dot_mem_fullField hop) (cutAtMark_eq_none_iff.1 hcut)
    | some p =>
      obtain ⟨column, keys⟩ := p
      obtain ⟨hsplit, hdot⟩ := cutAtMark_eq_some hcut
      have hfull : r.fullField.toList.takeWhile (· != '.') = column := by
        rw [hsplit, takeWhile_append_mark, takeWhile_of_notMem hdot]
      -- A key behind the field changes nothing in front of its first mark.
      have hfield : r.field.toList.takeWhile (· != '.') =
          r.fullField.toList.takeWhile (· != '.') := by
        cases hkey : r.op.checksKey with
        | true =>
          obtain ⟨key, hoperand, -⟩ := h.key hkey
          have hjoined : r.fullField.toList = r.field.toList ++ '.' :: key.toList := by
            rw [fullField_of_key hkey hoperand, String.toList_append, String.toList_append,
              List.append_assoc]
            rfl
          rw [hjoined, takeWhile_append_mark]
        | false => rw [fullField_of_not_checksKey hkey]
      rw [place_of_path (documentPath_of_cut hcut) hop, columnOf, hfield, hfull]

namespace Filter

variable {rules : FilterRules} {f : Filter}

/-- What holds of the columns that fields begin with holds of those that a filter looks
at. -/
theorem forall_place_of_rulesPass {P : String → Prop} (h : f.RulesPass rules)
    (hfields : ∀ field ∈ rules.fields.keys, P (columnOf field)) : ∀ r ∈ f.rules, P r.place.1 := by
  intro r hr
  obtain ⟨type, hpassed⟩ := Rule.passed_of_check (h r hr)
  rw [hpassed.place_fst]
  refine hfields r.field (NameMap.contains_iff_mem_keys.1 ?_)
  rw [NameMap.contains, hpassed.known]
  rfl

end Filter

/-! ### What is read -/

namespace Access

variable {r : Resource} {a : Access r} {request : ListRequest} {v : ValidFilter a.rules}

/-- The names of an access are read as columns: those of its columns and those that fields
begin with are no keywords, and neither is the name of its table. -/
structure HasColumnNames (a : Access r) : Prop extends a.IsPlain where
  free : Keyword.isReserved r.table.name = false
  names : ∀ c ∈ r.table.columns.columns, Parse.IsPlain c.name
  words : ∀ field ∈ a.rules.fields.keys, IsColumnWord (columnOf field)

end Access

/-- What the query of a page is read as. -/
structure ListRequest.IsRead {r : Resource} (request : ListRequest) (a : Access r) (f : Filter)
    (s : SelectStatement) : Prop where
  /-- It gives the columns that are shown. -/
  outputs : List.Forall₂ Column.IsOutput (r.table.columns.shown request.fields) s.outputs
  /-- They are those of the table. -/
  table : s.table = some r.table.name
  /-- The rows are those that the filter tests. -/
  condition : ∃ t, s.condition = some t ∧ SameTest t (f.asTest a.rules.fields)
  /-- They come in the order of the page. -/
  sorting : ∃ offset, s.sorting =
    some ⟨.term (.column (request.page.sortOf a.pages) offset), request.page.order == .descending⟩
  /-- So many are given, from its start. -/
  window : s.window = some (request.page.limit.val.toNat, request.page.start.val.toNat)

section Tokens

variable {rules : FilterRules} {v : ValidFilter rules} {options : CompileOptions}

theorem partTokens_columnParts (table : Table) (cs : List Column) (v : ValidFilter rules)
    (options : CompileOptions) :
    partTokens (selectParts table (commaInks (cs.map Column.inks)) (v.print options)) =
      .word "SELECT" :: (joinedTokens (.mark ",") columnTokens cs ++
        ([.word "FROM", .word table.name] ++ v.clauseTokens options)) := by
  have hcolumns : tokensOf Param.tokens
      ((commaInks (cs.map Column.inks) : List (Ink (String × Param))).map (Ink.map Prod.snd)) =
        joinedTokens (.mark ",") columnTokens cs := by
    rw [commaInks, map_joinInks, List.map_map]
    refine (tokensOf_commaInks _ _).trans ((joinedTokens_map _ _ _ _).trans ?_)
    refine congrArg (joinedTokens (.mark ",") · cs) (funext fun c => ?_)
    exact tokensOf_inks c
  simp only [partTokens, selectParts, List.flatMap_cons, List.flatMap_nil, List.append_nil,
    hcolumns, v.tokens_print]
  rfl

theorem tokensOf_pageInks {rules : PageRules} {p : Page}
    (h : isBareName (p.sortOf rules).toList = true) :
    tokensOf Param.tokens ((Ink.blank :: p.inks rules).map (Ink.map Prod.snd)) =
      [.word "ORDER", .word "BY", .word (p.sortOf rules), .word p.order.keyword] ++
        [.word "LIMIT", .number (String.ofList (Nat.toDigits 10 p.limit.val.toNat)),
          .word "OFFSET", .number (String.ofList (Nat.toDigits 10 p.start.val.toNat))] := by
  have hdigits (n : FixedInt .u32) : toString n.val = String.ofList (Nat.toDigits 10 n.val.toNat) := by
    obtain ⟨m, hm⟩ := Int.eq_ofNat_of_zero_le n.holds.1
    rw [hm]
    rfl
  have hname : (nameInk (p.sort?.getD rules.defaultSort) : Ink (String × Param)) =
      .word (p.sortOf rules) := if_pos h
  rw [Page.inks, hdigits, hdigits, hname]
  rfl

end Tokens

theorem Sql.Lexeme.length_fill (ls : List Lexeme) (cells : List Cell) :
    (Lexeme.fill ls cells).length = ls.length := by
  induction ls generalizing cells with
  | nil => rfl
  | cons l rest ih =>
    rw [fill]
    split
    · rw [List.length_cons, List.length_cons, ih]
    · rw [List.length_cons, List.length_cons, ih]

theorem isIdentifier_of_isBareName {cs : List Char} (h : isBareName cs = true) :
    isIdentifier cs = true := by
  cases cs with
  | nil => cases h
  | cons c rest =>
    obtain ⟨hc, hrest⟩ := isBareName_cons.1 h
    refine isIdentifier_iff.2 ⟨List.cons_ne_nil _ _, List.forall_mem_cons.2 ⟨?_, hrest⟩⟩
    exact isNamePart_of_isNameStart hc

namespace Access

variable {r : Resource} {a : Access r} {request : ListRequest} {v : ValidFilter a.rules}

/-- The clause of an accepted filter is read as the test of the crowned filter. -/
theorem HasColumnNames.reads_clause (hnames : a.HasColumnNames)
    (hcrown : Filter.CrownPasses a.rules a.options.crown) :
    Reads condition (v.clauseTokens a.options) EndsCondition
      fun c => ∃ t, c = some t ∧ SameTest t ((v.arranged a.options).asTest a.rules.fields) :=
  Filter.reads_condition (v.rulesPass hcrown)
    (Filter.forall_place_of_rulesPass (v.rulesPass hcrown) hnames.words)

/-- **The query of a page is executed and read**, as what the request asks for. -/
theorem exists_page_read (hnames : a.HasColumnNames)
    (hcrown : Filter.CrownPasses a.rules a.options.crown)
    (hvalid : request.validate a.rules a.pages = .ok v) (hcount : request.page.count = false)
    (hshown : r.table.columns.shown request.fields ≠ [])
    (hsort : request.page.sortOf a.pages ∈ r.table.columns.names) :
    ∃ q sql cells select, a.listQuery request = .ok q ∧ q.bound = .ok (sql, cells) ∧
      Statement.read sql cells = .ok (.select select) ∧
      request.IsRead a (v.arranged a.options) select := by
  obtain ⟨key, hkey, hname⟩ := List.mem_map.1 hsort
  have hbare : isBareName (request.page.sortOf a.pages).toList = true :=
    hname ▸ (hnames.table.columns key hkey).1
  have hident := isIdentifier_of_isBareName hbare
  have hplain : Parse.IsPlain (request.page.sortOf a.pages) := hname ▸ hnames.names key hkey
  have hmem : ∀ c ∈ r.table.columns.shown request.fields, c ∈ r.table.columns.columns :=
    fun c => Registry.mem_columns_of_shown
  -- The statement, and its parts in print.
  have htext : String.intercalate ", " ((r.table.columns.shown request.fields).map
      Column.projected) ≠ "" := by
    obtain ⟨c, rest, hcons⟩ := List.exists_cons_of_ne_nil hshown
    rw [hcons]
    refine intercalate_cons_ne_empty (Column.projected_ne_empty fun hempty => ?_) _
    have hc := (hnames.table.columns c (hmem c (hcons ▸ List.mem_cons_self))).1
    rw [hempty] at hc
    cases hc
  have hquery := listQuery_eq hvalid (v.compile_eq hcrown) rfl
  rw [hcount, if_neg Bool.false_ne_true, if_neg htext, if_pos hident] at hquery
  have hclause := v.bindable_print hnames.fields hcrown
  have hsql : (v.compiled a.options).sql = namedText (v.print a.options) := rfl
  have hparts := printedIn_selectParts hnames.table.name
    (outputsPrint_columns hshown fun c hc => hnames.table.columns c (hmem c hc)) hsql
    hclause.toNamed (endPrint_page hident)
  have hspaced := Page.spaced_ending a.pages request.page
  rw [Page.ending, Page.sortOf] at hspaced
  rw [hspaced, ← String.append_assoc] at hparts
  -- All that is bound is what the clause holds.
  have hholes : holesOf (spacedInks (selectParts r.table
      (commaInks ((r.table.columns.shown request.fields).map Column.inks)) (v.print a.options)) ++
      .blank :: request.page.inks a.pages) = holesOf (v.print a.options) := by
    have hback : holesOf ((.blank : Ink (String × Param)) :: request.page.inks a.pages) = [] :=
      holesOf_pageInks a.pages request.page
    have hcolumn (c : Column) : holesOf (c.inks : List (Ink (String × Param))) = [] := by
      unfold Column.inks
      split <;> rfl
    have houts : holesOf (commaInks ((r.table.columns.shown request.fields).map Column.inks) :
        List (Ink (String × Param))) = [] := by
      rw [commaInks, holesOf_joinInks (by rfl), List.flatMap_map]
      exact List.flatMap_eq_nil_iff.2 fun c _ => hcolumn c
    rw [holesOf_append, hback, List.append_nil, spacedInks, holesOf_joinInks (by rfl)]
    simp only [selectParts, List.flatMap_cons, List.flatMap_nil, List.append_nil, houts]
    rfl
  obtain ⟨sql, cells, hbound⟩ := hparts.exists_bound fun b hb => by
    rw [hholes] at hb
    exact hclause.cells b hb
  have htokens := hparts.tokens_eq hbound
  rw [partTokens_columnParts, tokensOf_pageInks hbare] at htokens
  -- The parts are read one after the other; there are no more columns than lexemes.
  have hlexemes : (r.table.columns.shown request.fields).length ≤
      Parse.depth (Lexeme.scan sql.toList).length := by
    have hcolumns := length_le_joinedTokens (.mark ",") columnTokens
      (r.table.columns.shown request.fields)
    have hall := congrArg List.length htokens
    simp only [List.length_map, List.length_append, List.length_cons, Lexeme.length_fill] at hall
    unfold Parse.depth
    omega
  have hsmall (n : FixedInt .u32) : n.val.toNat < 2 ^ 63 := by
    have hle : n.val ≤ 2 ^ 32 - 1 := n.holds.2
    omega
  have hread := reads_select
    (reads_outputs hshown (fun c hc => hnames.names c (hmem c hc)) hlexemes) hnames.free
    (hnames.reads_clause (v := v) hcrown) (reads_sorting hplain request.page.order)
    (reads_window (hsmall request.page.limit) (hsmall request.page.start))
    (.inr (.inr ⟨"ORDER", rfl, by decide⟩)) ⟨"LIMIT", rfl, by decide⟩
  obtain ⟨_, hstatement, outputs, c, sorting, window, rfl, houtputs, hcondition, hsorting,
    hwindow⟩ := hread.whole (htokens.trans (by simp only [List.cons_append, List.append_assoc]))
  refine ⟨_, sql, cells, _, hquery, hbound,
    Statement.read_eq_ok_iff.2 ⟨hstatement, hparts.holes_eq hbound⟩, ?_⟩
  exact ⟨houtputs, rfl, hcondition, hsorting, hwindow⟩

/-- **The query of a count is executed and read**, whatever else its page asks for. -/
theorem exists_total_read (hnames : a.HasColumnNames)
    (hcrown : Filter.CrownPasses a.rules a.options.crown)
    (hvalid : request.validate a.rules a.pages = .ok v) (hcount : request.page.count = true) :
    ∃ q sql cells u, a.listQuery request = .ok q ∧ q.bound = .ok (sql, cells) ∧
      Statement.read sql cells = .ok (.select (countStatement r.table.name u)) ∧
      SameTest u ((v.arranged a.options).asTest a.rules.fields) := by
  have hquery := listQuery_eq hvalid (v.compile_eq hcrown) rfl
  rw [hcount, if_pos rfl] at hquery
  -- The tokens of the clause are read as a test, wherever they stand.
  let ls : List Lexeme := (v.clauseTokens a.options).map fun t => ⟨t, "", 0⟩
  have hls : ls.map Lexeme.token = v.clauseTokens a.options := by
    rw [List.map_map]
    exact List.map_id _
  obtain ⟨_, hread, t, rfl, ht⟩ :=
    ((hnames.reads_clause hcrown).mono (fun _ hend => .inl hend) fun _ hc => hc).whole hls
  obtain ⟨sql, cells, u, hbound, hstatement, htu⟩ := exists_count_read hnames.fields
    hnames.table.name hcrown hnames.free ⟨ls, hls, hread⟩ rfl
  exact ⟨_, sql, cells, u, hquery, hbound, hstatement, htu.symm.trans ht⟩

end Access

end ResourceTable
