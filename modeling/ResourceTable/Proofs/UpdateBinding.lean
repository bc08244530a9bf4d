import ResourceTable.Proofs.MatchAll
import ResourceTable.Proofs.StatementPrint

/-!
# Binding an `UPDATE`

An `UPDATE` joins two texts whose placeholders were named apart from each other: the
assignments, whose placeholders are the columns, and the clause of a filter.  The clause
gives up the names of the columns, so that no parameter of one part replaces one of the
other, and what is bound to the statement is what is bound to the assignments and then
what is bound to the clause.

What stands before them is any text, such as the name of a table, in which nothing is
replaced and after which nothing is quoted.

## Main definitions

* `Placeholder.IsInert`: texts that a statement can begin with.
* `Query.ledBy`: a query with a text before it.
* `SetClause.assignments`: the query of assignments on their own.
* `SetClause.UpdatePrint`: the two parts in print.
* `Query.JoinsApart`: a statement that keeps two queries apart.

## Main results

* `setClause_eq` — what is assigned.
* `exists_updatePrint` — both parts are legible under the parameters of the statement.
* `UpdatePrint.joinsApart` — **a statement of the two parts keeps them apart.**
* `update_binds_apart` — **an `UPDATE` binds what is assigned, then what its filter
  compares with.**
-/

namespace ResourceTable

/-! ### Text before a query -/

namespace Piece

/-- What is pending in a state, as text. -/
def pending (s : Scan) : List Char := s.flush.flatMap (chars fun _ => none)

/-- Where nothing is replaced, a character adds itself to what is pending. -/
theorem pending_step (s : Scan) (c : Char) :
    (s.step c).1.flatMap (chars fun _ => none) ++ pending (s.step c).2 =
      pending s ++ [c] := by
  have henter : (Scan.enter c).1.flatMap (chars fun _ => none) ++
      pending (Scan.enter c).2 = [c] := by
    unfold Scan.enter
    split
    · rfl
    · split
      · next hcolon =>
        rw [hcolon]
        rfl
      · rfl
  -- What was held back comes out as it was read, and the character starts afresh.
  have hended (t : Scan) :
      (t.flush ++ (Scan.enter c).1).flatMap (chars fun _ => none) ++
        pending (Scan.enter c).2 = pending t ++ [c] := by
    rw [List.flatMap_append, List.append_assoc, henter, pending]
  cases s with
  | plain => exact henter
  | quoted quote =>
    rw [Scan.step]
    dsimp only
    split <;> rfl
  | colon =>
    rw [Scan.step]
    split
    · show ':' :: (String.ofList [c]).toList ++ [] = _
      rw [String.toList_ofList]
      rfl
    · exact hended .colon
  | name seen =>
    rw [Scan.step]
    split
    · show ':' :: (String.ofList (c :: seen).reverse).toList ++ [] =
        (':' :: (String.ofList seen.reverse).toList ++ []) ++ [c]
      simp only [String.toList_ofList, List.reverse_cons, List.append_nil]
      rfl
    · exact hended (.name seen)

theorem output_none (s : Scan) (cs : List Char) :
    output (fun _ => none) s cs = pending s ++ cs := by
  induction cs generalizing s with
  | nil => exact (List.append_nil _).symm
  | cons c rest ih =>
    have hstep : output (fun _ => none) s (c :: rest) =
        (s.step c).1.flatMap (chars fun _ => none) ++
          output (fun _ => none) (s.step c).2 rest := by
      rw [output, output, ← List.flatMap_append]
      simp only [scanFrom, completed, after, List.append_assoc]
    rw [hstep, ih, ← List.append_assoc, pending_step, List.append_assoc]
    rfl

end Piece

namespace Placeholder

/-- A text that a statement can begin with: it holds no placeholders, and leaves no quote
open. -/
structure IsInert (text : String) : Prop where
  /-- Nothing is replaced in the text. -/
  names : names text = []
  /-- What follows the text is not quoted. -/
  closed : (Piece.after .plain text.toList).settled = .plain

instance (text : String) : Decidable (IsInert text) :=
  decidable_of_iff (names text = [] ∧ (Piece.after .plain text.toList).settled = .plain)
    ⟨fun h => ⟨h.1, h.2⟩, fun h => ⟨h.names, h.closed⟩⟩

/-- Without placeholders nothing is replaced. -/
theorem substitute_of_names_eq_nil {text : String} (h : names text = [])
    (replace : String → Option String) : substitute replace text = text := by
  have hchars : ∀ p ∈ Piece.scan text.toList, p.chars replace = p.chars fun _ => none := by
    intro p hp
    cases p with
    | char c => rfl
    | placeholder name =>
      have hname : name ∈ names text := List.mem_filterMap.2 ⟨_, hp, rfl⟩
      rw [h] at hname
      cases hname
  rw [substitute, List.flatMap_congr hchars, ← String.toList_inj, String.toList_ofList]
  exact Piece.output_none .plain text.toList

section Blank

variable {front : String}

theorem toList_append_blank (front back : String) :
    (front ++ " " ++ back).toList = front.toList ++ ' ' :: back.toList := by
  rw [String.toList_append, String.toList_append, List.append_assoc]
  rfl

/-- A blank ends what is pending, and outside of quotes nothing is left of it. -/
theorem step_blank (h : (Piece.after .plain front.toList).settled = .plain) :
    (Piece.after .plain front.toList).step ' ' =
      ((Piece.after .plain front.toList).flush ++ [.char ' '], .plain) := by
  have hproper : (Piece.after .plain front.toList).IsProper :=
    Piece.isProper_after (s := .plain) trivial _
  rw [Piece.step_settles hproper (by decide) (by decide), h]

theorem scan_append_blank (h : (Piece.after .plain front.toList).settled = .plain)
    (back : String) :
    Piece.scan (front ++ " " ++ back).toList =
      Piece.scan front.toList ++ .char ' ' :: Piece.scan back.toList := by
  rw [toList_append_blank, Piece.scan, Piece.scanFrom_append, Piece.scanFrom, Piece.completed,
    Piece.after, step_blank h]
  simp only [Piece.scan, Piece.scanFrom, List.append_assoc, List.cons_append, List.nil_append]

theorem names_append_blank (h : (Piece.after .plain front.toList).settled = .plain)
    (back : String) : names (front ++ " " ++ back) = names front ++ names back := by
  rw [names, scan_append_blank h, List.filterMap_append]
  rfl

theorem substitute_append_blank (h : (Piece.after .plain front.toList).settled = .plain)
    (back : String) (replace : String → Option String) :
    substitute replace (front ++ " " ++ back) =
      substitute replace front ++ " " ++ substitute replace back := by
  have hproper : Piece.Scan.IsProper .plain := trivial
  have houtput := Piece.output_append replace hproper front.toList back.toList (d := ' ') (k := [])
    (by decide) (List.all_eq_true.1 (by decide))
  rw [h] at houtput
  rw [← String.toList_inj, toList_append_blank, substitute, toList_append_blank,
    String.toList_ofList, substitute, substitute, String.toList_ofList, String.toList_ofList]
  exact houtput

theorem IsInert.append_blank {back : String} (hfront : IsInert front) (hback : IsInert back) :
    IsInert (front ++ " " ++ back) := by
  refine ⟨?_, ?_⟩
  · rw [names_append_blank hfront.closed, hfront.names, hback.names]
    rfl
  · rw [toList_append_blank, Piece.after_append, Piece.after, step_blank hfront.closed]
    exact hback.closed

end Blank

end Placeholder

namespace Query

/-- A query with a text before it. -/
def ledBy (q : Query) (front : String) : Query := ⟨front ++ " " ++ q.sql, q.params⟩

section LedBy

variable {front : String} (q : Query)

theorem placeholders_ledBy (h : Placeholder.IsInert front) :
    (q.ledBy front).placeholders = q.placeholders := by
  rw [placeholders, ledBy, Placeholder.names_append_blank h.closed, h.names]
  rfl

theorem unbound?_ledBy (h : Placeholder.IsInert front) :
    (q.ledBy front).unbound? = q.unbound? := by
  rw [unbound?, q.placeholders_ledBy h]
  rfl

theorem values_ledBy (h : Placeholder.IsInert front) : (q.ledBy front).values = q.values := by
  rw [values, q.placeholders_ledBy h]
  rfl

theorem positional_ledBy (h : Placeholder.IsInert front) :
    (q.ledBy front).positional = front ++ " " ++ q.positional := by
  rw [positional, ledBy, Placeholder.substitute_append_blank h.closed,
    Placeholder.substitute_of_names_eq_nil h.names]
  rfl

end LedBy

/-- A statement that keeps two queries apart: after a text it is the one and then the
other, and what is bound to its placeholders is what each of the two binds to its own. -/
structure JoinsApart (front : String) (first second q : Query) : Prop where
  /-- The text is that of the two queries. -/
  positional : q.positional = front ++ " " ++ first.positional ++ " " ++ second.positional
  /-- Every placeholder is bound. -/
  unbound : q.unbound? = none
  /-- The placeholders of the second query have other names than those of the first one,
  and every placeholder is bound to what its own query binds to it. -/
  apart : ∃ others : List String, q.placeholders = first.placeholders ++ others ∧
    others.Disjoint first.placeholders ∧
    first.placeholders.map q.param = first.placeholders.map first.param ∧
    others.map q.param = second.placeholders.map second.param

/-- Without an unbound placeholder a query is executed if there are cells. -/
theorem bound_of_isStorable {q : Query} (h : q.unbound? = none)
    (hvalues : ∀ v ∈ q.values, v.isStorable = true) :
    q.bound = .ok (q.positional, q.values.map Value.cell) := by
  rw [bound, h]
  simp only [mapM_toCell fun v hv => Value.toCell_of_isStorable (hvalues v hv)]
  rfl

namespace JoinsApart

variable {front : String} {first second q : Query}

theorem params_eq (h : JoinsApart front first second q) :
    q.placeholders.map q.param =
      first.placeholders.map first.param ++ second.placeholders.map second.param := by
  obtain ⟨others, hall, -, hfirst, hsecond⟩ := h.apart
  rw [hall, List.map_append, hfirst, hsecond]

/-- The values are those of the one query, then those of the other. -/
theorem values_eq (h : JoinsApart front first second q) :
    q.values = first.values ++ second.values := by
  rw [values_eq_flatMap, h.params_eq, List.flatMap_append, ← values_eq_flatMap,
    ← values_eq_flatMap]

/-- **A statement that keeps two queries apart is executed as the two.** -/
theorem exists_bound (h : JoinsApart front first second q)
    (hvalues : ∀ v ∈ q.values, v.isStorable = true) : ∃ text more cells others,
      first.bound = .ok (text, cells) ∧ second.bound = .ok (more, others) ∧
      q.bound = .ok (front ++ " " ++ text ++ " " ++ more, cells ++ others) := by
  have hall := unbound?_eq_none_iff.1 h.unbound
  rw [h.params_eq] at hall
  obtain ⟨hfirst, hsecond⟩ := List.forall_mem_append.1 hall
  have hbound := bound_of_isStorable h.unbound hvalues
  rw [h.values_eq] at hvalues
  obtain ⟨hvalues₁, hvalues₂⟩ := List.forall_mem_append.1 hvalues
  refine ⟨_, _, _, _, bound_of_isStorable (unbound?_eq_none_iff.2 hfirst) hvalues₁,
    bound_of_isStorable (unbound?_eq_none_iff.2 hsecond) hvalues₂, ?_⟩
  rw [hbound, h.positional, h.values_eq, List.map_append]

end JoinsApart

end Query

/-! ### The parts of an `UPDATE` -/

namespace SetClause

/-- The query of assignments on their own. -/
def assignments (s : SetClause) : Query := ⟨s.sql, s.params⟩

/-- What is bound by an `UPDATE` around a clause. -/
def joinedParams (s : SetClause) (c : Clause) : Params :=
  s.params.union (c.avoiding s.params.keys).params

end SetClause

section Parts

variable {table : Table} {set : SetClause} {record : Record} {policy : UpdatePolicy}

/-- The assignments of a record, to columns that occur once. -/
theorem setClause_eq (h : record.setClause policy = .ok set) :
    ∃ flat, record.flatten = .ok flat ∧
      ((policy.written flat).map Prod.fst).Nodup ∧
      set.columns = (policy.written flat).map Prod.fst ∧
      set.sql = "SET " ++ namedText (assignmentsInks (policy.written flat)) ∧
      set.params =
        .ofList ((policy.written flat).map fun entry => (entry.1, .single entry.2.value)) := by
  unfold Record.setClause at h
  cases hflat : record.flatten with
  | error e => rw [hflat] at h; cases h
  | ok flat =>
    rw [hflat] at h
    refine ⟨flat, rfl, ?_, ?_⟩
    · exact flat.nodup_keys.sublist (List.filter_sublist.map Prod.fst)
    · simp only [bind, Except.bind] at h
      split at h
      · cases h
      · obtain rfl := Except.ok.inj h
        rw [print_assignmentsInks]
        exact ⟨rfl, rfl, rfl⟩

theorem isBareName_of_checkColumns
    (hcolumns : ∀ c ∈ table.columns.columns, isBareName c.name.toList = true)
    (h : set.checkColumns table = .ok ()) : ∀ column ∈ set.columns,
      isBareName column.toList = true := by
  intro column hcolumn
  unfold SetClause.checkColumns at h
  split at h
  · cases h
  · next hknown =>
    have hsome := List.find?_eq_none.1 hknown column hcolumn
    rw [Bool.not_eq_true', Bool.not_eq_false, Registry.contains, Option.isSome_iff_exists] at hsome
    obtain ⟨c, hc⟩ := hsome
    have hname := List.find?_some hc
    rw [← eq_of_beq hname]
    exact hcolumns c (List.mem_of_find?_eq_some hc)

namespace SetClause

/-- The two parts of an `UPDATE` in print: what is assigned, and a clause with names that
are apart from the columns. -/
structure UpdatePrint (set : SetClause) (clause : Clause) (written : List (String × Leaf))
    (is back : List (Ink (String × Param))) : Prop where
  /-- The text of the assignments. -/
  text : set.sql = "SET " ++ namedText (assignmentsInks written)
  /-- The assignments are legible on their own, -/
  alone : Named set.params (assignmentsInks written)
  /-- and in the statement. -/
  assigned : Named (set.joinedParams clause) (assignmentsInks written)
  /-- The text of the clause with other names. -/
  clauseText : (clause.avoiding set.params.keys).sql = namedText back
  /-- The clause is legible in the statement. -/
  clauseNamed : Named (set.joinedParams clause) back
  /-- It is the same clause but for its names, -/
  same : back.map (Ink.map Prod.snd) = is.map (Ink.map Prod.snd)
  /-- none of which is a column that is assigned. -/
  apart : ∀ b ∈ holesOf back, b.1 ∉ written.map Prod.fst

/-- **Both parts are legible under the parameters of the statement.** -/
theorem exists_updatePrint {clause : Clause} {written : List (String × Leaf)}
    {is : List (Ink (String × Param))} (hnodup : (written.map Prod.fst).Nodup)
    (htext : set.sql = "SET " ++ namedText (assignmentsInks written))
    (hparams : set.params = .ofList (written.map fun entry => (entry.1, .single entry.2.value)))
    (hbare : ∀ entry ∈ written, isBareName entry.1.toList = true)
    (hclause : clause.sql = namedText is) (hnamed : Named clause.params is) :
    ∃ back, set.UpdatePrint clause written is back := by
  obtain ⟨back, hsql, hback, hsame, hfree⟩ :=
    Clause.avoiding_named hclause hnamed set.params.keys
  have hkeys : ((written.map fun entry => (entry.1, Param.single entry.2.value)).map
      Prod.fst).Nodup := by
    rw [List.map_map]
    exact hnodup
  have hset : ∀ entry ∈ written, set.params.get? entry.1 = some (.single entry.2.value) := by
    intro entry hentry
    rw [hparams, NameMap.get?_ofList hkeys]
    exact NameMap.lookup_of_mem hkeys (List.mem_map.2 ⟨entry, hentry, rfl⟩)
  have hcolumn : ∀ entry ∈ written, entry.1 ∈ set.params.keys := by
    intro entry hentry
    rw [NameMap.mem_keys_iff, hset entry hentry]
    rfl
  -- The parameters of the clause go over those of the assignments and cover none.
  have hassigned : ∀ entry ∈ written,
      (set.joinedParams clause).get? entry.1 = some (.single entry.2.value) := by
    intro entry hentry
    have hnone : (clause.avoiding set.params.keys).params.get? entry.1 = none := by
      by_contra hsome
      have hmem := NameMap.mem_keys_iff.2 (Option.isSome_iff_ne_none.2 hsome)
      exact hfree entry.1 hmem (hcolumn entry hentry)
    rw [joinedParams, NameMap.get?_union, hnone, Option.none_or, hset entry hentry]
  have hmore : Named (set.joinedParams clause) back := hback.mono fun name p hp => by
    rw [joinedParams, NameMap.get?_union, hp]
    rfl
  refine ⟨back, htext, named_assignmentsInks hbare hset, named_assignmentsInks hbare hassigned,
    hsql, hmore, hsame, fun b hb hmem => ?_⟩
  obtain ⟨entry, hentry, hname⟩ := List.mem_map.1 hmem
  have hkey : b.1 ∈ (clause.avoiding set.params.keys).params.keys := by
    rw [NameMap.mem_keys_iff, hback.bound b hb]
    rfl
  exact hfree b.1 hkey (hname ▸ hcolumn entry hentry)

namespace UpdatePrint

variable {clause : Clause} {written : List (String × Leaf)} {front : String}
  {is back : List (Ink (String × Param))}

/-- The assignments on their own are a print after a word. -/
theorem assignments_eq (h : set.UpdatePrint clause written is back) : set.assignments =
    (Query.mk (namedText (assignmentsInks written)) set.params).ledBy "SET" := by
  rw [SetClause.assignments, h.text]
  rfl

/-- Their placeholders are the columns. -/
theorem placeholders_assignments (h : set.UpdatePrint clause written is back) :
    set.assignments.placeholders = written.map Prod.fst := by
  rw [h.assignments_eq, Query.placeholders_ledBy _ (by decide), h.alone.placeholders_eq,
    holesOf_assignmentsInks, List.map_map]
  rfl

/-- Their values are those of the columns. -/
theorem values_assignments (h : set.UpdatePrint clause written is back) :
    set.assignments.values = written.map fun entry => entry.2.value := by
  rw [h.assignments_eq, Query.values_ledBy _ (by decide), h.alone.values_eq, holesOf_map,
    holesOf_assignmentsInks, List.map_map, List.flatMap_map]
  exact List.flatMap_pure_eq_map _ _

/-- The statement is a print of both parts after a text. -/
theorem statement_eq (h : set.UpdatePrint clause written is back) (front : String) :
    Query.mk (front ++ " " ++ set.sql ++ " " ++ (clause.avoiding set.params.keys).sql)
        (set.joinedParams clause) =
      (Query.mk (namedText (spacedInks [assignmentsInks written, back]))
        (set.joinedParams clause)).ledBy (front ++ " " ++ "SET") := by
  have htext : namedText (spacedInks [assignmentsInks written, back]) =
      namedText (assignmentsInks written) ++ " " ++ namedText back := print_spacedInks_pair _ _ _
  rw [h.text, h.clauseText, htext, Query.ledBy]
  simp only [String.append_assoc]
  rfl

/-- Without the names it is the print of the assignments and of the clause as it was. -/
theorem map_spacedInks (h : set.UpdatePrint clause written is back) :
    (spacedInks [assignmentsInks written, back]).map (Ink.map Prod.snd) =
      spacedInks [(assignmentsInks written).map (Ink.map Prod.snd), is.map (Ink.map Prod.snd)] := by
  rw [spacedInks, map_joinInks, ← h.same]
  rfl

/-- **A statement of the two parts keeps them apart.** -/
theorem joinsApart (h : set.UpdatePrint clause written is back)
    (hclause : clause.sql = namedText is) (hnamed : Named clause.params is)
    (hfront : Placeholder.IsInert front) :
    Query.JoinsApart front set.assignments clause.query
      ⟨front ++ " " ++ set.sql ++ " " ++ (clause.avoiding set.params.keys).sql,
        set.joinedParams clause⟩ := by
  let inks := assignmentsInks written
  have hspaced : Named (set.joinedParams clause) (spacedInks [inks, back]) :=
    named_spacedInks (List.forall_mem_cons.2
      ⟨h.assigned, List.forall_mem_singleton.2 h.clauseNamed⟩)
  have hquery : clause.query = ⟨namedText is, clause.params⟩ := by
    rw [Clause.query, hclause]
  have hlead : Placeholder.IsInert (front ++ " " ++ "SET") := hfront.append_blank (by decide)
  have hholes : holesOf (spacedInks [inks, back]) = holesOf inks ++ holesOf back := by
    rw [spacedInks, joinInks, holesOf_append]
    rfl
  rw [hquery, h.statement_eq]
  refine ⟨?text, ?unbound, (holesOf back).map Prod.fst, ?names, ?apart, ?first, ?second⟩
  case text =>
    rw [h.assignments_eq, Query.positional_ledBy _ hlead, Query.positional_ledBy _ (by decide),
      hspaced.positional_eq, h.alone.positional_eq, hnamed.positional_eq, h.map_spacedInks,
      positionalText, print_spacedInks_pair]
    simp only [String.append_assoc]
    rfl
  case unbound =>
    rw [Query.unbound?_ledBy _ hlead, hspaced.unbound_eq]
  case names =>
    rw [Query.placeholders_ledBy _ hlead, hspaced.placeholders_eq, h.placeholders_assignments,
      hholes, List.map_append, holesOf_assignmentsInks, List.map_map]
    rfl
  case apart =>
    intro name hname hcolumn
    rw [h.placeholders_assignments] at hcolumn
    obtain ⟨b, hb, rfl⟩ := List.mem_map.1 hname
    exact h.apart b hb hcolumn
  -- What a name in a hole is bound to is told by the hole, alone as in the statement.
  case first =>
    rw [h.assignments_eq, Query.placeholders_ledBy _ (by decide), h.alone.placeholders_eq]
    exact h.assigned.map_get?.trans h.alone.map_get?.symm
  case second =>
    rw [hnamed.placeholders_eq]
    have hsame := h.clauseNamed.map_get?
    rw [h.same] at hsame
    exact hsame.trans hnamed.map_get?.symm

end UpdatePrint

end SetClause

end Parts

/-! ### An `UPDATE` around a compiled clause -/

/-- **An `UPDATE` binds what is assigned, then what its filter compares with.**  The text
is that of the assignments, bound on their own, and that of the clause, bound on its own.
No placeholder is unbound, and none of the one part is bound to a value of the other. -/
theorem ValidFilter.update_binds_apart {rules : FilterRules} (hnames : rules.HasFieldPaths)
    (v : ValidFilter rules) {options : CompileOptions} {clause : Clause} {table : Table}
    {record : Record} {policy : UpdatePolicy} {set : SetClause} {q : Query}
    (hname : Placeholder.IsInert table.name)
    (hcolumns : ∀ c ∈ table.columns.columns, isBareName c.name.toList = true)
    (hclause : v.compile options = .ok clause) (hset : record.setClause policy = .ok set)
    (hq : set.query table (some clause) = .ok q) :
    Query.JoinsApart ("UPDATE " ++ table.name) set.assignments clause.query q ∧
      (∃ flat, record.flatten = .ok flat ∧
        set.columns = (policy.written flat).map Prod.fst ∧
        set.assignments.placeholders = set.columns ∧
        q.values = ((policy.written flat).map fun entry => entry.2.value) ++
          clause.query.values) ∧
      ((∀ value ∈ q.values, value.isStorable = true) → ∃ assigned text cells more,
        set.assignments.bound = .ok (assigned, cells) ∧
        clause.query.bound = .ok (text, more) ∧
        q.bound = .ok ("UPDATE " ++ table.name ++ " " ++ assigned ++ " " ++ text,
          cells ++ more)) := by
  have hcrown := crownPasses_of_compile hclause
  obtain rfl := Except.ok.inj ((v.compile_eq hcrown).symm.trans hclause)
  have hnamed := (v.bindable_print hnames hcrown).toNamed
  obtain ⟨flat, hflat, hnodup, hwritten, htext, hparams⟩ := setClause_eq hset
  obtain ⟨hcheck, -, rfl⟩ := SetClause.query_eq_ok hq
  have hbare : ∀ entry ∈ policy.written flat, isBareName entry.1.toList = true := by
    intro entry hentry
    refine isBareName_of_checkColumns hcolumns hcheck entry.1 ?_
    rw [hwritten]
    exact List.mem_map.2 ⟨entry, hentry, rfl⟩
  -- From here on the clause is any print whose holes are named.
  obtain ⟨back, hparts⟩ := SetClause.exists_updatePrint hnodup htext hparams hbare rfl hnamed
  have hword : Placeholder.IsInert "UPDATE" := by decide
  have hfront : Placeholder.IsInert ("UPDATE " ++ table.name) := hword.append_blank hname
  have hjoins := hparts.joinsApart rfl hnamed hfront
  refine ⟨hjoins, ⟨flat, hflat, hwritten, ?_, ?_⟩, hjoins.exists_bound⟩
  · rw [hparts.placeholders_assignments, hwritten]
  · refine hjoins.values_eq.trans ?_
    rw [hparts.values_assignments]

/-! ### Columns whose names clash -/

/-- Hosts with columns of which two are named like another one with a number. -/
def numberedTable : Table :=
  .ofColumns "host" (.ofColumns false [.plain "memo" .string, .plain "name" .string,
    .plain "name_2" .string, .plain "name_3" .string, .plain "updated_at" .time])

/-- Rules for two columns that are also assigned. -/
def numberedFilter : ValidFilter { fields := numberedTable.fields } where
  filter := .group .and [
    .rule ⟨"name", .notEqual, .single (.text "a")⟩,
    .rule ⟨"name_2", .oneOf, .list [.text "b", .text "c"]⟩,
    .rule ⟨"name", .noneOf, .list [.text "d"]⟩,
    .rule ⟨"memo", .equal, .single (.text "e")⟩]
  passed := by decide

/-- New names for hosts. -/
def numberedRecord : Record where
  type := ⟨"Host", .cons "name" (some "name") (.scalar .string)
    (.cons "second" (some "name_2") (.scalar .string)
      (.cons "third" (some "name_3") (.optional (.scalar .string)) .nil))⟩
  content := ("x", "y", some "z", ())

/-- What is assigned to them. -/
def numberedAssignments : SetClause where
  sql := "SET name = :name, name_2 = :name_2, name_3 = :name_3, updated_at = now()"
  params := .ofList [("name", .single (.text "x")), ("name_2", .single (.text "y")),
    ("name_3", .single (.text "z"))]
  columns := ["name", "name_2", "name_3"]

/-- The clause of the filter, which has the same placeholders. -/
def numberedClause : Clause where
  sql := "WHERE (name != :name AND name_2 IN (:name_2) AND name NOT IN (:name_3) AND memo = :memo)"
  params := .ofList [("memo", .single (.text "e")), ("name", .single (.text "a")),
    ("name_2", .list [.text "b", .text "c"]), ("name_3", .list [.text "d"])]
  matchesAll := false

/-- The placeholders of the clause give way to those of the assignments and to each
other. -/
def numberedQuery : Query where
  sql := "UPDATE host SET name = :name, name_2 = :name_2, name_3 = :name_3, " ++
    "updated_at = now() WHERE (name != :name_4 AND name_2 IN (:name_2_2) AND " ++
    "name NOT IN (:name_3_2) AND memo = :memo)"
  params := .ofList [("memo", .single (.text "e")), ("name", .single (.text "x")),
    ("name_2", .single (.text "y")), ("name_2_2", .list [.text "b", .text "c"]),
    ("name_3", .single (.text "z")), ("name_3_2", .list [.text "d"]),
    ("name_4", .single (.text "a"))]

theorem numberedQuery_binds_apart :
    FilterRules.HasFieldPaths { fields := numberedTable.fields } ∧
      Placeholder.IsInert numberedTable.name ∧
      (∀ c ∈ numberedTable.columns.columns, isBareName c.name.toList = true) ∧
      numberedFilter.compile {} = .ok numberedClause ∧
      numberedRecord.setClause {} = .ok numberedAssignments ∧
      numberedAssignments.query numberedTable (some numberedClause) = .ok numberedQuery ∧
      Query.JoinsApart ("UPDATE " ++ numberedTable.name) numberedAssignments.assignments
        numberedClause.query numberedQuery ∧
      numberedQuery.values = [.text "x", .text "y", .text "z", .text "a", .text "b", .text "c",
        .text "d", .text "e"] ∧
      ∃ text cells, numberedQuery.bound = .ok (text, cells) := by
  have hnames : FilterRules.HasFieldPaths { fields := numberedTable.fields } := by decide
  have hname : Placeholder.IsInert numberedTable.name := by decide
  have hcolumns : ∀ c ∈ numberedTable.columns.columns, isBareName c.name.toList = true := by decide
  have hclause : numberedFilter.compile {} = .ok numberedClause := by
    rw [numberedFilter.compile_eq (by decide), numberedFilter.compiled_unranked rfl]
    decide +kernel
  have hset : numberedRecord.setClause {} = .ok numberedAssignments := by decide +kernel
  have hquery : numberedAssignments.query numberedTable (some numberedClause) =
      .ok numberedQuery := by decide +kernel
  obtain ⟨hjoins, -, hbound⟩ :=
    numberedFilter.update_binds_apart hnames hname hcolumns hclause hset hquery
  have hvalues : numberedQuery.values = [.text "x", .text "y", .text "z", .text "a", .text "b",
      .text "c", .text "d", .text "e"] := by decide +kernel
  obtain ⟨assigned, text, cells, more, -, -, htext⟩ := hbound (by
    rw [hvalues]
    decide)
  exact ⟨hnames, hname, hcolumns, hclause, hset, hquery, hjoins, hvalues, _, _, htext⟩

end ResourceTable
