import ResourceTable.Proofs.PlaceholderReading
import ResourceTable.Proofs.Traversal
import ResourceTable.Proofs.UpdateBinding

/-!
# Binding in order

A query is executed as a text with question marks and a list of cells.  The database gives the
first cell to the first question mark, and so on, so that every cell has to be at the place of
its value.  Any text may be a query's, if it has no question marks of its own; those in quotes
are no matter.  A list takes as many question marks as it has values, with commas between them,
and may take none.

## Main definitions

* `marked`: question marks for values, each with its value.
* `Piece.filled`: what a piece becomes, each question mark with its value.

## Main results

* `Query.positional_of_readsAs` — placeholders become question marks, and all else stays.
* `Piece.ReadsAs.marks` — the question marks outside of quotes are those of the values, in order.
* `Query.bound_in_order` — **binding keeps the order of the values**, fails only if a placeholder
  has no parameter or a value no cell, and names the first placeholder without one.
-/

namespace ResourceTable

open Sql (Cell)

/-! ### Question marks -/

/-- Question marks for values, with commas between them, each with the value that it stands
for. -/
def marked : List Value → List (Char × Option Value)
  | [] => []
  | [v] => [('?', some v)]
  | v :: w :: rest => ('?', some v) :: (',', none) :: (' ', none) :: marked (w :: rest)

/-- The text of the question marks. -/
theorem map_fst_marked : ∀ vs : List Value,
    (marked vs).map Prod.fst = (String.intercalate ", " (vs.map fun _ => "?")).toList := by
  intro vs
  induction vs with
  | nil =>
    rw [List.map_nil, String.intercalate_nil]
    rfl
  | cons v rest ih =>
    cases rest with
    | nil =>
      rw [List.map_cons, List.map_nil, String.intercalate_singleton]
      rfl
    | cons w more =>
      rw [marked, List.map_cons, List.map_cons, List.map_cons, ih]
      simp only [List.map_cons, String.intercalate_cons_cons, String.toList_append]
      rfl

/-- There is one for every value. -/
theorem filter_marked : ∀ vs : List Value,
    (marked vs).filter (·.1 = '?') = vs.map fun v => ('?', some v) := by
  intro vs
  induction vs with
  | nil => rfl
  | cons v rest ih =>
    cases rest with
    | nil => rfl
    | cons w more =>
      rw [marked, List.filter_cons_of_pos (by simp), List.filter_cons_of_neg (by simp),
        List.filter_cons_of_neg (by simp), ih]
      rfl

/-- None of these characters is a quote. -/
theorem ne_quote_of_mem_marked : ∀ {vs : List Value}, ∀ m ∈ marked vs, m.1 ≠ '\'' ∧ m.1 ≠ '"' := by
  intro vs
  have hmark (v : Value) : ('?', some v).1 ≠ '\'' ∧ ('?', some v).1 ≠ '"' :=
    show '?' ≠ '\'' ∧ '?' ≠ '"' by decide
  induction vs with
  | nil => exact List.forall_mem_nil _
  | cons v rest ih =>
    cases rest with
    | nil => exact List.forall_mem_singleton.2 (hmark v)
    | cons w more =>
      simp only [marked, List.forall_mem_cons]
      exact ⟨hmark v, by decide, by decide, ih⟩

namespace Piece

/-- What a piece becomes: a character stays, and a placeholder becomes question marks. -/
def filled (params : Params) : Piece → List (Char × Option Value)
  | .char c => [(c, none)]
  | .placeholder name => marked ((params.get? name).elim [] Param.values)

variable {params : Params} {quote : Option Char} {cs : List Char} {ps : List Piece}

/-- **The question marks outside of quotes are those of the values**, in their order, if the text
has none of its own. -/
theorem ReadsAs.marks (h : ReadsAs quote cs ps) (hnone : '?' ∉ unquoted id quote cs) :
    (unquoted Prod.fst quote (ps.flatMap (filled params))).filter (·.1 = '?') =
      ((ps.filterMap name?).flatMap fun name => (params.get? name).elim [] Param.values).map
        fun v => ('?', some v) := by
  induction h with
  | nil => rfl
  | @placeholder name rest ps hname hend h ih =>
    have hparts : ∀ c ∈ ':' :: name.toList, id c ≠ '\'' ∧ id c ≠ '"' :=
      ne_quote_of_placeholder (isNamePart_of_isBareName hname)
    rw [← List.cons_append, unquoted_append_of_forall rest hparts, List.mem_append,
      not_or] at hnone
    rw [List.flatMap_cons, filled, unquoted_append_of_forall _ ne_quote_of_mem_marked,
      List.filter_append, filter_marked, ih hnone.2,
      List.filterMap_cons_some (show name? (.placeholder name) = some name from rfl),
      List.flatMap_cons, List.map_append]
  | @char quote c rest ps hcolon h ih =>
    rw [unquoted, List.mem_append, not_or] at hnone
    have hfirst : (if quote = none then [((c, none) : Char × Option Value)] else []).filter
        (·.1 = '?') = [] := by
      split
      · next hquote =>
        have hc : c ≠ '?' := by
          rintro rfl
          simp [hquote] at hnone
        simp [hc]
      · rfl
    rw [List.flatMap_cons, filled, List.singleton_append, unquoted, List.filter_append, hfirst,
      List.filterMap_cons_none (show name? (.char c) = none from rfl)]
    exact ih hnone.2

end Piece

/-! ### Bound queries -/

theorem Value.isStorable_of_toCell {v : Value} {cell : Cell} (h : v.toCell = .ok cell) :
    v.isStorable = true := by
  cases v with
  | time | machineTime | zoned => cases h
  | _ => rfl

namespace Query

variable {q : Query} {ps : List Piece}

theorem placeholders_of_readsAs (h : Piece.ReadsAs none q.sql.toList ps) :
    q.placeholders = ps.filterMap Piece.name? :=
  Placeholder.names_of_readsAs h

theorem mem_placeholders_of_readsAs (h : Piece.ReadsAs none q.sql.toList ps) {name : String} :
    name ∈ q.placeholders ↔ .placeholder name ∈ ps := by
  rw [placeholders_of_readsAs h, List.mem_filterMap]
  constructor
  · rintro ⟨p, hp, hname⟩
    cases p with
    | char c => cases hname
    | placeholder other =>
      cases hname
      exact hp
  · intro hp
    exact ⟨_, hp, rfl⟩

/-- **Placeholders become question marks, and all else stays.** -/
theorem positional_of_readsAs (h : Piece.ReadsAs none q.sql.toList ps)
    (hbound : q.unbound? = none) :
    q.positional.toList = (ps.flatMap (Piece.filled q.params)).map Prod.fst := by
  rw [positional, Placeholder.toList_substitute h, List.map_flatMap]
  refine List.flatMap_congr fun p hp => ?_
  cases p with
  | char c => rfl
  | placeholder name =>
    have hsome := (unbound?_eq_none_iff.1 hbound) (q.param name)
      (List.mem_map_of_mem ((mem_placeholders_of_readsAs h).2 hp))
    obtain ⟨param, hparam⟩ := Option.isSome_iff_exists.1 hsome
    have hget : q.params.get? name = some param := hparam
    rw [Piece.chars, Piece.filled, hparam, hget]
    exact (map_fst_marked param.values).symm

/-- What a query is executed as. -/
theorem bound_eq_ok_iff {text : String} {cells : List Cell} : q.bound = .ok (text, cells) ↔
    q.unbound? = none ∧ text = q.positional ∧ q.values.mapM Value.toCell = .ok cells := by
  unfold bound
  cases hunbound : q.unbound? with
  | some name => simp
  | none =>
    cases hcells : q.values.mapM Value.toCell with
    | error e => exact iff_of_false (fun h => nomatch h) fun h => nomatch h.2.2
    | ok found =>
      show Except.ok (q.positional, found) = .ok (text, cells) ↔ _
      simp [eq_comm]

/-- A query is executed exactly if every placeholder has a parameter and every value a cell. -/
theorem exists_bound_iff : (∃ r, q.bound = .ok r) ↔ ∀ name ∈ q.placeholders,
    ∃ p, q.params.get? name = some p ∧ ∀ v ∈ p.values, v.isStorable = true := by
  constructor
  · rintro ⟨⟨text, cells⟩, hbound⟩ name hname
    obtain ⟨hunbound, -, hcells⟩ := bound_eq_ok_iff.1 hbound
    have hsome := unbound?_eq_none_iff.1 hunbound (q.param name) (List.mem_map_of_mem hname)
    obtain ⟨p, hp⟩ := Option.isSome_iff_exists.1 hsome
    refine ⟨p, hp, fun v hv => Value.isStorable_of_toCell (toCell_of_mapM hcells v ?_)⟩
    exact List.mem_flatMap.2 ⟨name, hname, by rwa [hp]⟩
  · intro h
    have hunbound : q.unbound? = none := by
      rw [unbound?_eq_none_iff, List.forall_mem_map]
      intro name hname
      obtain ⟨p, hp, -⟩ := h name hname
      exact Option.isSome_iff_exists.2 ⟨p, hp⟩
    refine ⟨_, bound_of_isStorable hunbound fun v hv => ?_⟩
    obtain ⟨name, hname, hv⟩ := List.mem_flatMap.1 hv
    obtain ⟨p, hp, hvalues⟩ := h name hname
    have hparam : q.param name = some p := hp
    rw [hparam] at hv
    exact hvalues v hv

/-- A text and cells are a query in positional form, whose own text is read as the pieces. -/
structure IsPositional (q : Query) (ps : List Piece) (sql : String) (cells : List Cell) :
    Prop where
  /-- The text is that of the pieces, in which placeholders are question marks. -/
  text : sql.toList = (ps.flatMap (Piece.filled q.params)).map Prod.fst
  /-- Outside of quotes there are as many question marks as cells, -/
  count : (unquoted id none sql.toList).count '?' = cells.length
  /-- and each stands for the value of its cell. -/
  order : List.Forall₂ (fun mark cell => ∃ v, mark = ('?', some v) ∧ v.toCell = .ok cell)
    ((unquoted Prod.fst none (ps.flatMap (Piece.filled q.params))).filter (·.1 = '?')) cells

/-- A query that is executed is in positional form. -/
theorem isPositional_of_bound (hmarks : '?' ∉ unquoted id none q.sql.toList)
    (hps : Piece.ReadsAs none q.sql.toList ps) {text : String} {cells : List Cell}
    (hbound : q.bound = .ok (text, cells)) : q.IsPositional ps text cells := by
  obtain ⟨hunbound, rfl, hcells⟩ := bound_eq_ok_iff.1 hbound
  have hfound := mapM_eq_ok_iff.1 hcells
  have htext := positional_of_readsAs hps hunbound
  have hvalues : (unquoted Prod.fst none (ps.flatMap (Piece.filled q.params))).filter
      (·.1 = '?') = q.values.map fun v => ('?', some v) := by
    rw [hps.marks hmarks, values, placeholders_of_readsAs hps]
    rfl
  refine ⟨htext, ?count, ?order⟩
  case count =>
    calc (unquoted id none q.positional.toList).count '?'
        = ((unquoted Prod.fst none (ps.flatMap (Piece.filled q.params))).filter
            (·.1 = '?')).length := by
          rw [htext, ← map_unquoted, List.count_eq_length_filter, List.filter_map, List.length_map]
          exact congrArg List.length (List.filter_congr fun m _ => by simp [beq_eq_decide])
      _ = q.values.length := by rw [hvalues, List.length_map]
      _ = cells.length := hfound.length_eq
  case order =>
    rw [hvalues, List.forall₂_map_left_iff]
    exact hfound.imp fun v cell hv => ⟨v, rfl, hv⟩

/-- The first placeholder without a parameter is named. -/
theorem bound_of_missing {front back : List Piece} {name : String}
    (hps : Piece.ReadsAs none q.sql.toList (front ++ .placeholder name :: back))
    (hfront : ∀ other, .placeholder other ∈ front → q.params.get? other ≠ none)
    (hname : q.params.get? name = none) :
    q.bound = .error (.storage ("no value bound for placeholder `:" ++ name ++ "`")) := by
  have hnone : (front.filterMap Piece.name?).find? (fun name => (q.param name).isNone) = none := by
    rw [List.find?_eq_none]
    intro other hother
    obtain ⟨p, hp, hpname⟩ := List.mem_filterMap.1 hother
    cases p with
    | char c => cases hpname
    | placeholder same =>
      cases hpname
      rw [Option.isNone_iff_eq_none]
      exact hfront other hp
  have hfind : q.unbound? = some name := by
    rw [unbound?, placeholders_of_readsAs hps, List.filterMap_append, List.find?_append, hnone,
      Option.none_or,
      List.filterMap_cons_some (show Piece.name? (.placeholder name) = some name from rfl)]
    exact List.find?_cons_of_pos (Option.isNone_iff_eq_none.2 hname)
  rw [bound, hfind]

/-- **Binding keeps the order of the values.**  The text of a query has a reading, and its only
one says all: the query is executed exactly if every placeholder has a parameter whose values
have cells; then it is executed in positional form; and if placeholders have no parameter, then
the first one of them is named. -/
theorem bound_in_order (q : Query) (hmarks : '?' ∉ unquoted id none q.sql.toList) :
    (∃ ps, Piece.ReadsAs none q.sql.toList ps) ∧
    ∀ ps, Piece.ReadsAs none q.sql.toList ps →
      ((∃ r, q.bound = .ok r) ↔ ∀ name, .placeholder name ∈ ps →
        ∃ p, q.params.get? name = some p ∧ ∀ v ∈ p.values, v.isStorable = true) ∧
      (∀ text cells, q.bound = .ok (text, cells) → q.IsPositional ps text cells) ∧
      ∀ front name back, ps = front ++ .placeholder name :: back →
        (∀ other, .placeholder other ∈ front → q.params.get? other ≠ none) →
        q.params.get? name = none →
          q.bound = .error (.storage ("no value bound for placeholder `:" ++ name ++ "`")) := by
  refine ⟨Piece.exists_readsAs none _, fun ps hps => ⟨?executed, ?order, ?missing⟩⟩
  case executed =>
    rw [exists_bound_iff]
    exact forall_congr' fun name => imp_congr_left (mem_placeholders_of_readsAs hps)
  case order =>
    intro text cells hbound
    exact isPositional_of_bound hmarks hps hbound
  case missing =>
    rintro front name back rfl hfront hname
    exact bound_of_missing hps hfront hname

/-- A query with a list, a placeholder that comes twice, one that stands for nothing, and a
question mark and a colon in quotes. -/
def repeatedQuery : Query where
  sql := "SELECT ':id?' FROM host WHERE id IN (:id) AND name != :name " ++
    "OR id IN (:none) OR name = :name"
  params := .ofList [("id", .list [.text "a", .text "b"]), ("name", .single (.text "web")),
    ("none", .list [])]

theorem repeatedQuery_in_order :
    '?' ∉ unquoted id none repeatedQuery.sql.toList ∧
      ∃ ps, Piece.ReadsAs none repeatedQuery.sql.toList ps ∧
        repeatedQuery.IsPositional ps
          "SELECT ':id?' FROM host WHERE id IN (?, ?) AND name != ? OR id IN () OR name = ?"
          [.text "a", .text "b", .text "web", .text "web"] ∧
        ({ repeatedQuery with params := .ofList [("id", .list [])] } : Query).bound =
          .error (.storage "no value bound for placeholder `:name`") := by
  have hmarks : '?' ∉ unquoted id none repeatedQuery.sql.toList := by decide +kernel
  obtain ⟨⟨ps, hps⟩, hall⟩ := repeatedQuery.bound_in_order hmarks
  have hbound : repeatedQuery.bound = .ok
      ("SELECT ':id?' FROM host WHERE id IN (?, ?) AND name != ? OR id IN () OR name = ?",
        [.text "a", .text "b", .text "web", .text "web"]) := by decide +kernel
  exact ⟨hmarks, ps, hps, (hall ps hps).2.1 _ _ hbound, by decide +kernel⟩

end Query

end ResourceTable
