import ResourceTable.Proofs.PrintPlaceholders

/-!
# Executing a print

A print whose holes are placeholders with parameters is a query.  Executed, it becomes
a text with question marks and a cell for each of them, and the database reads that
text as the tokens of the print with the cells in its holes.

## Main definitions

* `Named`: prints whose placeholders are bound to what their holes hold.
* `Bindable`: named prints for whose values there are cells.

## Main results

* `bound_print` — **a bindable print is executed in positional form.**
* `eq_of_bound` — a named print that is executed is executed in that form.
* `tokens_bound_print` — what the database receives of it.
-/

namespace ResourceTable

open Sql (Token Lexeme Cell)

/-! ### Holes -/

section Holes

variable {α β : Type}

theorem mem_holesOf {a : α} {is : List (Ink α)} : a ∈ holesOf is ↔ Ink.hole a ∈ is := by
  rw [holesOf, List.mem_filterMap]
  constructor
  · rintro ⟨i, hi, he⟩
    cases i with
    | hole b => rwa [← Option.some.inj he]
    | _ => cases he
  · intro h
    exact ⟨.hole a, h, rfl⟩

theorem holesOf_append (a b : List (Ink α)) : holesOf (a ++ b) = holesOf a ++ holesOf b :=
  List.filterMap_append

theorem holesOf_map (f : α → β) (is : List (Ink α)) :
    holesOf (is.map (Ink.map f)) = (holesOf is).map f := by
  rw [holesOf, holesOf, List.filterMap_map, List.map_filterMap]
  refine congrArg (fun g => is.filterMap g) (funext fun i => ?_)
  cases i <;> rfl

/-- A print depends on its holes only as far as they are printed. -/
theorem print_congr {fill other : α → List Char} {is : List (Ink α)}
    (h : ∀ a ∈ holesOf is, fill a = other a) : print fill is = print other is := by
  refine List.flatMap_congr fun i hi => ?_
  cases i with
  | hole a => exact h a (mem_holesOf.2 hi)
  | _ => rfl

theorem legible_map_iff {f : α → β} {is : List (Ink α)} :
    Legible (is.map (Ink.map f)) ↔ Legible is := by
  refine ⟨fun h => ⟨fun i hi => ?_, ?_⟩, Legible.map f⟩
  · exact (Ink.isSound_map f i).1 (h.sound _ (List.mem_map.2 ⟨i, hi, rfl⟩))
  · have hchain := h.chain
    rw [List.isChain_map] at hchain
    exact hchain.imp fun i j hij => by rwa [Ink.joins_map_left, Ink.joins_map_right] at hij

end Holes

/-! ### Binding -/

namespace Query

/-- What is bound is found placeholder by placeholder. -/
theorem values_eq_flatMap (q : Query) :
    q.values = (q.placeholders.map q.param).flatMap fun p => p.elim [] Param.values := by
  rw [values, List.flatMap_map]

theorem unbound?_eq_none_iff {q : Query} :
    q.unbound? = none ↔ ∀ p ∈ q.placeholders.map q.param, p.isSome = true := by
  rw [unbound?, List.find?_eq_none, List.forall_mem_map]
  refine forall₂_congr fun name _ => ?_
  rw [Bool.not_eq_true, Option.isNone_eq_false_iff]

end Query

/-- A print whose placeholders are bound to what its holes hold: one value at least. -/
structure Named (params : Params) (is : List (Ink (String × Param))) : Prop where
  /-- The print is legible. -/
  legible : Legible is
  /-- The names can be placeholders. -/
  bare : ∀ b ∈ holesOf is, isBareName b.1.toList = true
  /-- They are bound. -/
  bound : ∀ b ∈ holesOf is, params.get? b.1 = some b.2
  /-- Every hole stands for a value at least. -/
  nonempty : ∀ b ∈ holesOf is, b.2.values ≠ []

/-- A named print for whose values there are cells. -/
structure Bindable (params : Params) (is : List (Ink (String × Param))) : Prop
    extends Named params is where
  /-- Cells can hold the values. -/
  cells : ∀ b ∈ holesOf is, ∀ v ∈ b.2.values, v.toCell = .ok v.cell

/-- The text of a print with its placeholders. -/
def namedText (is : List (Ink (String × Param))) : String :=
  String.ofList (print (fun b => named b.1) is)

/-- The text of a print with question marks. -/
def positionalText (is : List (Ink Param)) : String :=
  String.ofList (print (fun p => (Query.marks p).toList) is)

/-- The cells of a print, in order. -/
def cellsOf (is : List (Ink Param)) : List Cell :=
  ((holesOf is).flatMap Param.values).map Value.cell

theorem mapM_toCell : ∀ {vs : List Value}, (∀ v ∈ vs, v.toCell = .ok v.cell) →
    vs.mapM Value.toCell = .ok (vs.map Value.cell) := by
  intro vs
  induction vs with
  | nil => intro _; rfl
  | cons v rest ih =>
    intro h
    obtain ⟨hv, hrest⟩ := List.forall_mem_cons.1 h
    rw [List.mapM_cons, hv, ih hrest]
    rfl

/-- Cells that were found are those of the values. -/
theorem eq_of_mapM_toCell : ∀ {vs : List Value} {cells : List Cell},
    vs.mapM Value.toCell = .ok cells → cells = vs.map Value.cell := by
  intro vs
  induction vs with
  | nil => intro cells h; cases h; rfl
  | cons v rest ih =>
    intro cells h
    rw [List.mapM_cons] at h
    cases hv : v.toCell with
    | error e => rw [hv] at h; cases h
    | ok c =>
      cases hrest : rest.mapM Value.toCell with
      | error e => rw [hv, hrest] at h; cases h
      | ok more =>
        rw [hv, hrest] at h
        cases h
        rw [List.map_cons, ih hrest, Value.cell, hv]
        rfl

theorem toCell_of_mapM : ∀ {vs : List Value} {cells : List Cell},
    vs.mapM Value.toCell = .ok cells → ∀ v ∈ vs, v.toCell = .ok v.cell := by
  intro vs
  induction vs with
  | nil => exact fun _ => List.forall_mem_nil _
  | cons v rest ih =>
    intro cells h
    rw [List.mapM_cons] at h
    cases hv : v.toCell with
    | error e => rw [hv] at h; cases h
    | ok c =>
      cases hrest : rest.mapM Value.toCell with
      | error e => rw [hv, hrest] at h; cases h
      | ok more =>
        have hcell : v.cell = c := by rw [Value.cell, hv]; rfl
        exact List.forall_mem_cons.2 ⟨by rw [hv, hcell], ih hrest⟩

namespace Named

variable {params : Params} {is : List (Ink (String × Param))}

theorem namedText_eq (is : List (Ink (String × Param))) :
    namedText is = String.ofList (print named (is.map (Ink.map Prod.fst))) := by
  rw [namedText, print_map]
  rfl

theorem bareHoles (h : Named params is) : Ink.BareHoles (is.map (Ink.map Prod.fst)) := by
  intro name hname
  rw [← mem_holesOf, holesOf_map] at hname
  obtain ⟨b, hb, rfl⟩ := List.mem_map.1 hname
  exact h.bare b hb

/-- The placeholders of a print are the names in its holes. -/
theorem placeholders_eq (h : Named params is) :
    (Query.mk (namedText is) params).placeholders = (holesOf is).map Prod.fst := by
  rw [Query.placeholders, namedText_eq, names_print (h.legible.map _) h.bareHoles, holesOf_map]

/-- What the names in its holes are bound to is what the holes hold. -/
theorem map_get? (h : Named params is) :
    ((holesOf is).map Prod.fst).map params.get? =
      (holesOf (is.map (Ink.map Prod.snd))).map some := by
  rw [holesOf_map, List.map_map, List.map_map]
  exact List.map_congr_left fun b hb => h.bound b hb

/-- So it is with its placeholders. -/
theorem params_eq (h : Named params is) :
    (Query.mk (namedText is) params).placeholders.map (Query.mk (namedText is) params).param =
      (holesOf (is.map (Ink.map Prod.snd))).map some := by
  rw [h.placeholders_eq]
  exact h.map_get?

/-- None of its placeholders is without a value. -/
theorem unbound_eq (h : Named params is) :
    (Query.mk (namedText is) params).unbound? = none := by
  rw [Query.unbound?_eq_none_iff, h.params_eq]
  intro p hp
  obtain ⟨q, -, rfl⟩ := List.mem_map.1 hp
  rfl

/-- Its placeholders become question marks. -/
theorem positional_eq (h : Named params is) :
    (Query.mk (namedText is) params).positional = positionalText (is.map (Ink.map Prod.snd)) := by
  rw [Query.positional, namedText_eq, substitute_print (h.legible.map _) h.bareHoles,
    positionalText]
  simp only [print_map]
  refine congrArg String.ofList (print_congr fun b hb => ?_)
  rw [Function.comp_apply, Query.param, h.bound b hb]
  rfl

/-- Its values are those that its holes hold. -/
theorem values_eq (h : Named params is) :
    (Query.mk (namedText is) params).values =
      (holesOf (is.map (Ink.map Prod.snd))).flatMap Param.values := by
  rw [Query.values_eq_flatMap, h.params_eq, List.flatMap_map]
  rfl

/-- A named print is executed in positional form, if there are cells for its values. -/
theorem bound_eq (h : Named params is) :
    (Query.mk (namedText is) params).bound = do
      return (positionalText (is.map (Ink.map Prod.snd)),
        ← ((holesOf (is.map (Ink.map Prod.snd))).flatMap Param.values).mapM Value.toCell) := by
  rw [Query.bound, h.unbound_eq, h.positional_eq, h.values_eq]

/-- The positional form of a named print that is executed. -/
theorem eq_of_bound (h : Named params is) {text : String} {cells : List Cell}
    (hbound : (Query.mk (namedText is) params).bound = .ok (text, cells)) :
    text = positionalText (is.map (Ink.map Prod.snd)) ∧
      cells = cellsOf (is.map (Ink.map Prod.snd)) := by
  rw [h.bound_eq] at hbound
  cases hcells : ((holesOf (is.map (Ink.map Prod.snd))).flatMap Param.values).mapM Value.toCell with
  | error e => rw [hcells] at hbound; cases hbound
  | ok found =>
    rw [hcells] at hbound
    cases hbound
    exact ⟨rfl, eq_of_mapM_toCell hcells⟩

/-- Cells hold the values of a named print that is executed. -/
theorem toCell_of_bound (h : Named params is) {text : String} {cells : List Cell}
    (hbound : (Query.mk (namedText is) params).bound = .ok (text, cells)) :
    ∀ b ∈ holesOf is, ∀ v ∈ b.2.values, v.toCell = .ok v.cell := by
  rw [h.bound_eq, holesOf_map] at hbound
  cases hcells : (((holesOf is).map Prod.snd).flatMap Param.values).mapM Value.toCell with
  | error e => rw [hcells] at hbound; cases hbound
  | ok found =>
    intro b hb v hv
    refine toCell_of_mapM hcells v (List.mem_flatMap.2 ⟨b.2, ?_, hv⟩)
    exact List.mem_map.2 ⟨b, hb, rfl⟩

theorem noEmptyHole (h : Named params is) : NoEmptyHole (is.map (Ink.map Prod.snd)) := by
  intro p hp
  rw [← mem_holesOf, holesOf_map] at hp
  obtain ⟨b, hb, rfl⟩ := List.mem_map.1 hp
  exact h.nonempty b hb

/-- What the database receives of a named print: its tokens, with the cells in its
holes. -/
theorem tokens_bound_print (h : Named params is) :
    (Lexeme.fill (Lexeme.scan (positionalText (is.map (Ink.map Prod.snd))).toList)
        (cellsOf (is.map (Ink.map Prod.snd)))).map Lexeme.token =
      tokensOf Param.tokens (is.map (Ink.map Prod.snd)) := by
  rw [positionalText, String.toList_ofList, cellsOf]
  exact tokens_fill_scan (h.legible.map _) h.noEmptyHole

/-- Without holes there is nothing to bind. -/
theorem of_holesOf_eq_nil (h : Legible is) (hnone : holesOf is = []) : Named params is := by
  refine ⟨h, ?_, ?_, ?_⟩ <;>
    · rw [hnone]
      exact List.forall_mem_nil _

theorem append {a b : List (Ink (String × Param))} (ha : Named params a)
    (hb : Named params b) (hmeet : ∀ i ∈ a.getLast?, ∀ j ∈ b.head?, i.joins j = true) :
    Named params (a ++ b) := by
  refine ⟨ha.legible.append hb.legible hmeet, ?_, ?_, ?_⟩ <;> rw [holesOf_append] <;>
    refine List.forall_mem_append.2 ⟨?_, ?_⟩
  · exact ha.bare
  · exact hb.bare
  · exact ha.bound
  · exact hb.bound
  · exact ha.nonempty
  · exact hb.nonempty

end Named

namespace Bindable

variable {params : Params} {is : List (Ink (String × Param))}

/-- **A bindable print is executed in positional form.** -/
theorem bound_print (h : Bindable params is) :
    (Query.mk (namedText is) params).bound =
      .ok (positionalText (is.map (Ink.map Prod.snd)), cellsOf (is.map (Ink.map Prod.snd))) := by
  have hcells : ((holesOf (is.map (Ink.map Prod.snd))).flatMap Param.values).mapM Value.toCell =
      .ok (cellsOf (is.map (Ink.map Prod.snd))) := by
    rw [cellsOf]
    refine mapM_toCell fun v hv => ?_
    rw [holesOf_map, List.flatMap_map] at hv
    obtain ⟨b, hb, hv⟩ := List.mem_flatMap.1 hv
    exact h.cells b hb v hv
  rw [h.bound_eq]
  simp only [hcells]
  rfl

/-- Without holes there is nothing to bind. -/
theorem of_holesOf_eq_nil (h : Legible is) (hnone : holesOf is = []) : Bindable params is := by
  refine ⟨.of_holesOf_eq_nil h hnone, ?_⟩
  rw [hnone]
  exact List.forall_mem_nil _

theorem append {a b : List (Ink (String × Param))} (ha : Bindable params a)
    (hb : Bindable params b) (hmeet : ∀ i ∈ a.getLast?, ∀ j ∈ b.head?, i.joins j = true) :
    Bindable params (a ++ b) := by
  refine ⟨ha.toNamed.append hb.toNamed hmeet, ?_⟩
  rw [holesOf_append]
  exact List.forall_mem_append.2 ⟨ha.cells, hb.cells⟩

end Bindable

end ResourceTable
