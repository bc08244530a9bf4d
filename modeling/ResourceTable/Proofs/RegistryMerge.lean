import ResourceTable.Proofs.ShownRow

/-!
# What a registry is made of

A registry is made of lists of columns, which may overlap.  A column that comes again under
its physical name replaces the one before it where that stands.  So every name stands where it
occurred first, and has the title and the type of its last occurrence, whatever the lists have
in common; and it does not matter whether they are merged at once or in stages.

What a registry says of its columns, in look-ups and in the texts of statements, it says of this
one sequence.

## Main definitions

* `Column.IsLast`: a column that no later one of its name replaces.
* `Registry.Describes`: what a registry says of its columns, position by position.

## Main results

* `Registry.names_ofColumns` — names stand in the order of their first occurrences.
* `Registry.mem_ofColumns` — what stands under a name is its last column.
* `Registry.ofColumns_staged` — merging in stages is merging at once.
* `Registry.merge_in_place` — **a registry is a merge of its lists, and all its views are of the
  same sequence.**
-/

namespace ResourceTable

/-! ### First occurrences -/

section FirstOccurrences

variable {α : Type} [BEq α] [LawfulBEq α]

/-- An element at the end is kept if it is a new one. -/
theorem eraseDups_concat (as : List α) (a : α) :
    (as ++ [a]).eraseDups = if a ∈ as then as.eraseDups else as.eraseDups ++ [a] := by
  rw [List.eraseDups_append]
  split
  · next h => simp [List.removeAll, h]
  · next h => simp [List.removeAll, h, List.eraseDups_cons]

/-- Repetitions in a part make no difference to the whole. -/
theorem eraseDups_part (as bs cs : List α) :
    (as ++ bs.eraseDups ++ cs).eraseDups = (as ++ bs ++ cs).eraseDups := by
  have hpart : (as ++ bs.eraseDups).eraseDups = (as ++ bs).eraseDups := by
    induction bs using List.reverseRecOn with
    | nil => rfl
    | append_singleton bs b ih =>
      rw [eraseDups_concat, ← List.append_assoc, eraseDups_concat]
      split
      · next h => rw [if_pos (List.mem_append_right _ h), ih]
      · next h =>
        rw [← List.append_assoc, eraseDups_concat, ih]
        simp [h]
  induction cs using List.reverseRecOn with
  | nil => simpa using hpart
  | append_singleton cs c ih =>
    rw [← List.append_assoc, ← List.append_assoc, eraseDups_concat, eraseDups_concat, ih]
    simp

end FirstOccurrences

/-! ### Last occurrences -/

namespace Column

/-- The column is the last one of its name. -/
def IsLast (c : Column) (cs : List Column) : Prop :=
  ∃ before after, cs = before ++ c :: after ∧ ∀ d ∈ after, d.name ≠ c.name

variable {c d : Column} {cs ds : List Column}

theorem isLast_append :
    c.IsLast (cs ++ ds) ↔ c.IsLast ds ∨ c.IsLast cs ∧ c.name ∉ ds.map name := by
  constructor
  · rintro ⟨before, after, heq, hafter⟩
    rcases List.append_eq_append_iff.1 heq with ⟨middle, rfl, rfl⟩ | ⟨middle, rfl, hback⟩
    · exact .inl ⟨middle, after, rfl, hafter⟩
    · cases middle with
      | nil => exact .inl ⟨[], after, hback.symm, hafter⟩
      | cons first middle =>
        obtain ⟨rfl, rfl⟩ := List.cons.inj hback
        obtain ⟨hmiddle, hds⟩ := List.forall_mem_append.1 hafter
        refine .inr ⟨⟨before, middle, rfl, hmiddle⟩, fun hmem => ?_⟩
        obtain ⟨d, hd, hname⟩ := List.mem_map.1 hmem
        exact hds d hd hname
  · rintro (⟨before, after, rfl, hafter⟩ | ⟨⟨before, after, rfl, hafter⟩, hnot⟩)
    · exact ⟨cs ++ before, after, by simp, hafter⟩
    · refine ⟨before, after ++ ds, by simp, List.forall_mem_append.2 ⟨hafter, ?_⟩⟩
      exact fun d hd hname => hnot (List.mem_map.2 ⟨d, hd, hname⟩)

theorem isLast_singleton : c.IsLast [d] ↔ c = d := by
  constructor
  · rintro ⟨before, after, heq, -⟩
    cases before with
    | nil => exact (List.cons.inj heq).1.symm
    | cons first before => simp at heq
  · rintro rfl
    exact ⟨[], [], rfl, by simp⟩

theorem IsLast.mem (h : c.IsLast cs) : c ∈ cs := by
  obtain ⟨before, after, rfl, -⟩ := h
  simp

/-- Where names are distinct, every column is the last one of its name. -/
theorem isLast_of_nodup (h : (cs.map name).Nodup) : c.IsLast cs ↔ c ∈ cs := by
  constructor
  · exact IsLast.mem
  · intro hc
    obtain ⟨before, after, rfl⟩ := List.append_of_mem hc
    rw [List.map_append, List.map_cons] at h
    have hnot := (List.nodup_cons.1 (List.nodup_append.1 h).2.1).1
    exact ⟨before, after, rfl, fun d hd hname => hnot (List.mem_map.2 ⟨d, hd, hname⟩)⟩

/-- A column that is placed replaces the one of its name. -/
theorem mem_place : ∀ {l : List Column}, (l.map name).Nodup →
    (d ∈ c.place l ↔ d = c ∨ d ∈ l ∧ d.name ≠ c.name) := by
  intro l
  induction l with
  | nil => simp [place]
  | cons first rest ih =>
    intro h
    rw [List.map_cons, List.nodup_cons] at h
    unfold place
    split
    · next hname =>
      have hrest : d ∈ rest → d.name ≠ c.name := by
        rintro hd he
        exact h.1 (hname ▸ he ▸ List.mem_map_of_mem hd)
      rw [List.mem_cons, List.mem_cons]
      constructor
      · rintro (rfl | hd)
        · exact .inl rfl
        · exact .inr ⟨.inr hd, hrest hd⟩
      · rintro (rfl | ⟨rfl | hd, hne⟩)
        · exact .inl rfl
        · exact absurd hname hne
        · exact .inr hd
    · next hname =>
      rw [List.mem_cons, List.mem_cons, ih h.2]
      constructor
      · rintro (rfl | rfl | ⟨hd, hne⟩)
        · exact .inr ⟨.inl rfl, hname⟩
        · exact .inl rfl
        · exact .inr ⟨.inr hd, hne⟩
      · rintro (rfl | ⟨rfl | hd, hne⟩)
        · exact .inr (.inl rfl)
        · exact .inl rfl
        · exact .inr (.inr ⟨hd, hne⟩)

end Column

/-! ### Merging -/

namespace Registry

section Merging

variable (assignsId : Bool) (cs : List Column)

theorem ofColumns_concat (c : Column) :
    (ofColumns assignsId (cs ++ [c])).columns = c.place (ofColumns assignsId cs).columns := by
  rw [ofColumns, List.foldl_append]
  rfl

theorem assignsId_ofColumns : (ofColumns assignsId cs).assignsId = assignsId := by
  induction cs using List.reverseRecOn with
  | nil => rfl
  | append_singleton cs c ih =>
    rw [ofColumns, List.foldl_append]
    exact ih

/-- **Names stand in the order of their first occurrences.** -/
theorem names_ofColumns : (ofColumns assignsId cs).names = (cs.map Column.name).eraseDups := by
  induction cs using List.reverseRecOn with
  | nil => rfl
  | append_singleton cs c ih =>
    have hmem : c.name ∈ (ofColumns assignsId cs).columns.map Column.name ↔
        c.name ∈ cs.map Column.name := by
      rw [← names, ih, List.mem_eraseDups]
    rw [names, ofColumns_concat, Column.names_place, ← names, ih, List.map_append,
      List.map_singleton, eraseDups_concat]
    simp only [← ih, names, hmem]

/-- **What stands under a name is its last column.** -/
theorem mem_ofColumns {c : Column} : c ∈ (ofColumns assignsId cs).columns ↔ c.IsLast cs := by
  induction cs using List.reverseRecOn with
  | nil =>
    have hnot : ¬ c.IsLast [] := fun h => nomatch h.mem
    exact iff_of_false List.not_mem_nil hnot
  | append_singleton cs d ih =>
    rw [ofColumns_concat, Column.mem_place (ofColumns assignsId cs).nodup, ih,
      Column.isLast_append, Column.isLast_singleton]
    simp

variable {assignsId cs}

theorem eq_of_columns {r s : Registry} (hcolumns : r.columns = s.columns)
    (hassigns : r.assignsId = s.assignsId) : r = s := by
  cases r
  cases s
  cases hcolumns
  cases hassigns
  rfl

/-- Columns are told by their names, in order, and by what stands under them. -/
theorem columns_ext : ∀ {l m : List Column}, l.map Column.name = m.map Column.name →
    (l.map Column.name).Nodup → (∀ c, c ∈ l ↔ c ∈ m) → l = m := by
  intro l m hnames hnodup hmem
  have hnodup' : (m.map Column.name).Nodup := hnames ▸ hnodup
  refine List.ext_getElem ?_ fun i hi hi' => ?_
  · simpa using congrArg List.length hnames
  · have hname : l[i].name = m[i].name := by
      have hsame := List.getElem_of_eq hnames (i := i) (by simpa using hi)
      simpa using hsame
    exact List.inj_on_of_nodup_map hnodup' ((hmem _).1 (List.getElem_mem hi))
      (List.getElem_mem hi') hname

/-- **Merging in stages is merging at once**, wherever the registry's own columns come among
the others. -/
theorem ofColumns_staged (front mid back : List Column) (other : Bool) :
    ofColumns assignsId (front ++ (ofColumns other mid).columns ++ back) =
      ofColumns assignsId (front ++ mid ++ back) := by
  have hnames : (ofColumns assignsId (front ++ (ofColumns other mid).columns ++ back)).names =
      (ofColumns assignsId (front ++ mid ++ back)).names := by
    rw [names_ofColumns, names_ofColumns]
    simp only [List.map_append]
    rw [← names, names_ofColumns, eraseDups_part]
  have hmid (c : Column) : c.IsLast (ofColumns other mid).columns ↔ c.IsLast mid := by
    rw [Column.isLast_of_nodup (ofColumns other mid).nodup, mem_ofColumns]
  have hcolumns : (ofColumns assignsId (front ++ (ofColumns other mid).columns ++ back)).columns =
      (ofColumns assignsId (front ++ mid ++ back)).columns := by
    refine columns_ext hnames (Registry.nodup _) fun c => ?_
    have hmem : c.name ∈ (ofColumns other mid).columns.map Column.name ↔
        c.name ∈ mid.map Column.name := by
      rw [← names, names_ofColumns, List.mem_eraseDups]
    rw [mem_ofColumns, mem_ofColumns]
    simp only [Column.isLast_append, hmid, hmem]
  exact eq_of_columns hcolumns
    ((assignsId_ofColumns assignsId _).trans (assignsId_ofColumns assignsId _).symm)

end Merging

/-! ### Views -/

section Views

variable (r : Registry)

theorem column?_eq_some_iff {name : String} {c : Column} :
    r.column? name = some c ↔ c ∈ r.columns ∧ c.name = name := by
  constructor
  · exact column?_eq_some
  · rintro ⟨hc, rfl⟩
    obtain ⟨d, hd⟩ := Option.isSome_iff_exists.1 (contains_iff.2 (List.mem_map_of_mem hc))
    obtain ⟨hmem, hname⟩ := column?_eq_some hd
    rw [hd, List.inj_on_of_nodup_map r.nodup hmem hc hname]

theorem column?_eq_none_iff {name : String} : r.column? name = none ↔ name ∉ r.names := by
  rw [← contains_iff, contains, Bool.not_eq_true, Option.isSome_eq_false_iff,
    Option.isNone_iff_eq_none]

/-- The types are those of the columns that are found. -/
theorem get?_types (name : String) : r.types.get? name = (r.column? name).map Column.type := by
  have hnodup : ((r.columns.map fun c => (c.name, c.type)).map Prod.fst).Nodup := by
    rw [List.map_map]
    exact r.nodup
  rw [types, NameMap.get?_ofList hnodup]
  cases hcolumn : r.column? name with
  | some c =>
    obtain ⟨hc, rfl⟩ := column?_eq_some hcolumn
    exact NameMap.lookup_of_mem hnodup (List.mem_map_of_mem hc)
  | none =>
    refine NameMap.lookup_eq_none_of_notMem fun hmem => ?_
    rw [List.map_map] at hmem
    exact r.column?_eq_none_iff.1 hcolumn hmem

end Views

/-- What a registry says of its columns: the columns `l` in their order, and of them the columns
`inserted` in an insertion. -/
structure Describes (r : Registry) (l inserted : List Column) : Prop where
  /-- The columns and their names, -/
  columns : r.columns = l
  names : r.names = l.map Column.name
  /-- what is found under the names, and under no others, -/
  found : r.names.map r.column? = l.map some
  unknown : ∀ name ∉ r.names, r.column? name = none
  /-- the types of the names, and of no others, -/
  types : r.names.map r.types.get? = l.map fun c => some c.type
  untyped : ∀ name, name ∈ r.types.keys ↔ name ∈ r.names
  /-- the projection, -/
  projection : r.projection = String.intercalate ", " (l.map fun c =>
    if c.title = c.name then c.name else c.name ++ " AS \"" ++ c.title ++ "\"")
  /-- and the columns of an insertion, the list of their names, and the list of what is stored
  in them. -/
  insertedNames : r.insertedNames = inserted.map Column.name
  insertList : r.insertList = String.intercalate ", " (inserted.map Column.name)
  insertSources : r.insertSources = String.intercalate ", " (inserted.map fun c =>
    if c.type = .time then "now()" else ":" ++ c.name)

/-- **A registry says the same of its columns everywhere.** -/
theorem describes (r : Registry) : r.Describes r.columns
    (r.columns.filter fun c => ¬ (r.assignsId = true ∧ c.name = "id")) := by
  have hfound {c : Column} (hc : c ∈ r.columns) : r.column? c.name = some c :=
    r.column?_eq_some_iff.2 ⟨hc, rfl⟩
  have hinserted : r.inserted =
      r.columns.filter fun c => ¬ (r.assignsId = true ∧ c.name = "id") := by
    unfold inserted
    refine List.filter_congr fun c _ => ?_
    simp [beq_eq_decide]
  refine ⟨rfl, rfl, ?_, fun name => r.column?_eq_none_iff.2, ?_, fun name => ?_, rfl, ?_, ?_, ?_⟩
  · rw [Registry.names, List.map_map]
    exact List.map_congr_left fun c hc => hfound hc
  · rw [Registry.names, List.map_map]
    refine List.map_congr_left fun c hc => ?_
    rw [Function.comp_apply, get?_types, hfound hc]
    rfl
  · rw [NameMap.mem_keys_iff, get?_types, Option.isSome_map, ← contains_iff, contains]
  · rw [Registry.insertedNames, hinserted]
  · rw [Registry.insertList, Registry.insertedNames, hinserted]
  · rw [Registry.insertSources, hinserted]
    rfl

/-- **A registry is the merge of its lists.**  Every name stands once, where it occurred first,
with the title and the type of its last occurrence; all views are of this sequence; what was
merged before can be merged again; and titles, if they are distinct, stand for their columns. -/
theorem merge_in_place (assignsId : Bool) (lists : List (List Column)) :
    let r := ofLists assignsId lists
    (r.names = (lists.flatten.map Column.name).eraseDups ∧ r.names.Nodup ∧
      ∀ c, c ∈ r.columns ↔ c.IsLast lists.flatten) ∧
    r.Describes r.columns
      (r.columns.filter fun c => ¬ (assignsId = true ∧ c.name = "id")) ∧
    (∀ other front more, ofLists other (front ++ r.columns :: more) =
      ofLists other (front ++ lists ++ more)) ∧
    ((r.columns.map Column.title).Nodup →
      (∀ c ∈ r.columns, ∀ title, r.nameOfTitle? title = some c.name ↔ title = c.title) ∧
      ∀ title, title ∉ r.columns.map Column.title → r.nameOfTitle? title = none) := by
  intro r
  refine ⟨⟨names_ofColumns assignsId _, r.nodup, fun c => mem_ofColumns assignsId _⟩, ?views,
    ?staged, ?titles⟩
  case views =>
    have hviews := r.describes
    rwa [show r.assignsId = assignsId from assignsId_ofColumns assignsId _] at hviews
  case staged =>
    intro other front more
    have hstaged : ofColumns other (front.flatten ++ r.columns ++ more.flatten) =
        ofColumns other (front.flatten ++ lists.flatten ++ more.flatten) :=
      ofColumns_staged front.flatten lists.flatten more.flatten assignsId
    simp only [ofLists, List.flatten_append, List.flatten_cons, List.append_assoc] at hstaged ⊢
    exact hstaged
  case titles =>
    intro htitles
    refine ⟨fun c hc title => ⟨fun hname => ?_, ?_⟩, fun title hnot => ?_⟩
    · obtain ⟨d, hd, hsame⟩ := Option.map_eq_some_iff.1 hname
      have hdc : d = c := List.inj_on_of_nodup_map r.nodup (List.mem_of_find?_eq_some hd) hc hsame
      have htitle := List.find?_some (p := fun d : Column => d.title == title) hd
      rw [← hdc, beq_iff_eq.1 htitle]
    · rintro rfl
      exact nameOfTitle?_title htitles hc
    · rw [nameOfTitle?, Option.map_eq_none_iff, List.find?_eq_none]
      intro d hd htitle
      exact hnot (List.mem_map.2 ⟨d, hd, beq_iff_eq.1 htitle⟩)

/-- Columns of which two come again with other titles, one of them also with another type. -/
def overlappingLists : List (List Column) :=
  [[.plain "id" .string, .plain "name" .string, .plain "zone" .string],
    Column.qualify "spec" [[.plain "name" .json, .plain "cpu" .numeric]], [.plain "zone" .numeric]]

theorem overlappingLists_merged :
    (ofLists true overlappingLists).columns =
        [.plain "id" .string, ⟨"name", "spec.name", .json⟩, .plain "zone" .numeric,
          ⟨"cpu", "spec.cpu", .numeric⟩] ∧
      ((ofLists true overlappingLists).columns.map Column.title).Nodup ∧
      (ofLists true overlappingLists).insertSources = ":name, :zone, :cpu" ∧
      (ofLists true overlappingLists).nameOfTitle? "spec.name" = some "name" ∧
      (ofLists true overlappingLists).nameOfTitle? "name" = none := by
  have hcolumns : (ofLists true overlappingLists).columns =
      [.plain "id" .string, ⟨"name", "spec.name", .json⟩, .plain "zone" .numeric,
        ⟨"cpu", "spec.cpu", .numeric⟩] := by decide
  obtain ⟨-, hviews, -, htitles⟩ := merge_in_place true overlappingLists
  have hnodup : ((ofLists true overlappingLists).columns.map Column.title).Nodup := by
    rw [hcolumns]
    decide
  obtain ⟨hnames, hothers⟩ := htitles hnodup
  refine ⟨hcolumns, hnodup, ?_, ?_, ?_⟩
  · rw [hviews.insertSources, hcolumns]
    decide
  · exact (hnames ⟨"name", "spec.name", .json⟩ (by rw [hcolumns]; decide) "spec.name").2 rfl
  · exact hothers "name" (by rw [hcolumns]; decide)

end Registry

end ResourceTable
