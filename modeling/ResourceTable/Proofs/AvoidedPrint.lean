import ResourceTable.Filter.Clause
import ResourceTable.Proofs.PrintBinding

/-!
# Clauses with other names

A clause that becomes part of a statement gives up the names that the statement uses.
The new names are not in use, so that what was told apart stays told apart, and the
print of the clause keeps everything but the names in its holes.

## Main definitions

* `Clause.renamed`: the name that a list of changes gives to a name.
* `Clause.renamedInks`: a print with other names in its holes.

## Main results

* `get?_ofList`, `get?_union` — what is found in a map that was put together.
* `renamed_injective` — names that are told apart stay told apart.
* `avoiding_named` — **a clause with other names has the same print but for them.**
-/

namespace ResourceTable

/-! ### Maps of entries -/

namespace NameMap

variable {α : Type}

theorem lookup_eq_none_of_notMem {name : String} {l : List (String × α)}
    (h : name ∉ l.map Prod.fst) : lookup name l = none :=
  lookup_eq_none_iff.2 fun p hp he => h (List.mem_map.2 ⟨p, hp, he⟩)

/-- Entries of distinct names that are stored one after the other. -/
theorem get?_foldl_insert {name : String} : ∀ {l : List (String × α)} (m : NameMap α),
    (l.map Prod.fst).Nodup →
      (l.foldl (fun m entry => m.insert entry.1 entry.2) m).get? name =
        (lookup name l).or (m.get? name) := by
  intro l
  induction l with
  | nil => intro m _; rfl
  | cons p rest ih =>
    intro m h
    obtain ⟨key, value⟩ := p
    obtain ⟨hkey, hrest⟩ := List.nodup_cons.1 h
    rw [List.foldl_cons, ih _ hrest, get?_insert, lookup]
    by_cases he : key = name
    · subst he
      rw [lookup_eq_none_of_notMem hkey, if_pos rfl, if_pos rfl]
      rfl
    · rw [if_neg he, if_neg he]

/-- A map of entries of distinct names holds these entries. -/
theorem get?_ofList {l : List (String × α)} (h : (l.map Prod.fst).Nodup) (name : String) :
    (ofList l).get? name = lookup name l := by
  rw [ofList, get?_foldl_insert _ h, get?_empty, Option.or_none]

theorem nodup_keys (m : NameMap α) : m.keys.Nodup := by
  refine m.keys_pairwise.imp ?_
  rintro a _ h rfl
  exact String.lt_irrefl a h

/-- What is found in two maps of which the second one covers the first one. -/
theorem get?_union (m n : NameMap α) (name : String) :
    (m.union n).get? name = (n.get? name).or (m.get? name) := by
  rw [union, get?_foldl_insert _ n.nodup_keys]
  rfl

theorem lookup_of_mem {name : String} {value : α} {l : List (String × α)}
    (h : (l.map Prod.fst).Nodup) (hmem : (name, value) ∈ l) : lookup name l = some value := by
  induction l with
  | nil => cases hmem
  | cons p rest ih =>
    obtain ⟨key, other⟩ := p
    obtain ⟨hkey, hrest⟩ := List.nodup_cons.1 h
    rw [lookup]
    rcases List.mem_cons.1 hmem with he | hmem
    · cases he
      exact if_pos rfl
    · have hne : key ≠ name := fun he => hkey (he ▸ List.mem_map.2 ⟨_, hmem, rfl⟩)
      rw [if_neg hne, ih hrest hmem]

theorem mem_keys_ofList {l : List (String × α)} (h : (l.map Prod.fst).Nodup) {name : String} :
    name ∈ (ofList l).keys ↔ name ∈ l.map Prod.fst := by
  rw [mem_keys_iff, get?_ofList h]
  constructor
  · intro hsome
    by_contra hnot
    rw [lookup_eq_none_of_notMem hnot] at hsome
    cases hsome
  · intro hmem
    obtain ⟨⟨key, value⟩, hp, rfl⟩ := List.mem_map.1 hmem
    rw [lookup_of_mem h hp]
    rfl

end NameMap

/-! ### New names -/

namespace Clause

variable {taken used : List String}

/-- What the changes of names are: of names that are taken, to names that are not in
use. -/
theorem mem_renames {p : String × String} : ∀ {l : List String} {used : List String},
    p ∈ renames taken used l →
      p.1 ∈ l ∧ p.1 ∈ taken ∧ p.2 ∉ used ∧
        (isBareName p.1.toList = true → isBareName p.2.toList = true) := by
  intro l
  induction l with
  | nil => intro used h; cases h
  | cons name rest ih =>
    intro used h
    rw [renames] at h
    split at h
    · next htaken =>
      rcases List.mem_cons.1 h with rfl | h
      · exact ⟨List.mem_cons_self, List.contains_iff_mem.1 htaken, freshName_notMem name used,
          fun hbare => isBareName_freshName hbare used⟩
      · obtain ⟨hmem, htaken, hused, hbare⟩ := ih h
        exact ⟨List.mem_cons_of_mem name hmem, htaken,
          fun hin => hused (List.mem_cons_of_mem _ hin), hbare⟩
    · obtain ⟨hmem, hrest⟩ := ih h
      exact ⟨List.mem_cons_of_mem name hmem, hrest⟩

/-- Names that are taken are changed. -/
theorem exists_mem_renames {name : String} (htaken : name ∈ taken) : ∀ {l used : List String},
    name ∈ l → ∃ fresh, (name, fresh) ∈ renames taken used l := by
  intro l
  induction l with
  | nil => intro used h; cases h
  | cons other rest ih =>
    intro used h
    rw [renames]
    rcases List.mem_cons.1 h with rfl | h
    · rw [if_pos (List.contains_iff_mem.2 htaken)]
      exact ⟨_, List.mem_cons_self⟩
    · split
      · obtain ⟨fresh, hfresh⟩ := ih h
        exact ⟨fresh, List.mem_cons_of_mem _ hfresh⟩
      · exact ih h

/-- No two names are changed to the same name. -/
theorem nodup_renames : ∀ {l used : List String},
    ((renames taken used l).map Prod.snd).Nodup := by
  intro l
  induction l with
  | nil => intro used; exact .nil
  | cons name rest ih =>
    intro used
    rw [renames]
    split
    · rw [List.map_cons, List.nodup_cons]
      refine ⟨fun hmem => ?_, ih⟩
      obtain ⟨p, hp, he⟩ := List.mem_map.1 hmem
      exact (mem_renames hp).2.2.1 (he ▸ List.mem_cons_self)
    · exact ih

/-- The name that a list of changes gives to a name. -/
def renamed (changes : List (String × String)) (name : String) : String :=
  (changes.lookup name).getD name

theorem mem_of_lookup {changes : List (String × String)} {name fresh : String}
    (h : changes.lookup name = some fresh) : (name, fresh) ∈ changes := by
  obtain ⟨front, back, hsplit, -⟩ := List.lookup_eq_some_iff.1 h
  rw [hsplit]
  exact List.mem_append_right front List.mem_cons_self

section Renaming

variable {keys : List String}

/-- Names that are told apart stay told apart. -/
theorem renamed_injective (hused : ∀ name ∈ keys, name ∈ used) {a b : String} (ha : a ∈ keys)
    (hb : b ∈ keys)
    (h : renamed (renames taken used keys) a = renamed (renames taken used keys) b) : a = b := by
  unfold renamed at h
  cases hx : (renames taken used keys).lookup a with
  | none =>
    cases hy : (renames taken used keys).lookup b with
    | none =>
      rw [hx, hy] at h
      exact h
    | some y =>
      have hay : a = y := by rwa [hx, hy] at h
      exact absurd (hay ▸ hused a ha) (mem_renames (mem_of_lookup hy)).2.2.1
  | some x =>
    cases hy : (renames taken used keys).lookup b with
    | none =>
      have hxb : x = b := by rwa [hx, hy] at h
      exact absurd (hxb ▸ hused b hb) (mem_renames (mem_of_lookup hx)).2.2.1
    | some y =>
      rw [hx, hy] at h
      have hpair := List.inj_on_of_nodup_map nodup_renames (mem_of_lookup hx) (mem_of_lookup hy) h
      exact congrArg Prod.fst hpair

/-- A new name is none of those that are taken. -/
theorem renamed_notMem (htaken : ∀ name ∈ taken, name ∈ used) {name : String} (h : name ∈ keys) :
    renamed (renames taken used keys) name ∉ taken := by
  unfold renamed
  cases hx : (renames taken used keys).lookup name with
  | none =>
    intro hmem
    have hchanged : ∃ fresh, (name, fresh) ∈ renames taken used keys := exists_mem_renames hmem h
    obtain ⟨fresh, hfresh⟩ := hchanged
    have hne := List.lookup_eq_none_iff.1 hx _ hfresh
    simp at hne
  | some x => exact fun hmem => (mem_renames (mem_of_lookup hx)).2.2.1 (htaken x hmem)

theorem isBareName_renamed {name : String} (h : isBareName name.toList = true) :
    isBareName (renamed (renames taken used keys) name).toList = true := by
  unfold renamed
  cases hx : (renames taken used keys).lookup name with
  | none => exact h
  | some x => exact (mem_renames (mem_of_lookup hx)).2.2.2 h

end Renaming

/-! ### The clause -/

/-- What a clause with other names binds. -/
def renamedEntries (changes : List (String × String)) (params : Params) : List (String × Param) :=
  params.entries.map fun entry => (renamed changes entry.1, entry.2)

theorem nodup_renamedEntries (c : Clause) (hused : ∀ name ∈ c.params.keys, name ∈ used) :
    ((renamedEntries (renames taken used c.params.keys) c.params).map Prod.fst).Nodup := by
  have hmap : (renamedEntries (renames taken used c.params.keys) c.params).map Prod.fst =
      c.params.keys.map (renamed (renames taken used c.params.keys)) := by
    rw [renamedEntries, List.map_map, NameMap.keys, List.map_map]
    rfl
  rw [hmap]
  refine (List.nodup_map_iff_inj_on c.params.nodup_keys).2 fun a ha b hb h => ?_
  exact renamed_injective hused ha hb h

/-- A clause with other names, whether or not there is something to change. -/
theorem avoiding_eq_renamed (c : Clause) (taken : List String) {changes : List (String × String)}
    (hchanges : changes = renames taken (taken ++ c.params.keys) c.params.keys) :
    c.avoiding taken = c ∧ changes = [] ∨
      c.avoiding taken = { c with
        sql := Placeholder.substitute (fun name => (changes.lookup name).map (":" ++ ·)) c.sql
        params := .ofList (renamedEntries changes c.params) } := by
  unfold avoiding
  rw [← hchanges]
  by_cases h : changes.isEmpty = true
  · exact .inl ⟨if_pos h, List.isEmpty_iff.1 h⟩
  · exact .inr (if_neg h)

section Print

variable {params : Params} {is : List (Ink (String × Param))} {changes : List (String × String)}

/-- A print with other names in its holes. -/
def renamedInks (changes : List (String × String)) (is : List (Ink (String × Param))) :
    List (Ink (String × Param)) :=
  is.map (Ink.map fun b => (renamed changes b.1, b.2))

/-- All but the names stays. -/
theorem map_renamedInks : (renamedInks changes is).map (Ink.map Prod.snd) =
    is.map (Ink.map Prod.snd) := by
  rw [renamedInks, List.map_map]
  refine List.map_congr_left fun i _ => ?_
  cases i <;> rfl

/-- Replacing placeholders by others gives the print with other names. -/
theorem substitute_namedText (h : Named params is) :
    Placeholder.substitute (fun name => (changes.lookup name).map (":" ++ ·)) (namedText is) =
      namedText (renamedInks changes is) := by
  rw [Named.namedText_eq, substitute_print (h.legible.map _) h.bareHoles, namedText, renamedInks,
    print_map, print_map]
  refine congrArg String.ofList (print_congr fun b _ => ?_)
  rw [Function.comp_apply, Function.comp_apply, renamed]
  cases changes.lookup b.1 with
  | none => rfl
  | some fresh =>
    show (":" ++ fresh).toList = ':' :: fresh.toList
    rw [String.toList_append]
    rfl

/-- A print with other names is named by what is bound to these. -/
theorem named_renamedInks (h : Named params is)
    (hnodup : ((renamedEntries changes params).map Prod.fst).Nodup)
    (hbare : ∀ {name : String}, isBareName name.toList = true →
      isBareName (renamed changes name).toList = true) :
    Named (.ofList (renamedEntries changes params)) (renamedInks changes is) := by
  -- A hole of the new print is one of the old print under its new name.
  have hholes : ∀ b ∈ holesOf (renamedInks changes is),
      ∃ a ∈ holesOf is, (renamed changes a.1, a.2) = b := by
    intro b hb
    rw [renamedInks, holesOf_map] at hb
    exact List.mem_map.1 hb
  refine ⟨h.legible.map _, fun b hb => ?_, fun b hb => ?_, fun b hb => ?_⟩
  · obtain ⟨a, ha, rfl⟩ := hholes b hb
    exact hbare (h.bare a ha)
  · obtain ⟨a, ha, rfl⟩ := hholes b hb
    have hentry := NameMap.get?_eq_some_iff.1 (h.bound a ha)
    rw [NameMap.get?_ofList hnodup]
    exact NameMap.lookup_of_mem hnodup (List.mem_map.2 ⟨a, hentry, rfl⟩)
  · obtain ⟨a, ha, rfl⟩ := hholes b hb
    exact h.nonempty a ha

end Print

/-- **A clause with other names has the same print but for them**, and none of them is
one that is taken. -/
theorem avoiding_named {c : Clause} {is : List (Ink (String × Param))} (hsql : c.sql = namedText is)
    (h : Named c.params is) (taken : List String) :
    ∃ is', (c.avoiding taken).sql = namedText is' ∧ Named (c.avoiding taken).params is' ∧
      is'.map (Ink.map Prod.snd) = is.map (Ink.map Prod.snd) ∧
      ∀ name ∈ (c.avoiding taken).params.keys, name ∉ taken := by
  let used := taken ++ c.params.keys
  let changes := renames taken used c.params.keys
  have hused : ∀ name ∈ c.params.keys, name ∈ used := fun _ => List.mem_append_right taken
  have htaken : ∀ name ∈ taken, name ∈ used := fun _ => List.mem_append_left _
  have hchanges : changes = renames taken used c.params.keys := rfl
  rcases c.avoiding_eq_renamed taken hchanges with ⟨hsame, hnone⟩ | hother
  · -- Nothing is changed, so that no name was taken.
    rw [hsame]
    refine ⟨is, hsql, h, rfl, fun name hname hin => ?_⟩
    have hchanged : ∃ fresh, (name, fresh) ∈ renames taken used c.params.keys :=
      exists_mem_renames hin hname
    obtain ⟨fresh, hfresh⟩ := hchanged
    rw [← hchanges, hnone] at hfresh
    cases hfresh
  · rw [hother]
    have hnodup : ((renamedEntries changes c.params).map Prod.fst).Nodup :=
      c.nodup_renamedEntries hused
    have htext : Placeholder.substitute (fun name => (changes.lookup name).map (":" ++ ·)) c.sql =
        namedText (renamedInks changes is) := by
      rw [hsql]
      exact substitute_namedText h
    refine ⟨renamedInks changes is, htext, named_renamedInks h hnodup isBareName_renamed,
      map_renamedInks, fun name hname => ?_⟩
    rw [NameMap.mem_keys_ofList hnodup] at hname
    obtain ⟨p, hp, rfl⟩ := List.mem_map.1 hname
    obtain ⟨entry, hentry, rfl⟩ := List.mem_map.1 hp
    exact renamed_notMem htaken (List.mem_map.2 ⟨entry, hentry, rfl⟩)

end Clause

end ResourceTable
