import ResourceTable.Proofs.FreshName

/-!
# Paths of identifiers

A field is a column, or a column and the keys of a path into its document.  The text
of such a path goes into a statement between single quotes, which none of its
characters can close.

## Main definitions

* `IsFieldPath`: identifiers joined by dots, the first of which does not begin with a
  digit.
* `pathText`: the text of a path of keys.

## Main results

* `cutAtMark_eq_some`, `splitAtMark_append` — what is before the first mark, and what
  is between marks.
* `quote_notMem_pathText` — **the text of a path holds no single quotes.**
-/

namespace ResourceTable

/-! ### Cutting and splitting -/

theorem cutAtMark_append {mark : Char} {a b : List Char} (h : mark ∉ a) :
    cutAtMark mark (a ++ mark :: b) = some (a, b) := by
  induction a with
  | nil => exact if_pos rfl
  | cons c rest ih =>
    have hc : c ≠ mark := fun e => h (e ▸ List.mem_cons_self)
    rw [List.cons_append, cutAtMark, if_neg hc, ih fun e => h (List.mem_cons_of_mem c e)]
    rfl

theorem cutAtMark_eq_some {mark : Char} : ∀ {cs a b : List Char},
    cutAtMark mark cs = some (a, b) → cs = a ++ mark :: b ∧ mark ∉ a := by
  intro cs
  induction cs with
  | nil => intro a b h; cases h
  | cons c rest ih =>
    intro a b h
    rw [cutAtMark] at h
    split at h
    · next hc =>
      cases h
      exact ⟨congrArg (· :: rest) hc, List.not_mem_nil⟩
    · next hc =>
      obtain ⟨⟨a', b'⟩, hcut, heq⟩ := Option.map_eq_some_iff.1 h
      cases heq
      obtain ⟨hrest, hnot⟩ := ih hcut
      refine ⟨congrArg (c :: ·) hrest, fun hmem => ?_⟩
      rcases List.mem_cons.1 hmem with he | hmem
      · exact hc he.symm
      · exact hnot hmem

theorem cutAtMark_eq_none_iff {mark : Char} {cs : List Char} :
    cutAtMark mark cs = none ↔ mark ∉ cs := by
  constructor
  · intro h hmem
    induction cs with
    | nil => cases hmem
    | cons c rest ih =>
      rw [cutAtMark] at h
      split at h
      · cases h
      · next hc =>
        rcases List.mem_cons.1 hmem with he | hmem
        · exact hc he.symm
        · exact ih (Option.map_eq_none_iff.1 h) hmem
  · intro h
    cases hcut : cutAtMark mark cs with
    | none => rfl
    | some p =>
      obtain ⟨hcs, -⟩ := cutAtMark_eq_some (a := p.1) (b := p.2) hcut
      exact absurd (hcs ▸ List.mem_append_right p.1 List.mem_cons_self) h

/-- A path of keys in the form that the database reads. -/
def pathText (keys : List Char) : String :=
  String.ofList ('$' :: (splitAtMark '.' keys).flatMap fun key => '.' :: '"' :: key ++ ['"'])

theorem documentPath_of_cut {field : String} {column keys : List Char}
    (h : cutAtMark '.' field.toList = some (column, keys)) :
    documentPath field = .ok (String.ofList column, pathText keys) := by
  rw [documentPath, h]
  rfl

/-! ### Paths of identifiers -/

/-- A path of identifiers: ASCII letters, digits and `_`, joined by dots, of which the
first is not a digit. -/
def IsFieldPath (cs : List Char) : Prop :=
  isKeyPath cs = true ∧ ∀ c ∈ cs.head?, c.isDigit = false

/-- Every field of the rules is a path of identifiers. -/
def FilterRules.HasFieldPaths (rules : FilterRules) : Prop :=
  ∀ field ∈ rules.fields.keys, IsFieldPath field.toList

theorem splitAtMark_append {mark : Char} {a b : List Char} (h : mark ∉ a) :
    splitAtMark mark (a ++ mark :: b) = a :: splitAtMark mark b := by
  induction a with
  | nil => exact if_pos rfl
  | cons c rest ih =>
    have hc : c ≠ mark := fun e => h (e ▸ List.mem_cons_self)
    rw [List.cons_append, splitAtMark, if_neg hc, ih fun e => h (List.mem_cons_of_mem c e)]

theorem splitAtMark_of_notMem {mark : Char} {cs : List Char} (h : mark ∉ cs) :
    splitAtMark mark cs = [cs] := by
  induction cs with
  | nil => rfl
  | cons c rest ih =>
    have hc : c ≠ mark := fun e => h (e ▸ List.mem_cons_self)
    rw [splitAtMark, if_neg hc, ih fun e => h (List.mem_cons_of_mem c e)]

theorem isKeyPath_append {a b : List Char} (h : '.' ∉ a) :
    isKeyPath (a ++ '.' :: b) = true ↔ isIdentifier a = true ∧ isKeyPath b = true := by
  rw [isKeyPath, isKeyPath, splitAtMark_append h, List.all_cons, Bool.and_eq_true]

theorem isKeyPath_of_notMem {cs : List Char} (h : '.' ∉ cs) :
    isKeyPath cs = isIdentifier cs := by
  rw [isKeyPath, splitAtMark_of_notMem h, List.all_cons, List.all_nil, Bool.and_true]

theorem splitAtMark_ne_nil (mark : Char) (cs : List Char) : splitAtMark mark cs ≠ [] := by
  cases cs with
  | nil => exact List.cons_ne_nil _ _
  | cons c rest =>
    rw [splitAtMark]
    split
    · exact List.cons_ne_nil _ _
    · split <;> exact List.cons_ne_nil _ _

/-- The parts of two texts that a mark joins. -/
theorem splitAtMark_join (mark : Char) (a b : List Char) :
    splitAtMark mark (a ++ mark :: b) = splitAtMark mark a ++ splitAtMark mark b := by
  induction a with
  | nil => exact if_pos rfl
  | cons c rest ih =>
    rw [List.cons_append, splitAtMark, splitAtMark, ih]
    by_cases hc : c = mark
    · rw [if_pos hc, if_pos hc, List.cons_append]
    · rw [if_neg hc, if_neg hc]
      cases hrest : splitAtMark mark rest with
      | nil => exact absurd hrest (splitAtMark_ne_nil mark rest)
      | cons part parts => rfl

/-- Key paths joined by a dot are a key path. -/
theorem isKeyPath_join {a b : List Char} (ha : isKeyPath a = true) (hb : isKeyPath b = true) :
    isKeyPath (a ++ '.' :: b) = true := by
  rw [isKeyPath] at ha hb ⊢
  rw [splitAtMark_join, List.all_append, ha, hb]
  rfl

theorem mem_splitAtMark {mark c : Char} {cs : List Char} (h : c ∈ cs) :
    c = mark ∨ ∃ part ∈ splitAtMark mark cs, c ∈ part := by
  induction cs with
  | nil => cases h
  | cons d rest ih =>
    rw [splitAtMark]
    split
    · next hd =>
      rcases List.mem_cons.1 h with rfl | h
      · exact .inl hd
      · exact (ih h).imp_right fun ⟨part, hpart, hc⟩ => ⟨part, List.mem_cons_of_mem _ hpart, hc⟩
    · split
      · next part parts hsplit =>
        rcases List.mem_cons.1 h with rfl | h
        · exact .inr ⟨c :: part, List.mem_cons_self, List.mem_cons_self⟩
        · refine (ih h).imp_right fun ⟨other, hother, hc⟩ => ?_
          rw [hsplit] at hother
          rcases List.mem_cons.1 hother with rfl | hother
          · exact ⟨d :: other, List.mem_cons_self, List.mem_cons_of_mem d hc⟩
          · exact ⟨other, List.mem_cons_of_mem _ hother, hc⟩
      · next hsplit =>
        rcases List.mem_cons.1 h with rfl | h
        · exact .inr ⟨[c], List.mem_cons_self, List.mem_cons_self⟩
        · refine (ih h).imp_right fun ⟨other, hother, hc⟩ => ?_
          rw [hsplit] at hother
          cases hother

/-- A path of identifiers begins like a name. -/
theorem IsFieldPath.exists_cons {cs : List Char} (h : IsFieldPath cs) :
    ∃ c rest, cs = c :: rest ∧ isNameStart c = true := by
  have hbare (a b : List Char) (ha : isIdentifier a = true) (hcs : cs = a ++ b) :
      ∃ c rest, cs = c :: rest ∧ isNameStart c = true := by
    have hdigit : ∀ c ∈ a.head?, c.isDigit = false := fun c hc =>
      h.2 c (by rw [hcs, List.head?_append, Option.mem_def.1 hc]; rfl)
    have hname := isBareName_of_isIdentifier ha hdigit
    cases a with
    | nil => cases hname
    | cons c rest => exact ⟨c, rest ++ b, hcs, (isBareName_cons.1 hname).1⟩
  cases hcut : cutAtMark '.' cs with
  | none =>
    have hident := h.1
    rw [isKeyPath_of_notMem (cutAtMark_eq_none_iff.1 hcut)] at hident
    exact hbare cs [] hident (List.append_nil cs).symm
  | some p =>
    obtain ⟨a, b⟩ := p
    obtain ⟨hcs, hdot⟩ := cutAtMark_eq_some hcut
    have hident := h.1
    rw [hcs, isKeyPath_append hdot] at hident
    exact hbare a ('.' :: b) hident.1 hcs

/-- The characters of a key path. -/
theorem mem_keyPath {cs : List Char} (h : isKeyPath cs = true) :
    ∀ c ∈ cs, isNamePart c = true ∨ c = '.' := by
  intro c hc
  rcases mem_splitAtMark hc with he | ⟨part, hpart, hmem⟩
  · exact .inr he
  · exact .inl ((isIdentifier_iff.1 (List.all_eq_true.1 h part hpart)).2 c hmem)

/-- The text of a path holds no single quotes. -/
theorem quote_notMem_pathText {keys : List Char} (h : isKeyPath keys = true) :
    '\x27' ∉ (pathText keys).toList := by
  rw [pathText, String.toList_ofList, List.mem_cons, not_or]
  refine ⟨by decide, fun hmem => ?_⟩
  obtain ⟨key, hkey, hmem⟩ := List.mem_flatMap.1 hmem
  have hparts := (isIdentifier_iff.1 (List.all_eq_true.1 h key hkey)).2
  simp only [List.mem_cons, List.mem_append, List.not_mem_nil, or_false, List.cons_append] at hmem
  rcases hmem with he | he | he | he
  · revert he; decide
  · revert he; decide
  · have hquote := hparts _ he
    revert hquote; decide
  · revert he; decide

end ResourceTable
