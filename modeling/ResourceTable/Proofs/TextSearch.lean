import ResourceTable.Proofs.CaseFolding
import ResourceTable.Proofs.CrownedStatement
import ResourceTable.Proofs.FilterTest
import ResourceTable.Proofs.PatternMatching

/-!
# Searches for a text

A rule can ask for a text somewhere in a column, with its case or in any case.  With its
case the text becomes a glob in escaped form, which asks for this text and nothing else.
In any case it becomes a like pattern as it stands, in lower case, and is compared with
the lower case of the column.  A wildcard in the text then remains one, so that more is
found than was asked for; and the two lower cases differ beyond ASCII, so that less is.

## Main definitions

* `Clause.Decides`, `Clause.Tells`: what the condition of a clause says of a row.
* `Rule.forText`: a rule that asks for a text.
* `OccursAnyCase`: a text occurs in another one in any case of ASCII letters.
* `IsVerbatim`: a text without characters that patterns give a meaning.

## Main results

* `globMatches_sought`, `likeMatches_sought` — what the two patterns match.
* `findsAnyCase_of_occurs`, `occurs_of_findsAnyCase` — what the second one finds.
* `tells_contains`, `tells_containsAnyCase` — **what the clause of a search says of a row.**
* `ValidFilter.search_any_case` — what is found in any case.
* `search_with_case` — what is found with its case.
* `ValidFilter.search_ignoring_case` — what is found with its case, and not without.
-/

namespace ResourceTable

open Sql Sql.Parse

/-! ### What a clause says of a row -/

namespace Clause

variable {c : Clause} {scope : Scope} {a b : Bool}

/-- Executed, the clause is read as a condition, which decides whether the row is one of
those that it is for. -/
def Decides (c : Clause) (scope : Scope) (b : Bool) : Prop :=
  ∃ sql cells test, c.query.bound = .ok (sql, cells) ∧
    condition (Lexeme.fill (Lexeme.scan sql.toList) cells) = .ok (some test, []) ∧
      test.holds scope = .ok b

theorem Decides.unique (h : c.Decides scope a) (h' : c.Decides scope b) : a = b := by
  obtain ⟨sql, cells, test, hbound, hread, hholds⟩ := h
  obtain ⟨sql', cells', test', hbound', hread', hholds'⟩ := h'
  obtain ⟨rfl, rfl⟩ := Prod.mk.inj (Except.ok.inj (hbound.symm.trans hbound'))
  obtain ⟨htest, -⟩ := Prod.mk.inj (Except.ok.inj (hread.symm.trans hread'))
  obtain rfl := Option.some.inj htest
  exact Except.ok.inj (hholds.symm.trans hholds')

/-- What the clause says of the rows with the text in the column, whatever else they
hold. -/
def Tells (c : Clause) (field t : String) (b : Bool) : Prop :=
  ∀ (scope : Scope) (affinity : Affinity),
    scope.column? field = some ⟨affinity, .text t⟩ → c.Decides scope b

/-- The clause does not say two things of them. -/
theorem Tells.iff {field t : String} (h : c.Tells field t a) : c.Tells field t b ↔ b = a := by
  refine ⟨fun h' => ?_, fun hb => hb ▸ h⟩
  have hslot : ((Scope.bare .epoch).withColumn field (.text t)).column? field =
      some ⟨.any, .text t⟩ := if_pos (beq_self_eq_true _)
  exact (h' _ _ hslot).unique (h _ _ hslot)

end Clause

namespace ValidFilter

variable {rules : FilterRules} {options : CompileOptions}

/-- The clause of a filter decides as the test of the filter does. -/
theorem decides (hnames : rules.HasFieldPaths) (v : ValidFilter rules)
    (hcrown : Filter.CrownPasses rules options.crown)
    (hwords : (v.arranged options).HasColumnWords) {scope : Scope} {b : Bool}
    (h : ((v.arranged options).asTest rules.fields).holds scope = .ok b) :
    (v.compiled options).Decides scope b := by
  have hbindable := v.bindable_print hnames hcrown
  have htokens := hbindable.tokens_bound_print
  rw [v.tokens_print options] at htokens
  obtain ⟨_, hread, test, rfl, hsame⟩ :=
    Filter.reads_condition (v.rulesPass hcrown) hwords _ [] htokens (.inl rfl)
  rw [List.append_nil] at hread
  exact ⟨_, _, test, hbindable.bound_print, hread, (Test.holds_iff_of_unplaced_eq hsame).2 h⟩

end ValidFilter

/-! ### Patterns up to a null character -/

theorem globEscape_takeWhile (w : List Char) :
    globEscape (w.takeWhile fun c => c.toNat != 0) =
      (globEscape w).takeWhile fun c => c.toNat != 0 := by
  induction w with
  | nil => rfl
  | cons c rest ih =>
    by_cases hc : c = '\x00'
    · subst hc
      rfl
    · have hne := toNat_bne_zero.2 hc
      rw [List.takeWhile_cons, if_pos hne, globEscape, globEscape, ih]
      split
      · rw [List.takeWhile_cons_of_pos (by rfl), List.takeWhile_cons, if_pos hne,
          List.takeWhile_cons_of_pos (by rfl)]
      · rw [List.takeWhile_cons, if_pos hne]

theorem null_mem_globEscape {w : List Char} : '\x00' ∈ globEscape w ↔ '\x00' ∈ w := by
  induction w with
  | nil => rfl
  | cons c rest ih =>
    rw [globEscape]
    split <;> simp [ih]

/-- What is seen of a text between two marks: the second one as well, unless the text has
a null character. -/
theorem seen_marked {mark : Char} (hmark : mark ≠ '\x00') (w : List Char) :
    PatternKind.seen (String.ofList (mark :: (w ++ [mark]))) =
      mark :: ((w.takeWhile fun c => c.toNat != 0) ++ if '\x00' ∈ w then [] else [mark]) := by
  have hfirst := toNat_bne_zero.2 hmark
  rw [PatternKind.seen, String.toList_ofList, List.takeWhile_cons, if_pos hfirst]
  congr 1
  induction w with
  | nil =>
    rw [List.nil_append, List.takeWhile_cons, if_pos hfirst]
    rfl
  | cons c rest ih =>
    by_cases hc : c = '\x00'
    · subst hc
      rfl
    · have hne := toNat_bne_zero.2 hc
      have hmem : '\x00' ∈ c :: rest ↔ '\x00' ∈ rest := by
        rw [List.mem_cons, or_iff_right (Ne.symm hc)]
      rw [List.cons_append, List.takeWhile_cons, if_pos hne, ih, List.takeWhile_cons, if_pos hne]
      simp only [hmem, List.cons_append]

section Seen

variable {s : String}

/-- Nothing that is seen is a null character. -/
theorem null_notMem_seen (t : String) : '\x00' ∉ PatternKind.seen t := fun h =>
  absurd (List.mem_takeWhile_imp h) (by decide)

theorem seen_of_null_notMem (h : '\x00' ∉ s.toList) : PatternKind.seen s = s.toList := by
  refine List.takeWhile_eq_self_iff.2 fun c hc => toNat_bne_zero.2 fun hnull => h ?_
  exact hnull ▸ hc

/-- What is seen is seen as a whole. -/
theorem seen_ofList_seen (s : String) : PatternKind.seen (String.ofList (PatternKind.seen s)) =
    PatternKind.seen s := by
  have htext : (String.ofList (PatternKind.seen s)).toList = PatternKind.seen s :=
    String.toList_ofList
  rw [seen_of_null_notMem (by rw [htext]; exact null_notMem_seen s), htext]

theorem seen_lowerText (t : String) : PatternKind.seen (Term.lowerText t) =
    (PatternKind.seen t).map asciiLower := by
  have hnull : ((fun c : Char => c.toNat != 0) ∘ asciiLower) = fun c => c.toNat != 0 := by
    funext c
    have hkept : asciiLower c = '\x00' ↔ c = '\x00' := asciiLower_eq_iff (by decide) (by decide)
    rw [Function.comp_apply, Bool.eq_iff_iff, toNat_bne_zero, toNat_bne_zero]
    exact not_congr hkept
  rw [PatternKind.seen, Term.lowerText, String.toList_ofList, List.takeWhile_map, hnull]
  rfl

end Seen

/-! ### What the two patterns match -/

section Patterns

variable {s t : String}

open Pattern

/-- The glob that a text becomes. -/
def exactPattern (s : String) : String := String.ofList ('*' :: (globEscape s.toList ++ ['*']))

/-- The like pattern that it becomes. -/
def anyCasePattern (s : String) : String := String.ofList ('%' :: (lowercase s.toList ++ ['%']))

/-- How like patterns compare characters. -/
abbrev sameAnyCase (c d : Char) : Bool := asciiLower c == asciiLower d

/-- **The glob of a text** asks for what is seen of it, at the end if that is not all. -/
theorem globMatches_sought {text : List Char} :
    globMatches (PatternKind.seen (exactPattern s)) text = true ↔
      ∃ front back, front ++ PatternKind.seen s ++ back = text ∧
        ('\x00' ∈ s.toList → back = []) := by
  have hitems : ofGlob (PatternKind.seen (exactPattern s)) =
      .run :: ((PatternKind.seen s).map escapedItem ++ ending (decide ('\x00' ∈ s.toList))) := by
    rw [exactPattern, seen_marked (by decide), ← globEscape_takeWhile, ofGlob, globItems,
      globItems_escape]
    congr 2
    rw [ending]
    simp only [null_mem_globEscape, decide_eq_true_eq]
    split <;> rfl
  rw [globMatches, hitems, accepts_around]
  simp only [accepts_escaped, decide_eq_true_eq]
  constructor
  · rintro ⟨front, _, back, htext, rfl, hback⟩
    exact ⟨front, back, htext, hback⟩
  · rintro ⟨front, back, htext, hback⟩
    exact ⟨front, _, back, htext, rfl, hback⟩

/-- **The like pattern of a text** asks for what the lower case of what is seen of it
matches, at the end if that is not all. -/
theorem likeMatches_sought {text : List Char} :
    likeMatches (PatternKind.seen (anyCasePattern s)) text = true ↔
      ∃ front middle back, front ++ middle ++ back = text ∧
        accepts sameAnyCase (ofLike (lowercase (PatternKind.seen s))) middle ∧
          ('\x00' ∈ s.toList → back = []) := by
  have hitems : ofLike (PatternKind.seen (anyCasePattern s)) =
      .run :: (ofLike (lowercase (PatternKind.seen s)) ++
        ending (decide ('\x00' ∈ s.toList))) := by
    have hnull : '\x00' ∈ lowercase s.toList ↔ '\x00' ∈ s.toList :=
      mem_lowercase_iff (by decide) (by decide)
    rw [anyCasePattern, seen_marked (by decide), ← lowercase_takeWhile, ofLike, List.map_cons,
      if_pos rfl, ← ofLike, ofLike_append]
    congr 2
    rw [ending]
    simp only [hnull, decide_eq_true_eq]
    split <;> rfl
  rw [likeMatches, hitems, accepts_around]
  simp only [decide_eq_true_eq]

/-- Whether a search for `s` with its case finds `t`. -/
def findsExactly (s t : String) : Bool :=
  globMatches (PatternKind.seen (exactPattern s)) (PatternKind.seen t)

/-- Whether a search for `s` in any case finds `t`. -/
def findsAnyCase (s t : String) : Bool :=
  likeMatches (PatternKind.seen (anyCasePattern s)) ((PatternKind.seen t).map asciiLower)

end Patterns

/-! ### What is found in any case -/

/-- A text occurs in what is seen of another one, in any case of ASCII letters. -/
def OccursAnyCase (s t : String) : Prop :=
  s.toList.map asciiLower <:+: (PatternKind.seen t).map asciiLower

instance (s t : String) : Decidable (OccursAnyCase s t) :=
  inferInstanceAs (Decidable (_ <:+: _))

/-- No character of the text has a meaning in like patterns, or ends them. -/
def IsVerbatim (s : String) : Prop := '%' ∉ s.toList ∧ '_' ∉ s.toList ∧ '\x00' ∉ s.toList

instance (s : String) : Decidable (IsVerbatim s) := inferInstanceAs (Decidable (_ ∧ _ ∧ _))

section AnyCase

variable {s t : String}

open Pattern

/-- **What occurs is found**, wildcards or not. -/
theorem findsAnyCase_of_occurs (hs : ∀ c ∈ s.toList, c.toNat < 0x80) (h : OccursAnyCase s t) :
    findsAnyCase s t = true := by
  obtain ⟨front, back, hoccurs⟩ := h
  have hnull : '\x00' ∉ s.toList := fun hmem => by
    have hlower : asciiLower '\x00' ∈ (PatternKind.seen t).map asciiLower := by
      rw [← hoccurs]
      exact List.mem_append_left _ (List.mem_append_right _ (List.mem_map_of_mem hmem))
    obtain ⟨c, hc, hsame⟩ := List.mem_map.1 hlower
    have hcnull : c = '\x00' := (asciiLower_eq_iff (by decide) (by decide)).1 hsame
    exact null_notMem_seen t (hcnull ▸ hc)
  refine likeMatches_sought.2 ⟨front, _, back, hoccurs, ?_, fun hmem => absurd hmem hnull⟩
  rw [seen_of_null_notMem hnull, lowercase_of_ascii hs]
  exact accepts_ofLike_self (fun c => beq_self_eq_true (asciiLower c)) _

/-- A text in lower case stays. -/
theorem map_asciiLower_of_lower {w : List Char} (h : ∀ c ∈ w, asciiLower c = c) :
    w.map asciiLower = w :=
  (List.map_congr_left h).trans (List.map_id' w)

/-- **Without wildcards nothing else is found.** -/
theorem occurs_of_findsAnyCase (hs : ∀ c ∈ s.toList, c.toNat < 0x80) (hverbatim : IsVerbatim s)
    (h : findsAnyCase s t = true) : OccursAnyCase s t := by
  obtain ⟨hrun, hone, hnull⟩ := hverbatim
  obtain ⟨front, middle, back, htext, hmiddle, -⟩ := likeMatches_sought.1 h
  rw [seen_of_null_notMem hnull] at hmiddle
  have hsame := (accepts_ofLike (mt (mem_lowercase_iff (by decide) (by decide)).1 hrun)
    (mt (mem_lowercase_iff (by decide) (by decide)).1 hone)).1 hmiddle
  rw [lowercase_of_ascii hs] at hsame
  have hmaps : (s.toList.map asciiLower).map asciiLower = middle.map asciiLower := by
    rw [← List.forall₂_eq_eq_eq, List.forall₂_map_left_iff, List.forall₂_map_right_iff]
    exact hsame.imp fun c d hcd => beq_iff_eq.1 hcd
  -- Both sides are in lower case already, so that what is the same in any case is equal.
  have hlower {w : List Char} : ∀ d ∈ w.map asciiLower, asciiLower d = d := by
    simp only [List.forall_mem_map]
    exact fun c _ => asciiLower_asciiLower c
  have hmem : ∀ d ∈ middle, d ∈ (PatternKind.seen t).map asciiLower := fun d hd => by
    rw [← htext]
    exact List.mem_append_left _ (List.mem_append_right _ hd)
  rw [map_asciiLower_of_lower hlower,
    map_asciiLower_of_lower fun d hd => hlower d (hmem d hd)] at hmaps
  exact ⟨front, back, hmaps ▸ htext⟩

/-- What a character of a text is filled with: the place of one character with a letter, and
the place of any number with none. -/
def filled (c : Char) : List Char := if c = '%' then [] else if c = '_' then ['x'] else [c]

/-- What the wildcards of a text may stand for, and no wildcard. -/
def unwanted (s : String) : String := String.ofList ((PatternKind.seen s).flatMap filled)

theorem mem_filled {c d : Char} (h : d ∈ filled c) :
    d ≠ '%' ∧ d ≠ '_' ∧ (d = c ∨ d = 'x') := by
  unfold filled at h
  split_ifs at h with hrun hone
  · cases h
  · obtain rfl := List.mem_singleton.1 h
    exact ⟨by decide, by decide, .inr rfl⟩
  · obtain rfl := List.mem_singleton.1 h
    exact ⟨hrun, hone, .inl rfl⟩

theorem filled_asciiLower (c : Char) : filled (asciiLower c) = (filled c).map asciiLower := by
  have hrun : asciiLower c = '%' ↔ c = '%' := asciiLower_eq_iff (by decide) (by decide)
  have hone : asciiLower c = '_' ↔ c = '_' := asciiLower_eq_iff (by decide) (by decide)
  unfold filled
  simp only [hrun, hone]
  split_ifs <;> rfl

/-- Its characters are those of the text, and a letter. -/
theorem mem_unwanted {d : Char} (h : d ∈ (unwanted s).toList) :
    d ≠ '%' ∧ d ≠ '_' ∧ (d ∈ PatternKind.seen s ∨ d = 'x') := by
  rw [unwanted, String.toList_ofList] at h
  obtain ⟨c, hc, hd⟩ := List.mem_flatMap.1 h
  obtain ⟨hrun, hone, rfl | hx⟩ := mem_filled hd
  · exact ⟨hrun, hone, .inl hc⟩
  · exact ⟨hrun, hone, .inr hx⟩

theorem null_notMem_unwanted : '\x00' ∉ (unwanted s).toList := fun h => by
  rcases (mem_unwanted h).2.2 with hseen | hx
  · exact null_notMem_seen s hseen
  · exact absurd hx (by decide)

/-- **Wildcards find what they may stand for.** -/
theorem findsAnyCase_unwanted (hs : ∀ c ∈ s.toList, c.toNat < 0x80) :
    findsAnyCase s (unwanted s) = true := by
  have hascii : ∀ c ∈ PatternKind.seen s, c.toNat < 0x80 := fun c hc =>
    hs c ((List.takeWhile_subset _) hc)
  have htext : ((PatternKind.seen s).map asciiLower).flatMap filled =
      (PatternKind.seen (unwanted s)).map asciiLower := by
    rw [seen_of_null_notMem null_notMem_unwanted, unwanted, String.toList_ofList, List.flatMap_map,
      List.map_flatMap]
    simp only [filled_asciiLower]
  refine likeMatches_sought.2 ⟨[], _, [], (List.append_nil _).trans htext, ?_, fun _ => rfl⟩
  rw [lowercase_of_ascii hascii]
  refine accepts_ofLike_flatMap (fun c hrun => ?_) _
  unfold filled
  rw [if_neg hrun]
  split_ifs with hone
  · exact ⟨'x', rfl, fun hne => absurd hone hne⟩
  · exact ⟨c, rfl, fun _ => beq_self_eq_true (asciiLower c)⟩

/-- A text with wildcards does not occur in what they stand for. -/
theorem not_occurs_unwanted (hverbatim : ¬ IsVerbatim s) : ¬ OccursAnyCase s (unwanted s) := by
  intro hoccurs
  rw [OccursAnyCase, seen_of_null_notMem null_notMem_unwanted] at hoccurs
  have hmem {e : Char} (hlow : e.toNat < 0x61 ∨ 0x7a < e.toNat)
      (hhigh : e.toNat < 0x41 ∨ 0x5a < e.toNat) (he : e ∈ s.toList) :
      e ∈ (unwanted s).toList := by
    have hlower : asciiLower e = e := (asciiLower_eq_iff hlow hhigh).2 rfl
    obtain ⟨c, hc, hce⟩ := List.mem_map.1 (hoccurs.subset (List.mem_map_of_mem he))
    rw [hlower, asciiLower_eq_iff hlow hhigh] at hce
    exact hce ▸ hc
  refine hverbatim ⟨fun h => ?_, fun h => ?_, fun h => ?_⟩
  · exact (mem_unwanted (hmem (by decide) (by decide) h)).1 rfl
  · exact (mem_unwanted (hmem (by decide) (by decide) h)).2.1 rfl
  · exact null_notMem_unwanted (hmem (by decide) (by decide) h)

end AnyCase

/-! ### What is found with its case -/

section Case

variable {s t : String}

open Pattern

/-- **Where the two lower cases agree, what is found with its case is found without.** -/
theorem findsAnyCase_of_findsExactly
    (hagree : lowercase (PatternKind.seen s) = (PatternKind.seen s).map asciiLower)
    (h : findsExactly s t = true) : findsAnyCase s t = true := by
  obtain ⟨front, back, htext, hback⟩ := globMatches_sought.1 h
  refine likeMatches_sought.2
    ⟨front.map asciiLower, (PatternKind.seen s).map asciiLower, back.map asciiLower, ?_, ?_, ?_⟩
  · rw [← List.map_append, ← List.map_append, htext]
  · rw [hagree]
    exact accepts_ofLike_self (fun c => beq_self_eq_true (asciiLower c)) _
  · intro hnull
    rw [hback hnull, List.map_nil]

/-- **The glob of a text matches the texts that contain it**, whatever characters the two
have. -/
theorem globMatches_exactPattern {text : List Char} :
    globMatches (exactPattern s).toList text = true ↔ s.toList <:+: text := by
  have hitems : ofGlob (exactPattern s).toList =
      .run :: (s.toList.map escapedItem ++ ending false) := by
    rw [exactPattern, String.toList_ofList, ofGlob, globItems, globItems_escape]
    rfl
  rw [globMatches, hitems, accepts_around]
  constructor
  · rintro ⟨front, middle, back, rfl, hmiddle, -⟩
    obtain rfl := (accepts_escaped s.toList).1 hmiddle
    exact ⟨front, back, rfl⟩
  · rintro ⟨front, back, rfl⟩
    refine ⟨front, s.toList, back, rfl, (accepts_escaped s.toList).2 rfl, ?_⟩
    intro hend
    cases hend

/-- **Without null characters a text is found where it occurs.** -/
theorem findsExactly_iff (hs : '\x00' ∉ s.toList) (ht : '\x00' ∉ t.toList) :
    findsExactly s t = true ↔ s.toList <:+: t.toList := by
  have hpattern : '\x00' ∉ (exactPattern s).toList := by
    simpa [exactPattern, null_mem_globEscape] using hs
  rw [findsExactly, seen_of_null_notMem hpattern, seen_of_null_notMem ht,
    globMatches_exactPattern]

/-- A text is found in itself. -/
theorem findsExactly_seen (s : String) :
    findsExactly s (String.ofList (PatternKind.seen s)) = true := by
  refine globMatches_sought.2 ⟨[], [], ?_, fun _ => rfl⟩
  rw [seen_ofList_seen, List.append_nil]
  rfl

/-- Characters that are the same in any case are settled or not alike. -/
theorem isSettled_of_sameAnyCase {c d : Char} (h : sameAnyCase c d = true) :
    isSettled c = isSettled d := by
  rw [← isSettled_asciiLower c, beq_iff_eq.1 h, isSettled_asciiLower]

/-- **Where they differ, it is not found in itself without its case.** -/
theorem findsAnyCase_seen
    (hdiffer : lowercase (PatternKind.seen s) ≠ (PatternKind.seen s).map asciiLower) :
    findsAnyCase s (String.ofList (PatternKind.seen s)) = false := by
  rw [Bool.eq_false_iff]
  intro hfinds
  obtain ⟨front, middle, back, htext, hmiddle, -⟩ := likeMatches_sought.1 hfinds
  rw [seen_ofList_seen] at htext
  obtain ⟨c, hc, hupper⟩ : ∃ c ∈ PatternKind.seen s, isWideUpper c = true := by
    simpa using mt lowercase_eq_map_iff.2 hdiffer
  -- The pattern asks for more characters in lower case than the text has.
  have hasked : (lowercase (PatternKind.seen s)).countP isSettled ≤ middle.countP isSettled := by
    rw [← literals_ofLike (by decide) (by decide)]
    exact literals_le_countP (fun _ _ h => isSettled_of_sameAnyCase h) hmiddle
  have hfound : middle.countP isSettled ≤
      ((PatternKind.seen s).map asciiLower).countP isSettled := by
    rw [← htext, List.countP_append, List.countP_append]
    omega
  have hless := countP_asciiLower_lt hc hupper
  omega

end Case

/-! ### Clauses of searches -/

theorem Sql.Truth.holds_ofBool (b : Bool) : (Truth.ofBool b).holds = b := by
  cases b <;> rfl

theorem Sql.PatternKind.truth_like (text pattern : String) :
    PatternKind.like.truth (.text text) (.text pattern) =
      .ofBool (Pattern.likeMatches (seen pattern) (seen text)) := by
  rw [truth, Cell.asText?, Cell.asText?]

theorem Sql.PatternKind.truth_glob (text pattern : String) :
    PatternKind.glob.truth (.text text) (.text pattern) =
      .ofBool (Pattern.globMatches (seen pattern) (seen text)) := by
  rw [truth, Cell.asText?, Cell.asText?]

/-- A text is tested with a pattern. -/
theorem Sql.Test.holds_fits_text {scope : Scope} {a : Term} {text pattern : String}
    (h : a.value scope = .ok (.text text)) (kind : PatternKind) :
    (Test.fits kind a (.literal (.text pattern))).holds scope =
      .ok (kind.truth (.text text) (.text pattern)).holds := by
  refine Test.holds_of_truth ?_
  rw [Test.truth, h]
  rfl

namespace Rule

variable {field s t : String} {scope : Scope} {affinity : Affinity}

/-- The rule that asks for a text in a column. -/
def forText (field : String) (op : Operator) (s : String) : Rule := ⟨field, op, .single (.text s)⟩

/-- With its case, the test looks for the text with a glob. -/
theorem holds_asTest_contains (hfield : IsColumnWord field)
    (hslot : scope.column? field = some ⟨affinity, .text t⟩) (type : Option ColumnType) :
    ((forText field .contains s).asTest type).holds scope = .ok (findsExactly s t) := by
  have htest : (forText field .contains s).asTest type =
      .fits .glob (.column field 0) (.literal (.text (exactPattern s))) := by
    rw [← Term.ofWord_eq hfield.constant]
    rfl
  have hvalue : (Term.column field 0).value scope = .ok (.text t) := by
    rw [Term.value, hslot]
    rfl
  rw [htest, Test.holds_fits_text hvalue, PatternKind.truth_glob, Truth.holds_ofBool, findsExactly]

/-- In any case, it looks for it with a like pattern in the lower case of the column. -/
theorem holds_asTest_containsAnyCase (hfield : IsColumnWord field)
    (hslot : scope.column? field = some ⟨affinity, .text t⟩) (type : Option ColumnType) :
    ((forText field .containsAnyCase s).asTest type).holds scope = .ok (findsAnyCase s t) := by
  have htest : (forText field .containsAnyCase s).asTest type =
      .fits .like (.lower (.column field 0)) (.literal (.text (anyCasePattern s))) := by
    rw [← Term.ofWord_eq hfield.constant]
    rfl
  have hvalue : (Term.lower (.column field 0)).value scope = .ok (.text (Term.lowerText t)) := by
    rw [Term.value, Term.value, hslot]
    rfl
  rw [htest, Test.holds_fits_text hvalue, PatternKind.truth_like, Truth.holds_ofBool, findsAnyCase,
    seen_lowerText]

end Rule

namespace ValidFilter

variable {rules : FilterRules} {options : CompileOptions} {field s : String}

section Rules

variable {r : Rule} {v : ValidFilter rules} {t : String} {b : Bool}

/-- A clause of one rule says of a row what the rule says. -/
theorem tells_rule (hnames : rules.HasFieldPaths) (hv : v.filter = .rule r)
    (hplace : IsColumnWord r.place.1) (hcrown : options.crown = none)
    (h : ∀ (scope : Scope) (affinity : Affinity),
      scope.column? field = some ⟨affinity, .text t⟩ →
        (r.asTest (rules.fields.get? r.field)).holds scope = .ok b) :
    (v.compiled options).Tells field t b := by
  have hpasses := Filter.crownPasses_of_none rules hcrown
  have harranged : v.arranged options = .rule r := by
    rw [arranged, hcrown, hv]
    rfl
  have hwords : (v.arranged options).HasColumnWords := by
    rw [harranged]
    exact List.forall_mem_singleton.2 hplace
  intro scope affinity hslot
  refine v.decides hnames hpasses hwords ?_
  rw [harranged]
  exact h scope affinity hslot

end Rules

/-- **What the clause of a search with case says of a row.** -/
theorem tells_contains (hnames : rules.HasFieldPaths) (hfield : IsColumnWord field)
    {v : ValidFilter rules} (hv : v.filter = .rule (.forText field .contains s))
    (hcrown : options.crown = none) (t : String) :
    (v.compiled options).Tells field t (findsExactly s t) :=
  tells_rule hnames hv hfield hcrown fun _ _ hslot =>
    Rule.holds_asTest_contains hfield hslot _

/-- **What the clause of a search in any case says of a row.** -/
theorem tells_containsAnyCase (hnames : rules.HasFieldPaths) (hfield : IsColumnWord field)
    {v : ValidFilter rules} (hv : v.filter = .rule (.forText field .containsAnyCase s))
    (hcrown : options.crown = none) (t : String) :
    (v.compiled options).Tells field t (findsAnyCase s t) :=
  tells_rule hnames hv hfield hcrown fun _ _ hslot =>
    Rule.holds_asTest_containsAnyCase hfield hslot _

theorem compile_uncrowned (v : ValidFilter rules) (hcrown : options.crown = none) :
    v.compile options = .ok (v.compiled options) :=
  v.compile_eq (Filter.crownPasses_of_none rules hcrown)

/-- **What is found in any case.**  A search for an ASCII text finds every row whose column
contains the text in some case.  If no character of the text has a meaning in patterns, the
other rows are not found; if one has, one of them is. -/
theorem search_any_case (hnames : rules.HasFieldPaths) (hfield : IsColumnWord field)
    (v : ValidFilter rules) (hv : v.filter = .rule (.forText field .containsAnyCase s))
    (hcrown : options.crown = none) (hs : ∀ c ∈ s.toList, c.toNat < 0x80) :
    ∃ c, v.compile options = .ok c ∧
      (∀ t, OccursAnyCase s t → c.Tells field t true) ∧
      (IsVerbatim s → ∀ t b, c.Tells field t b ↔ (b = true ↔ OccursAnyCase s t)) ∧
      (¬ IsVerbatim s → ∃ t : String, (∀ c ∈ t.toList, c.toNat < 0x80) ∧
        c.Tells field t true ∧ ¬ OccursAnyCase s t) := by
  have htells := tells_containsAnyCase hnames hfield hv hcrown
  refine ⟨_, v.compile_uncrowned hcrown, fun t hoccurs => ?_, fun hverbatim t b => ?_,
    fun hverbatim => ⟨unwanted s, fun c hc => ?_, ?_, not_occurs_unwanted hverbatim⟩⟩
  · exact (htells t).iff.2 (findsAnyCase_of_occurs hs hoccurs).symm
  · have hfinds : findsAnyCase s t = true ↔ OccursAnyCase s t :=
      ⟨occurs_of_findsAnyCase hs hverbatim, findsAnyCase_of_occurs hs⟩
    rw [(htells t).iff, ← hfinds, Bool.eq_iff_iff]
  · rcases (mem_unwanted hc).2.2 with hseen | rfl
    · exact hs c (List.takeWhile_subset _ hseen)
    · decide
  · exact (htells _).iff.2 (findsAnyCase_unwanted hs).symm

end ValidFilter

/-- Hosts with a word in their name, in any case. -/
def webHosts : ValidFilter hostRules where
  filter := .rule (.forText "name" .containsAnyCase "Web")
  passed := by decide

/-- The word is found in any case, and nothing but the word. -/
theorem webHosts_found :
    hostRules.HasFieldPaths ∧ IsColumnWord "name" ∧ (∀ c ∈ "Web".toList, c.toNat < 0x80) ∧
    ∃ c, webHosts.compile {} = .ok c ∧ c.Tells "name" "old WEBSITE" true ∧
      c.Tells "name" "wed" false ∧
      ∀ t b, c.Tells "name" t b ↔ (b = true ↔ OccursAnyCase "Web" t) := by
  have hcrown : ({} : CompileOptions).crown = none := rfl
  have hascii : ∀ c ∈ "Web".toList, c.toNat < 0x80 := by simp
  obtain ⟨c, hc, hfound, hexact, -⟩ := ValidFilter.search_any_case (by decide) (by decide) webHosts
    rfl hcrown hascii
  have hverbatim : IsVerbatim "Web" := by decide +kernel
  have hwebsite : OccursAnyCase "Web" "old WEBSITE" := by decide +kernel
  have hwed : ¬ OccursAnyCase "Web" "wed" := by decide +kernel
  exact ⟨by decide, by decide, hascii, c, hc, hfound _ hwebsite,
    (hexact hverbatim _ _).2 ⟨nofun, fun h => absurd h hwed⟩, hexact hverbatim⟩

/-- Hosts with an underscore in their name, in any case. -/
def wildHosts : ValidFilter hostRules where
  filter := .rule (.forText "name" .containsAnyCase "a_b")
  passed := by decide

/-- Another letter is found in the place of the underscore. -/
theorem wildHosts_unwanted :
    ∃ c, wildHosts.compile {} = .ok c ∧ c.Tells "name" "axb" true ∧
      ¬ OccursAnyCase "a_b" "axb" := by
  refine ⟨_, wildHosts.compile_uncrowned rfl, ?_, by decide⟩
  exact (ValidFilter.tells_containsAnyCase (by decide) (by decide) rfl rfl "axb").iff.2
    (by decide +kernel)

/-- **What is found with its case** is the text and nothing else.  The glob that is bound
matches exactly the texts that contain it, also where either has brackets, dashes or
wildcards.  The clause says so of the rows, as far as the database sees texts: up to a null
character. -/
theorem search_with_case (s : String) :
    ∃ pattern : String, pattern.toList = '*' :: (globEscape s.toList ++ ['*']) ∧
      (∀ field type name, (Rule.forText field .contains s).test type name =
        .ok (field ++ " GLOB :" ++ name, .single (.text pattern))) ∧
      (∀ t : String, Pattern.globMatches pattern.toList t.toList = true ↔
        s.toList <:+: t.toList) ∧
      ∀ (rules : FilterRules) (options : CompileOptions) (field : String)
        (v : ValidFilter rules), rules.HasFieldPaths → IsColumnWord field →
        v.filter = .rule (.forText field .contains s) → options.crown = none →
          ∃ c, v.compile options = .ok c ∧ ('\x00' ∉ s.toList → ∀ t : String,
            '\x00' ∉ t.toList → ∀ b, c.Tells field t b ↔ (b = true ↔ s.toList <:+: t.toList)) := by
  refine ⟨exactPattern s, String.toList_ofList, fun _ _ _ => rfl,
    fun t => globMatches_exactPattern, ?_⟩
  intro rules options field v hnames hfield hv hcrown
  refine ⟨_, v.compile_uncrowned hcrown, fun hs t ht b => ?_⟩
  have htells := ValidFilter.tells_contains hnames hfield hv hcrown t
  rw [htells.iff, ← findsExactly_iff hs ht, Bool.eq_iff_iff]

/-- Hosts with a bracket, a dash and wildcards in their name. -/
def markedHosts : ValidFilter hostRules where
  filter := .rule (.forText "name" .contains "]^-[*?")
  passed := by decide

/-- The marks are found as they stand, and stand for nothing else. -/
theorem markedHosts_found :
    hostRules.HasFieldPaths ∧ IsColumnWord "name" ∧
    ∃ c, markedHosts.compile {} = .ok c ∧ c.Tells "name" "a]^-[*?b" true ∧
      c.Tells "name" "a]^-[x?b" false ∧
      ∀ t : String, '\x00' ∉ t.toList →
        ∀ b, c.Tells "name" t b ↔ (b = true ↔ "]^-[*?".toList <:+: t.toList) := by
  obtain ⟨pattern, -, -, -, hclause⟩ := search_with_case "]^-[*?"
  obtain ⟨c, hc, htells⟩ := hclause hostRules {} "name" markedHosts (by decide) (by decide) rfl rfl
  have hs : '\x00' ∉ "]^-[*?".toList := by decide +kernel
  have hfound : "]^-[*?".toList <:+: "a]^-[*?b".toList := by decide +kernel
  have hother : ¬ "]^-[*?".toList <:+: "a]^-[x?b".toList := by decide +kernel
  refine ⟨by decide, by decide, c, hc, ?_, ?_, htells hs⟩
  · exact (htells hs _ (by decide +kernel) true).2 (iff_of_true rfl hfound)
  · exact (htells hs _ (by decide +kernel) false).2 (iff_of_false Bool.false_ne_true hother)

namespace ValidFilter

variable {rules : FilterRules} {options : CompileOptions} {field s : String}

/-- **What is found with its case, and without.**  If the two lower cases of a text agree, a
search for it in any case finds all rows that a search with its case finds.  If they differ,
the row that holds just this text is lost. -/
theorem search_ignoring_case (hnames : rules.HasFieldPaths) (hfield : IsColumnWord field)
    (v w : ValidFilter rules) (hv : v.filter = .rule (.forText field .contains s))
    (hw : w.filter = .rule (.forText field .containsAnyCase s)) (hcrown : options.crown = none) :
    ∃ exact anyCase, v.compile options = .ok exact ∧ w.compile options = .ok anyCase ∧
      (lowercase (PatternKind.seen s) = (PatternKind.seen s).map asciiLower →
        ∀ t, exact.Tells field t true → anyCase.Tells field t true) ∧
      (lowercase (PatternKind.seen s) ≠ (PatternKind.seen s).map asciiLower →
        ∃ t : String, '\x00' ∉ t.toList ∧ exact.Tells field t true ∧
          anyCase.Tells field t false) := by
  have hexact := tells_contains hnames hfield hv hcrown
  have hany := tells_containsAnyCase hnames hfield hw hcrown
  refine ⟨_, _, v.compile_uncrowned hcrown, w.compile_uncrowned hcrown, fun hagree t h => ?_,
    fun hdiffer => ⟨String.ofList (PatternKind.seen s), ?_, ?_, ?_⟩⟩
  · have hfinds : findsExactly s t = true := ((hexact t).iff.1 h).symm
    exact (hany t).iff.2 (findsAnyCase_of_findsExactly hagree hfinds).symm
  · rw [String.toList_ofList]
    exact null_notMem_seen s
  · exact (hexact _).iff.2 (findsExactly_seen s).symm
  · exact (hany _).iff.2 (findsAnyCase_seen hdiffer).symm

end ValidFilter

/-- Hosts with an accent in their name. -/
def accentHosts : ValidFilter hostRules where
  filter := .rule (.forText "name" .contains "Café")
  passed := by decide

/-- Hosts with an accent in their name, in any case. -/
def anyAccentHosts : ValidFilter hostRules where
  filter := .rule (.forText "name" .containsAnyCase "Café")
  passed := by decide

/-- An accent on a small letter is found as before. -/
theorem accentHosts_found :
    hostRules.HasFieldPaths ∧ IsColumnWord "name" ∧
    ∃ exact anyCase, accentHosts.compile {} = .ok exact ∧ anyAccentHosts.compile {} = .ok anyCase ∧
      ∀ t, exact.Tells "name" t true → anyCase.Tells "name" t true := by
  have hcrown : ({} : CompileOptions).crown = none := rfl
  obtain ⟨exact, anyCase, hexact, hany, hkept, -⟩ := ValidFilter.search_ignoring_case (by decide)
    (by decide) accentHosts anyAccentHosts rfl rfl hcrown
  exact ⟨by decide, by decide, exact, anyCase, hexact, hany, hkept (by decide +kernel)⟩

/-- Hosts with a capital letter with an accent in their name. -/
def capitalHosts : ValidFilter hostRules where
  filter := .rule (.forText "name" .contains "É")
  passed := by decide

/-- Hosts with this letter in their name, in any case. -/
def anyCapitalHosts : ValidFilter hostRules where
  filter := .rule (.forText "name" .containsAnyCase "É")
  passed := by decide

/-- The letter is found, but not in any case. -/
theorem capitalHosts_lost :
    ∃ exact anyCase, capitalHosts.compile {} = .ok exact ∧
      anyCapitalHosts.compile {} = .ok anyCase ∧ exact.Tells "name" "É" true ∧
      anyCase.Tells "name" "É" false := by
  refine ⟨_, _, capitalHosts.compile_uncrowned rfl, anyCapitalHosts.compile_uncrowned rfl, ?_, ?_⟩
  · exact (ValidFilter.tells_contains (by decide) (by decide) rfl rfl "É").iff.2 (by decide +kernel)
  · exact (ValidFilter.tells_containsAnyCase (by decide) (by decide) rfl rfl "É").iff.2
      (by decide +kernel)

end ResourceTable
