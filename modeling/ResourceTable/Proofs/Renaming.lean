import ResourceTable.Proofs.ConditionTree
import ResourceTable.Proofs.PrintPlaceholders

/-!
# Renaming keeps the tree of a condition

Placeholders are renamed in the text of a clause.  The text of a test may be anything,
even an open quote, so that the tests that follow are read in quotes; but a blank or a
parenthesis ends every name, and none of the characters between tests is ever
replaced.  So the new text is that of a condition of the same shape.

## Main definitions

* `Piece.output`: what replacing placeholders makes of a text, from a state.
* `Scan.IsRest`: the states between tests.

## Main results

* `output_append` — what is between tests stays.
* `Mirrors.substitute` — **replacing placeholders gives a condition that mirrors the
  same filter.**
-/

namespace ResourceTable

namespace Piece

/-- What replacing placeholders makes of a text, from a state. -/
def output (replace : String → Option String) (s : Scan) (cs : List Char) : List Char :=
  (scanFrom s cs).flatMap (chars replace)

namespace Scan

/-- Only quotes are quotes. -/
def IsProper : Scan → Prop
  | .quoted quote => quote = '\x27' ∨ quote = '"'
  | _ => True

/-- The states in which nothing is pending. -/
def IsRest : Scan → Prop
  | .plain => True
  | .quoted quote => quote = '\x27' ∨ quote = '"'
  | _ => False

/-- The state without what is pending. -/
def settled : Scan → Scan
  | .quoted quote => .quoted quote
  | _ => .plain

theorem IsRest.isProper {s : Scan} (h : s.IsRest) : s.IsProper := by
  cases s with
  | quoted quote => exact h
  | _ => trivial

theorem IsProper.settled {s : Scan} (h : s.IsProper) : s.settled.IsRest := by
  cases s with
  | quoted quote => exact h
  | _ => trivial

theorem isProper_enter (c : Char) : (enter c).2.IsProper := by
  unfold enter
  split
  · next h => exact h
  · split <;> trivial

theorem IsProper.step {s : Scan} (h : s.IsProper) (c : Char) : (s.step c).2.IsProper := by
  cases s with
  | plain => exact isProper_enter c
  | quoted quote =>
    rw [Scan.step]
    dsimp only
    split
    · trivial
    · exact h
  | colon =>
    rw [Scan.step]
    split
    · trivial
    · exact isProper_enter c
  | name seen =>
    rw [Scan.step]
    split
    · trivial
    · exact isProper_enter c

end Scan

theorem isProper_after {s : Scan} (h : s.IsProper) (cs : List Char) : (after s cs).IsProper := by
  induction cs generalizing s with
  | nil => exact h
  | cons c rest ih => exact ih (h.step c)

/-! ### Characters between tests -/

/-- A character that is no part of a name ends what is pending. -/
theorem step_settles {s : Scan} (h : s.IsProper) {c : Char} (hordinary : isOrdinary c = true)
    (hpart : isNamePart c = false) : s.step c = (s.flush ++ [.char c], s.settled) := by
  have henter := enter_of_isOrdinary hordinary
  have hstart : ¬ isNameStart c = true := by
    intro hstart
    rw [isNamePart_of_isNameStart hstart] at hpart
    cases hpart
  cases s with
  | plain => exact henter
  | quoted quote =>
    have hc : c ≠ quote := by
      simp only [isOrdinary, Bool.and_eq_true, decide_eq_true_eq] at hordinary
      rcases h with rfl | rfl
      · exact hordinary.1.1
      · exact hordinary.1.2
    rw [Scan.step, if_neg hc]
    rfl
  | colon => rw [Scan.step, if_neg hstart, henter]; rfl
  | name seen => rw [Scan.step, if_neg (by simp [hpart]), henter]; rfl

/-- Where nothing is pending, an ordinary character stays. -/
theorem step_rest {s : Scan} (h : s.IsRest) {c : Char} (hordinary : isOrdinary c = true) :
    s.step c = ([.char c], s) := by
  cases s with
  | plain => exact enter_of_isOrdinary hordinary
  | quoted quote =>
    have hc : c ≠ quote := by
      simp only [isOrdinary, Bool.and_eq_true, decide_eq_true_eq] at hordinary
      rcases h with rfl | rfl
      · exact hordinary.1.1
      · exact hordinary.1.2
    rw [Scan.step, if_neg hc]
  | _ => cases h

variable (replace : String → Option String)

theorem output_nil {s : Scan} (h : s.IsRest) : output replace s [] = [] := by
  cases s with
  | plain | quoted quote => rfl
  | _ => cases h

theorem output_ordinary {s : Scan} (h : s.IsRest) (b : List Char) : ∀ {k : List Char},
    (∀ c ∈ k, isOrdinary c = true) → output replace s (k ++ b) = k ++ output replace s b := by
  intro k
  induction k with
  | nil => intro _; rfl
  | cons c rest ih =>
    intro hk
    obtain ⟨hc, hrest⟩ := List.forall_mem_cons.1 hk
    have hscan : scanFrom s (c :: (rest ++ b)) = .char c :: scanFrom s (rest ++ b) := by
      rw [scanFrom, completed, after, step_rest h hc]
      rfl
    rw [List.cons_append, output, hscan, List.flatMap_cons, ← output, ih hrest]
    rfl

/-- **What is between tests stays**, and what comes before it does not reach beyond it. -/
theorem output_append {s : Scan} (h : s.IsProper) (a b : List Char) {d : Char} {k : List Char}
    (hd : isNamePart d = false) (hk : ∀ c ∈ d :: k, isOrdinary c = true) :
    output replace s (a ++ (d :: (k ++ b))) =
      output replace s a ++ (d :: (k ++ output replace (after s a).settled b)) := by
  obtain ⟨hdo, hko⟩ := List.forall_mem_cons.1 hk
  have hproper := isProper_after h a
  have hstep := step_settles hproper hdo hd
  have hscan : scanFrom (after s a) (d :: (k ++ b)) =
      (after s a).flush ++ .char d :: scanFrom (after s a).settled (k ++ b) := by
    rw [scanFrom, completed, after, hstep]
    simp [scanFrom]
  rw [output, scanFrom_append, hscan, ← List.append_assoc, List.flatMap_append, List.flatMap_cons]
  refine congrArg₂ (· ++ ·) rfl (congrArg (d :: ·) ?_)
  exact output_ordinary replace hproper.settled b hko

end Piece

/-! ### Conditions -/

namespace Mirrors

open Piece

variable (replace : String → Option String)

/-- The parts of a group after the first, and its closing parenthesis. -/
theorem output_parts (op : Connective) {fs : List Filter} : ∀ {cs : List Condition},
    List.Forall₂ Mirrors fs cs →
    (∀ f ∈ fs, ∀ c, Mirrors f c → ∀ s : Scan, s.IsRest →
      ∃ c', Mirrors f c' ∧ output replace s c.text.toList = c'.text.toList) →
    ∀ (s : Scan) (a : List Char), s.IsRest → ∃ cs', List.Forall₂ Mirrors fs cs' ∧
      output replace s (a ++ ((cs.flatMap fun d => op.keyword.toList ++ d.text.toList) ++ [')'])) =
        output replace s a ++
          ((cs'.flatMap fun d => op.keyword.toList ++ d.text.toList) ++ [')']) := by
  induction fs with
  | nil =>
    intro cs hcs _ s a hs
    cases hcs
    have hclose := output_append replace hs.isProper a [] (d := ')') (k := []) (by decide)
      (List.all_eq_true.1 (by decide))
    have hrest := (isProper_after hs.isProper a).settled
    refine ⟨[], .nil, ?_⟩
    rw [List.nil_append, output_nil replace hrest] at hclose
    exact hclose
  | cons f rest ih =>
    intro cs hcs hall s a hs
    obtain ⟨hf, hrest⟩ := List.forall_mem_cons.1 hall
    cases hcs with
    | @cons _ c _ cs hc hcs =>
      have hsettled := (isProper_after hs.isProper a).settled
      obtain ⟨c', hc', htext⟩ := hf c hc _ hsettled
      obtain ⟨cs', hcs', htexts⟩ := ih hcs hrest (after s a).settled c.text.toList hsettled
      have hkeyword : ∃ k, op.keyword.toList = ' ' :: k ∧
          ∀ d ∈ ' ' :: k, isOrdinary d = true := by
        cases op <;> exact ⟨_, rfl, List.all_eq_true.1 (by decide)⟩
      obtain ⟨k, hk, hordinary⟩ := hkeyword
      refine ⟨c' :: cs', .cons hc' hcs', ?_⟩
      rw [List.flatMap_cons, List.flatMap_cons, hk, List.append_assoc, List.append_assoc,
        List.append_assoc, List.append_assoc, List.cons_append, List.cons_append,
        output_append replace hs.isProper a _ (by decide) hordinary, ← hk, htexts, htext]

/-- What replacing placeholders makes of a condition is a condition that mirrors the same
filter. -/
theorem output {f : Filter} : ∀ {c : Condition}, Mirrors f c → ∀ s : Scan, s.IsRest →
    ∃ c', Mirrors f c' ∧ Piece.output replace s c.text.toList = c'.text.toList := by
  induction f using Filter.treeInduction with
  | rule r =>
    intro c h s _
    cases h with
    | rule _ sql => exact ⟨.test (.ofList (Piece.output replace s sql.toList)), .rule r _,
        String.toList_ofList.symm⟩
  | group op fs ih =>
    intro c h s hs
    cases h with
    | empty =>
      refine ⟨.always, .empty op, ?_⟩
      have hordinary : ∀ c ∈ "1 = 1".toList, isOrdinary c = true :=
        List.all_eq_true.1 (by decide)
      have hout := output_ordinary replace hs [] hordinary
      rw [output_nil replace hs, List.append_nil] at hout
      exact hout
    | @group _ f fs c cs hf hfs =>
      obtain ⟨ihf, ihfs⟩ := List.forall_mem_cons.1 ih
      obtain ⟨c', hc', htext⟩ := ihf hf s hs
      obtain ⟨cs', hcs', htexts⟩ := output_parts replace op hfs (fun g hg d hd => ihfs g hg hd) s
        c.text.toList hs
      refine ⟨.group op (c' :: cs'), .group op hc' hcs', ?_⟩
      have hopen := output_ordinary replace hs (k := ['(']) (c.text.toList ++
        ((cs.flatMap fun d => op.keyword.toList ++ d.text.toList) ++ [')']))
        (List.all_eq_true.1 (by decide))
      rw [Condition.toList_text_group, Condition.toList_text_group, ← htext, ← htexts]
      exact hopen

/-- **Replacing placeholders in a clause gives a clause that mirrors the same filter.** -/
theorem substitute {f : Filter} {c : Condition} (h : Mirrors f c) :
    ∃ c', Mirrors f c' ∧
      Placeholder.substitute replace ("WHERE " ++ c.text) = "WHERE " ++ c'.text := by
  have hrest : Scan.IsRest .plain := trivial
  obtain ⟨c', hc', htext⟩ := h.output replace .plain hrest
  refine ⟨c', hc', ?_⟩
  have hordinary : ∀ c ∈ "WHERE ".toList, isOrdinary c = true :=
    List.all_eq_true.1 (by decide)
  rw [Placeholder.substitute, ← String.toList_inj, String.toList_ofList, String.toList_append,
    String.toList_append, ← htext, ← output_ordinary replace hrest _ hordinary]
  rfl

end Mirrors

end ResourceTable
