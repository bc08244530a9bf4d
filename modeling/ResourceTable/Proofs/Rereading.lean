import ResourceTable.Proofs.TermReading
import ResourceTable.Proofs.Unplaced

/-!
# Reading the same tokens again

What a reader makes of lexemes depends on their tokens, and on where they stand only in so
far as terms keep their places.  A condition that is read in one text is therefore read in
any other text that has the same tokens there, and says the same.

## Main definitions

* `Parse.Follows related p q`: whenever the reader `p` accepts some lexemes, `q` accepts
  those with the same tokens, gives something related and leaves as much.

## Main results

* `Follows.bind` — readers that follow others one by one follow them together.
* `follows_term`, `follows_tests` — terms and tests are read again but for their places.
* `follows_condition` — **a condition is read again wherever its tokens stand.**
-/

namespace ResourceTable.Sql.Parse

variable {α β γ δ : Type}

/-- The reader `q` follows the reader `p`: of lexemes with the same tokens as those that `p`
accepts it gives something related to what `p` gives, and leaves the same tokens. -/
def Follows (related : α → β → Prop) (p : Parse α) (q : Parse β) : Prop :=
  ∀ (ls ms out : List Lexeme) (a : α), ls.map Lexeme.token = ms.map Lexeme.token →
    p ls = .ok (a, out) → ∃ b rest, q ms = .ok (b, rest) ∧ related a b ∧
      out.map Lexeme.token = rest.map Lexeme.token

namespace Follows

variable {related : α → β → Prop} {other : γ → δ → Prop} {p : Parse α} {q : Parse β}

theorem pure {a : α} {b : β} (h : related a b) :
    Follows related (Pure.pure a) (Pure.pure b) := by
  intro ls ms out c hls hc
  cases hc
  exact ⟨b, ms, rfl, h, hls⟩

/-- Nothing is asked of what follows a reader that never accepts. -/
theorem refused (h : ∀ ls x, p ls ≠ .ok x) : Follows related p q := by
  intro ls ms out a hls ha
  exact absurd ha (h ls _)

theorem refuse : Follows related (Parse.refuse : Parse α) q := refused refuse_ne_ok

/-- **Readers that follow others one by one follow them together.** -/
theorem bind {f : α → Parse γ} {g : β → Parse δ} (hp : Follows related p q)
    (hf : ∀ a b, related a b → Follows other (f a) (g b)) :
    Follows other (p >>= f) (q >>= g) := by
  intro ls ms out c hls hc
  rw [bind_run] at hc
  obtain ⟨⟨a, middle⟩, ha, hc⟩ := Test.bind_eq_ok hc
  obtain ⟨b, left, hb, hab, hmiddle⟩ := hp ls ms middle a hls ha
  obtain ⟨d, rest, hd, hcd, hout⟩ := hf a b hab middle left out c hmiddle hc
  refine ⟨d, rest, ?_, hcd, hout⟩
  rw [bind_run, hb]
  exact hd

/-- What is given is changed. -/
theorem map {f : α → γ} {g : β → δ} (hp : Follows related p q)
    (hf : ∀ a b, related a b → other (f a) (g b)) :
    Follows other (do return f (← p)) (do return g (← q)) :=
  hp.bind fun a b hab => pure (hf a b hab)

theorem mono {related' : α → β → Prop} (h : Follows related p q)
    (himp : ∀ a b, related a b → related' a b) : Follows related' p q := by
  intro ls ms out a hls ha
  obtain ⟨b, rest, hb, hab, hout⟩ := h ls ms out a hls ha
  exact ⟨b, rest, hb, himp a b hab, hout⟩

end Follows

/-! ### Looking ahead -/

/-- Both or none, and of the same token. -/
def SameToken (l m : Option Lexeme) : Prop := l.map Lexeme.token = m.map Lexeme.token

theorem follows_peek : Follows SameToken peek peek := by
  intro ls ms out l hls hl
  cases hl
  refine ⟨ms.head?, ms, rfl, ?_, hls⟩
  rw [SameToken, ← List.head?_map, ← List.head?_map, hls]

theorem follows_advance : Follows Eq advance advance := by
  intro ls ms out u hls hu
  cases hu
  refine ⟨(), ms.tail, rfl, rfl, ?_⟩
  rw [List.map_tail, List.map_tail, hls]

/-- After a look ahead, each of the two readers has a lexeme of the same token before it. -/
theorem Follows.peeked {related : α → β → Prop} {f : Option Lexeme → Parse α}
    {g : Option Lexeme → Parse β} (hnone : Follows related (f none) (g none))
    (hsome : ∀ l m : Lexeme, l.token = m.token → Follows related (f (some l)) (g (some m))) :
    Follows related (peek >>= f) (peek >>= g) := by
  refine follows_peek.bind fun l m hlm => ?_
  cases l with
  | none =>
    cases m with
    | none => exact hnone
    | some m => cases hlm
  | some l =>
    cases m with
    | none => cases hlm
    | some m => exact hsome l m (Option.some.inj hlm)

/-- A reader that passes over the next lexeme follows itself. -/
theorem Follows.advanced {related : α → β → Prop} {p : Parse α} {q : Parse β}
    (h : Follows related p q) : Follows related (do advance; p) (do advance; q) :=
  follows_advance.bind fun _ _ _ => h

theorem follows_acceptMark (s : String) : Follows Eq (acceptMark s) (acceptMark s) := by
  refine .peeked (.pure rfl) fun l m hlm => ?_
  obtain ⟨token, written, offset⟩ := l
  obtain ⟨token, written, offset⟩ := m
  obtain rfl := hlm
  cases token with
  | mark t =>
    dsimp only
    split
    · exact .advanced (.pure rfl)
    · exact .pure rfl
  | _ => exact .pure rfl

theorem follows_acceptAny (ks : List String) : Follows Eq (acceptAny ks) (acceptAny ks) := by
  refine .peeked (.pure rfl) fun l m hlm => ?_
  obtain ⟨token, written, offset⟩ := l
  obtain ⟨token, written, offset⟩ := m
  obtain rfl := hlm
  cases token with
  | word w =>
    dsimp only
    split
    · exact .advanced (.pure rfl)
    · exact .pure rfl
  | _ => exact .pure rfl

section Decided

variable {related : α → β → Prop} {f : Bool → Parse α} {g : Bool → Parse β}

/-- What a mark decides is decided alike. -/
theorem Follows.ifMark {s : String} (hyes : Follows related (f true) (g true))
    (hno : Follows related (f false) (g false)) :
    Follows related (acceptMark s >>= f) (acceptMark s >>= g) := by
  refine (follows_acceptMark s).bind fun a b hab => ?_
  obtain rfl := hab
  cases a with
  | true => exact hyes
  | false => exact hno

/-- What a keyword decides is decided alike. -/
theorem Follows.ifKeyword {ks : List String} (hyes : Follows related (f true) (g true))
    (hno : Follows related (f false) (g false)) :
    Follows related (acceptAny ks >>= f) (acceptAny ks >>= g) := by
  refine (follows_acceptAny ks).bind fun a b hab => ?_
  obtain rfl := hab
  cases a with
  | true => exact hyes
  | false => exact hno

end Decided

theorem follows_mark (s : String) : Follows Eq (mark s) (mark s) := .ifMark (.pure rfl) .refuse

theorem follows_keywords (ks : List String) : Follows Eq (keywords ks) (keywords ks) := by
  induction ks with
  | nil => exact .pure rfl
  | cons k rest ih => exact .ifKeyword ih .refuse

theorem follows_name : Follows Eq name name := by
  refine .peeked .refuse fun l m hlm => ?_
  obtain ⟨token, written, offset⟩ := l
  obtain ⟨token, written, offset⟩ := m
  obtain rfl := hlm
  cases token with
  | word w =>
    dsimp only
    split
    · exact .refuse
    · exact .advanced (.pure rfl)
  | name s => exact .advanced (.pure rfl)
  | _ => exact .refuse

/-! ### Combinations -/

section Combinations

variable {related : α → β → Prop} {p : Parse α} {q : Parse β}

theorem Follows.separated (h : Follows related p q) : ∀ fuel,
    Follows (List.Forall₂ related) (separated p fuel) (separated q fuel) := by
  intro fuel
  induction fuel with
  | zero => exact .refuse
  | succ fuel ih =>
    refine h.bind fun a b hab => .ifMark (ih.map fun l m hlm => .cons hab hlm) ?_
    exact .pure (.cons hab .nil)

theorem Follows.enclosed (h : Follows related p q) :
    Follows related (enclosed p) (enclosed q) := by
  refine (follows_mark "(").bind fun _ _ _ => h.bind fun a b hab => ?_
  exact (follows_mark ")").map fun _ _ _ => hab

theorem Follows.after {keyword : String} (h : Follows related p q) :
    Follows (Option.Rel related) (after keyword p) (after keyword q) :=
  .ifKeyword (h.map fun _ _ hab => .some hab) (.pure .none)

theorem Follows.arguments (h : Follows related p q) :
    Follows related (arguments p) (arguments q) := by
  refine .enclosed ((follows_acceptAny _).bind fun _ _ _ => ?_)
  exact .ifKeyword .refuse h

end Combinations

/-! ### Terms -/

/-- Terms that differ in their places. -/
def SameTerm (a b : Term) : Prop := a.unplaced = b.unplaced

theorem SameTerm.refl (a : Term) : SameTerm a a := rfl

/-- The terms of a constructor differ in their places if their parts do. -/
theorem SameTerm.congr₂ {a a' b b' : Term} (ha : SameTerm a a') (hb : SameTerm b b')
    (make : Term → Term → Term)
    (hmake : ∀ a b, (make a b).unplaced = make a.unplaced b.unplaced) :
    SameTerm (make a b) (make a' b') := by
  rw [SameTerm, hmake, hmake, ha, hb]

theorem follows_columnAfter (first : String) (offset place : Nat) :
    Follows SameTerm (columnAfter first offset) (columnAfter first place) := by
  refine .ifMark (follows_name.map fun a b hab => ?_) (.pure rfl)
  rw [hab]
  rfl

theorem follows_numberTerm {l m : Lexeme} {written : String} {rest : Term → Parse α}
    {more : Term → Parse β} {related : α → β → Prop}
    (h : ∀ a b, SameTerm a b → Follows related (rest a) (more b)) :
    Follows related (do rest (← numberTerm l written)) (do more (← numberTerm m written)) := by
  have hnumber : Follows SameTerm (liftM (numberTerm l written) : Parse Term)
      (liftM (numberTerm m written)) := by
    intro ls ms out a hls ha
    unfold numberTerm at ha ⊢
    split at ha
    · cases ha
      exact ⟨_, ms, rfl, rfl, hls⟩
    · cases ha
      exact ⟨_, ms, rfl, rfl, hls⟩
    · cases ha
      exact ⟨_, ms, rfl, rfl, hls⟩
    · cases ha
    · cases ha
  exact hnumber.bind h

section Terms

variable {p q : Parse Term} (h : Follows SameTerm p q)
include h

theorem follows_couple :
    Follows (fun a b => SameTerm a.1 b.1 ∧ SameTerm a.2 b.2) (couple p) (couple q) := by
  refine h.bind fun a b hab => (follows_mark ",").bind fun _ _ _ => ?_
  exact h.map fun c d hcd => ⟨hab, hcd⟩

/-- A call is read again: it has the same name, and arguments that are read again. -/
theorem follows_call? (l m : Lexeme) (s : String) :
    Option.Rel (Follows SameTerm) (call? l s p) (call? m s q) := by
  have htwo : Follows (fun a b : Term × Term => SameTerm a.1 b.1 ∧ SameTerm a.2 b.2)
      (twoArguments p) (twoArguments q) := (follows_couple h).arguments
  have hlower : Follows SameTerm (do return .lower (← p)) (do return .lower (← q)) :=
    h.map fun a b hab => congrArg Term.lower hab
  unfold call?
  generalize s.toLower = function
  split
  · refine .some ((follows_mark "(").bind fun _ _ _ => (follows_mark ")").bind fun _ _ _ => ?_)
    exact .pure rfl
  · refine .some (.arguments (.peeked hlower fun k n hkn => ?_))
    -- Whether there is an argument is told by the next token.
    obtain ⟨token, written, offset⟩ := k
    obtain ⟨token, written, offset⟩ := n
    obtain rfl := hkn
    by_cases hclose : token = .mark ")"
    · rw [hclose]
      exact .pure rfl
    · dsimp only
      split
      · next heq => exact absurd (congrArg Lexeme.token (Option.some.inj heq)) hclose
      · split
        · next heq => exact absurd (congrArg Lexeme.token (Option.some.inj heq)) hclose
        · exact hlower
  · exact .some (htwo.map fun a b hab => hab.1.congr₂ hab.2 .partKind fun _ _ => rfl)
  · exact .some (htwo.map fun a b hab => hab.1.congr₂ hab.2 .partLength fun _ _ => rfl)
  · exact .none

theorem follows_afterWord (l m : Lexeme) (s : String) :
    Follows SameTerm (afterWord l s p) (afterWord m s q) := by
  have hcolumn := follows_columnAfter s l.offset m.offset
  refine .peeked ?_ fun k n hkn => ?_
  · exact hcolumn
  · obtain ⟨token, written, offset⟩ := k
    obtain ⟨token, written, offset⟩ := n
    obtain rfl := hkn
    by_cases hopen : token = .mark "("
    · rw [hopen]
      have hcall := follows_call? h l m s
      revert hcall
      cases call? l s p with
      | none =>
        cases call? m s q with
        | none => exact fun _ => hcolumn
        | some r => exact nofun
      | some r =>
        cases call? m s q with
        | none => exact nofun
        | some r' => exact fun | .some hr => hr
    · dsimp only
      split
      · next heq _ => exact absurd (congrArg Lexeme.token (Option.some.inj heq)) hopen
      · split
        · next heq _ => exact absurd (congrArg Lexeme.token (Option.some.inj heq)) hopen
        · exact hcolumn

/-- A word decides alike what it begins. -/
theorem follows_wordTerm (l m : Lexeme) (s : String) :
    Follows SameTerm (wordTerm l s p) (wordTerm m s q) := by
  by_cases hplain : IsPlain s
  · rw [wordTerm_of_isPlain hplain, wordTerm_of_isPlain hplain]
    exact .advanced (follows_afterWord h l m s)
  · cases hconstant : constant? s with
    | some t =>
      unfold wordTerm
      simp only [hconstant]
      exact .advanced (.pure rfl)
    | none =>
      by_cases hnot : Keyword.upper s = "NOT"
      · unfold wordTerm
        simp only [hconstant, if_pos hnot]
        split
        · exact .refused fun ls x => bind_ne_ok fun _ out _ => refuse_bind_ne_ok _ out x
        · exact .advanced (h.map fun a b hab => congrArg Term.negated hab)
      · exact .refused fun ls x =>
          wordTerm_ne_ok hconstant hplain l p ls (fun h => absurd h hnot) x

end Terms

/-- An operand is read again: the induction is on how deep terms may nest. -/
theorem follows_operand {fuel : Nat} (h : Follows SameTerm (term fuel) (term fuel)) :
    Follows SameTerm (operand (fuel + 1)) (operand (fuel + 1)) := by
  refine .peeked .refuse fun l m hlm => ?_
  dsimp only
  rw [← hlm]
  cases l.token with
  | bound c => exact .advanced (.pure rfl)
  | text s => exact .advanced (.pure rfl)
  | number s => exact follows_numberTerm fun a b hab => .advanced (.pure hab)
  | name s => exact .advanced (follows_columnAfter s l.offset m.offset)
  | word s => exact follows_wordTerm h l m s
  | mark s => exact .refuse
  | stray => exact .refuse

theorem follows_factor {fuel : Nat} (h : Follows SameTerm (operand fuel) (operand fuel)) :
    Follows SameTerm (factor (fuel + 1)) (factor (fuel + 1)) := by
  refine h.bind fun a b hab => .ifMark (h.map fun c d hcd => ?_) (.pure hab)
  exact hab.congr₂ hcd .part fun _ _ => rfl

theorem follows_sum {fuel : Nat} (h : Follows SameTerm (factor fuel) (factor fuel)) :
    Follows SameTerm (term (fuel + 1)) (term (fuel + 1)) := by
  refine h.bind fun a b hab => .ifMark (h.map fun c d hcd => ?_)
    (.ifMark (h.map fun c d hcd => ?_) ?_)
  · exact hab.congr₂ hcd .plus fun _ _ => rfl
  · exact hab.congr₂ hcd .minus fun _ _ => rfl
  · exact .pure hab

/-- **A term is read again but for its places**, and so are its parts, however deep. -/
theorem follows_terms : ∀ fuel, Follows SameTerm (operand fuel) (operand fuel) ∧
    Follows SameTerm (factor fuel) (factor fuel) ∧ Follows SameTerm (term fuel) (term fuel) := by
  intro fuel
  induction fuel with
  | zero => exact ⟨.refuse, .refuse, .refuse⟩
  | succ fuel ih =>
    obtain ⟨hoperand, hfactor, hterm⟩ := ih
    exact ⟨follows_operand hterm, follows_factor hoperand, follows_sum hfactor⟩

theorem follows_term (fuel : Nat) : Follows SameTerm (term fuel) (term fuel) :=
  (follows_terms fuel).2.2

/-! ### Tests -/

/-- Tests that differ in their places. -/
def SameTest (t u : Test) : Prop := t.unplaced = u.unplaced

section Tests

variable {a b : Term}

theorem SameTest.compare (op : Comparison) {c d : Term} (hab : SameTerm a b) (hcd : SameTerm c d) :
    SameTest (.compare op a c) (.compare op b d) := by
  rw [SameTest, Test.unplaced, Test.unplaced, hab, hcd]

theorem sameTest_listTest (negated : Bool) (hab : SameTerm a b) {items others : List Term}
    (h : List.Forall₂ SameTerm items others) :
    SameTest (listTest negated a items) (listTest negated b others) := by
  have hitems : items.map Term.unplaced = others.map Term.unplaced := by
    rw [← List.forall₂_eq_eq_eq, List.forall₂_map_left_iff, List.forall₂_map_right_iff]
    exact h
  have hamong : SameTest (.among negated a items) (.among negated b others) := by
    rw [SameTest, Test.unplaced, Test.unplaced, hab, hitems]
  cases h with
  | nil => exact hamong
  | cons hcd hrest =>
    cases hrest with
    | nil =>
      cases negated with
      | true => exact hamong
      | false => exact .compare .equal hab hcd
    | cons _ _ => exact hamong

variable (hab : SameTerm a b) (fuel : Nat)
include hab

theorem follows_listed (negated : Bool) :
    Follows SameTest (listed fuel negated a) (listed fuel negated b) :=
  ((follows_term fuel).separated fuel).enclosed.map fun _ _ h => sameTest_listTest negated hab h

theorem follows_pattern (kind : PatternKind) :
    Follows SameTest (do return .fits kind a (← term fuel))
      (do return .fits kind b (← term fuel)) := by
  refine (follows_term fuel).map fun c d hcd => ?_
  rw [SameTest, Test.unplaced, Test.unplaced, hab, hcd]

/-- A test of a term is read again, after the term. -/
theorem follows_testAfter : Follows SameTest (testAfter fuel a) (testAfter fuel b) := by
  refine .ifKeyword (follows_listed hab fuel false) (.ifKeyword ?_ (.ifKeyword ?_
    (.ifKeyword ?_ (.ifKeyword ?_ ?_))))
  · exact (follows_keywords ["IN"]).bind fun _ _ _ => follows_listed hab fuel true
  · exact follows_pattern hab fuel .like
  · exact follows_pattern hab fuel .glob
  · refine (follows_acceptAny ["NOT"]).bind fun negated other hsame => ?_
    refine (follows_keywords ["NULL"]).map fun _ _ _ => ?_
    rw [SameTest, Test.unplaced, Test.unplaced, hab, hsame]
  · refine .peeked .refuse fun l m hlm => ?_
    obtain ⟨token, written, offset⟩ := l
    obtain ⟨token, written, offset⟩ := m
    obtain rfl := hlm
    cases token with
    | mark s =>
      dsimp only
      cases Comparison.ofText? s with
      | some op => exact .advanced ((follows_term fuel).map fun c d hcd => .compare op hab hcd)
      | none => exact .refuse
    | _ => exact .refuse

end Tests

/-- Tests that are joined one after the other differ in their places if they do. -/
theorem sameTest_foldl {join : Test → Test → Test}
    (hjoin : ∀ t u, (join t u).unplaced = join t.unplaced u.unplaced) {ts us : List Test}
    (h : List.Forall₂ SameTest ts us) : ∀ {t u : Test}, SameTest t u →
      SameTest (ts.foldl join t) (us.foldl join u) := by
  induction h with
  | nil => exact fun htu => htu
  | cons hv _ ih =>
    intro t u htu
    refine ih ?_
    rw [SameTest, hjoin, hjoin, htu, hv]

theorem follows_joined (join : Test → Test → Test)
    (hjoin : ∀ t u, (join t u).unplaced = join t.unplaced u.unplaced) {ts us : List Test}
    (h : List.Forall₂ SameTest ts us) : Follows SameTest (joined join ts) (joined join us) := by
  cases h with
  | nil => exact .refuse
  | cons ht hrest => exact .pure (sameTest_foldl hjoin hrest ht)

theorem Follows.sequence {keyword : String} {p q : Parse Test} (h : Follows SameTest p q) :
    ∀ fuel, Follows (List.Forall₂ SameTest) (sequence keyword p fuel)
      (sequence keyword q fuel) := by
  intro fuel
  induction fuel with
  | zero => exact .refuse
  | succ fuel ih =>
    refine h.bind fun t u htu => .ifKeyword (ih.map fun ts us hrest => .cons htu hrest) ?_
    exact .pure (.cons htu .nil)

theorem follows_noInnerStatement : Follows Eq noInnerStatement noInnerStatement := by
  refine .ifKeyword (.refused fun ls x => ?_) (.ifKeyword (.refused fun ls x => ?_)
    (.ifKeyword (.refused fun ls x => ?_) ?_))
  · exact bind_ne_ok fun _ out _ => refuse_bind_ne_ok _ out x
  · exact bind_ne_ok fun _ out _ => refuse_bind_ne_ok _ out x
  · exact refuse_ne_ok ls x
  · exact .pure rfl

theorem follows_groupAfter {p : Parse Test} (h : Follows SameTest p p) :
    Follows SameTest (groupAfter p) (groupAfter p) := by
  refine follows_noInnerStatement.bind fun _ _ _ => h.bind fun t u htu => ?_
  exact (follows_mark ")").map fun _ _ _ => htu

theorem follows_elementTest {fuel : Nat} {p : Parse Test} (h : Follows SameTest p p) :
    Follows SameTest (elementTest fuel p) (elementTest fuel p) := by
  refine (follows_keywords _).bind fun _ _ _ => (follows_terms fuel).1.bind fun _ _ _ => ?_
  refine (follows_keywords _).bind fun _ _ _ => ?_
  refine (follows_couple (follows_term fuel)).enclosed.bind fun c d hcd => ?_
  refine (follows_keywords _).bind fun _ _ _ => h.bind fun t u htu => ?_
  refine (follows_mark ")").map fun _ _ _ => ?_
  rw [SameTest, Test.unplaced, Test.unplaced, hcd.1, hcd.2, htu]

theorem follows_simpleTest {fuel : Nat} (h : Follows SameTest (test fuel) (test fuel)) :
    Follows SameTest (simpleTest (fuel + 1)) (simpleTest (fuel + 1)) := by
  refine .ifMark (follows_groupAfter h) (.ifKeyword ?_ ?_)
  · exact (follows_mark "(").bind fun _ _ _ => follows_elementTest h
  · exact (follows_term fuel).bind fun a b hab => follows_testAfter hab fuel

theorem follows_choice {fuel : Nat} (h : Follows SameTest (simpleTest fuel) (simpleTest fuel)) :
    Follows SameTest (test (fuel + 1)) (test (fuel + 1)) := by
  have hconjunction : Follows SameTest (do joined .both (← sequence "AND" (simpleTest fuel) fuel))
      (do joined .both (← sequence "AND" (simpleTest fuel) fuel)) :=
    (h.sequence fuel).bind fun ts us hts => follows_joined .both (fun _ _ => rfl) hts
  exact (hconjunction.sequence fuel).bind fun ts us hts =>
    follows_joined .either (fun _ _ => rfl) hts

/-- **A test is read again but for its places**, with or without parentheses. -/
theorem follows_tests : ∀ fuel, Follows SameTest (simpleTest fuel) (simpleTest fuel) ∧
    Follows SameTest (test fuel) (test fuel) := by
  intro fuel
  induction fuel with
  | zero => exact ⟨.refuse, .refuse⟩
  | succ fuel ih => exact ⟨follows_simpleTest ih.2, follows_choice ih.1⟩

/-- **A condition is read again wherever its tokens stand.** -/
theorem follows_condition : Follows (Option.Rel SameTest) condition condition := by
  intro ls ms out c hls hc
  have hlength : ls.length = ms.length := by simpa using congrArg List.length hls
  unfold condition at hc ⊢
  rw [← hlength]
  exact (follows_tests _).2.after ls ms out c hls hc

end ResourceTable.Sql.Parse
