import Mathlib.Data.List.Forall2
import ResourceTable.Sql.Evaluation
import ResourceTable.Sql.Parser

/-!
# What readers pass over

A reader of statements can refuse what it is given.  What matters of one that does not
is how far it went: it covers some tokens if, whenever it accepts lexemes that begin
with these tokens, it has passed over just these.  Nothing is said of how deep it may
go, because a reader that runs out of depth refuses.

## Main definitions

* `Parse.Covers p ts next P`: the reader `p` covers the tokens `ts` in front of a token
  that `next` allows, and gives something that satisfies `P`.

## Main results

* `Covers.bind` — readers that follow each other cover what they cover one by one.
* `Covers.whenKeyword`, `Covers.unlessKeyword` — a look-ahead decides by the next token.
-/

namespace ResourceTable.Sql.Parse

variable {α β : Type}

/-- The token of the first lexeme. -/
def headToken (ls : List Lexeme) : Option Token := ls.head?.map Lexeme.token

/-- A reader that accepts lexemes with the tokens `ts`, in front of a token that `next`
allows, has passed over just these, and what it gives satisfies `P`. -/
def Covers (p : Parse α) (ts : List Token) (next : Option Token → Prop) (P : α → Prop) : Prop :=
  ∀ (ls rest out : List Lexeme) (a : α), ls.map Lexeme.token = ts → next (headToken rest) →
    p (ls ++ rest) = .ok (a, out) → out = rest ∧ P a

theorem bind_run (p : Parse α) (f : α → Parse β) (ls : List Lexeme) :
    (p >>= f) ls = p ls >>= fun x => f x.1 x.2 := rfl

theorem refuse_ne_ok (ls : List Lexeme) (x : α × List Lexeme) : (refuse : Parse α) ls ≠ .ok x := by
  intro h
  unfold refuse at h
  split at h
  · cases h
  · split at h <;> cases h

theorem headToken_append {ls rest : List Lexeme} {ts : List Token}
    (h : ls.map Lexeme.token = ts) : headToken (ls ++ rest) = ts.head?.or (headToken rest) := by
  cases ls with
  | nil =>
    rw [← h]
    rfl
  | cons l more =>
    rw [← h]
    rfl

namespace Covers

variable {p : Parse α} {ts us : List Token} {next : Option Token → Prop} {P : α → Prop}
  {Q : β → Prop}

theorem pure {a : α} (h : P a) : Covers (Pure.pure a) [] next P := by
  intro ls rest out b hls _ hb
  rw [List.map_eq_nil_iff.1 hls] at hb
  cases hb
  exact ⟨rfl, h⟩

/-- What always refuses covers anything. -/
theorem refused (h : ∀ ls rest x, ls.map Lexeme.token = ts → p (ls ++ rest) ≠ .ok x) :
    Covers p ts next P := by
  intro ls rest out a hls _ ha
  exact absurd ha (h ls rest _ hls)

theorem refuse : Covers (Parse.refuse : Parse α) ts next P :=
  refused fun ls rest x _ => refuse_ne_ok (ls ++ rest) x

theorem mono {P' : α → Prop} {next' : Option Token → Prop} (h : Covers p ts next P)
    (hnext : ∀ t, next' t → next t) (hP : ∀ a, P a → P' a) : Covers p ts next' P' := by
  intro ls rest out a hls hrest ha
  obtain ⟨hout, ha⟩ := h ls rest out a hls (hnext _ hrest) ha
  exact ⟨hout, hP a ha⟩

/-- **Readers that follow each other cover what they cover one by one.**  The first one
stands in front of what the second one covers. -/
theorem bind {next' : Option Token → Prop} {f : α → Parse β} (hp : Covers p ts next' P)
    (hf : ∀ a, P a → Covers (f a) us next Q)
    (hnext : ∀ t, next t → next' (us.head?.or t)) : Covers (p >>= f) (ts ++ us) next Q := by
  intro ls rest out b hls hrest hb
  obtain ⟨first, more, rfl, hfirst, hmore⟩ := List.map_eq_append_iff.1 hls
  rw [List.append_assoc, bind_run] at hb
  obtain ⟨⟨a, middle⟩, ha, hb⟩ := Test.bind_eq_ok hb
  have hhead := hnext _ hrest
  rw [← headToken_append hmore] at hhead
  obtain ⟨rfl, hP⟩ := hp first (more ++ rest) middle a hfirst hhead ha
  exact hf a hP more rest out b hmore hrest hb

/-- What is given is changed. -/
theorem map {f : α → β} (hp : Covers p ts next P) (hf : ∀ a, P a → Q (f a)) :
    Covers (do return f (← p)) ts next Q := by
  have hall : Covers (p >>= fun a => Pure.pure (f a)) (ts ++ []) next Q :=
    hp.bind (fun a ha => pure (hf a ha)) fun t ht => ht
  rw [List.append_nil] at hall
  exact hall

end Covers

/-! ### Looking ahead -/

/-- Whether the token is one of the keywords. -/
def IsKeyword (ks : List String) (t : Option Token) : Prop :=
  ∃ w, t = some (.word w) ∧ Keyword.upper w ∈ ks

theorem acceptMark_run (s : String) (ls : List Lexeme) :
    acceptMark s ls =
      .ok (if headToken ls = some (.mark s) then (true, ls.tail) else (false, ls)) := by
  rcases ls with _ | ⟨⟨token, written, offset⟩, rest⟩
  · rfl
  · cases token with
    | mark t =>
      have hrun : acceptMark s (⟨.mark t, written, offset⟩ :: rest) =
          (if t = s then do advance; return true else return false : Parse Bool)
            (⟨.mark t, written, offset⟩ :: rest) := rfl
      rw [hrun]
      by_cases h : t = s
      · rw [if_pos h, if_pos (by rw [h]; rfl)]
        rfl
      · have hhead : headToken (⟨.mark t, written, offset⟩ :: rest) ≠ some (.mark s) := fun he =>
          h (Token.mark.inj (Option.some.inj he))
        rw [if_neg h, if_neg hhead]
        rfl
    | _ => exact congrArg Except.ok (if_neg nofun).symm

theorem acceptAny_run (ks : List String) (ls : List Lexeme) :
    (IsKeyword ks (headToken ls) ∧ acceptAny ks ls = .ok (true, ls.tail)) ∨
      (¬ IsKeyword ks (headToken ls) ∧ acceptAny ks ls = .ok (false, ls)) := by
  rcases ls with _ | ⟨⟨token, written, offset⟩, rest⟩
  · exact .inr ⟨fun ⟨w, hw, _⟩ => (nomatch hw), rfl⟩
  · cases token with
    | word w =>
      have hrun : acceptAny ks (⟨.word w, written, offset⟩ :: rest) =
          (if Keyword.upper w ∈ ks then do advance; return true else return false : Parse Bool)
            (⟨.word w, written, offset⟩ :: rest) := rfl
      rw [hrun]
      by_cases h : Keyword.upper w ∈ ks
      · rw [if_pos h]
        exact .inl ⟨⟨w, rfl, h⟩, rfl⟩
      · rw [if_neg h]
        refine .inr ⟨fun ⟨v, hv, hmem⟩ => h ?_, rfl⟩
        rwa [Token.word.inj (Option.some.inj hv)]
    | _ => exact .inr ⟨fun ⟨w, hw, _⟩ => (nomatch hw), rfl⟩

theorem acceptAny_cons {ks : List String} {w : String} {l : Lexeme} {rest : List Lexeme}
    (hl : l.token = .word w) (hw : Keyword.upper w ∈ ks) :
    acceptAny ks (l :: rest) = .ok (true, rest) := by
  rcases acceptAny_run ks (l :: rest) with ⟨-, hrun⟩ | ⟨hnot, -⟩
  · exact hrun
  · exact absurd ⟨w, congrArg some hl, hw⟩ hnot

theorem acceptAny_other {ks : List String} {ls : List Lexeme}
    (h : ¬ IsKeyword ks (headToken ls)) : acceptAny ks ls = .ok (false, ls) := by
  rcases acceptAny_run ks ls with ⟨hyes, -⟩ | ⟨-, hrun⟩
  · exact absurd hyes h
  · exact hrun

namespace Covers

variable {f : Bool → Parse β} {us : List Token} {next : Option Token → Prop} {Q : β → Prop}

theorem whenMark {s : String} (h : Covers (f true) us next Q) :
    Covers (acceptMark s >>= f) (.mark s :: us) next Q := by
  intro ls rest out b hls hrest hb
  obtain ⟨l, more, rfl, hl, hmore⟩ := List.map_eq_cons_iff.1 hls
  have hhead : headToken (l :: (more ++ rest)) = some (.mark s) := congrArg some hl
  rw [List.cons_append, bind_run, acceptMark_run, if_pos hhead] at hb
  exact h more rest out b hmore hrest hb

theorem unlessMark {s : String} (hnot : ∀ t, next t → us.head?.or t ≠ some (.mark s))
    (h : Covers (f false) us next Q) : Covers (acceptMark s >>= f) us next Q := by
  intro ls rest out b hls hrest hb
  have hhead := hnot _ hrest
  rw [← headToken_append hls] at hhead
  rw [bind_run, acceptMark_run, if_neg hhead] at hb
  exact h ls rest out b hls hrest hb

theorem whenKeyword {ks : List String} {w : String} (hw : Keyword.upper w ∈ ks)
    (h : Covers (f true) us next Q) : Covers (acceptAny ks >>= f) (.word w :: us) next Q := by
  intro ls rest out b hls hrest hb
  obtain ⟨l, more, rfl, hl, hmore⟩ := List.map_eq_cons_iff.1 hls
  rw [List.cons_append, bind_run] at hb
  rcases acceptAny_run ks (l :: (more ++ rest)) with ⟨-, hrun⟩ | ⟨hnot, -⟩
  · rw [hrun] at hb
    exact h more rest out b hmore hrest hb
  · exact absurd ⟨w, congrArg some hl, hw⟩ hnot

theorem unlessKeyword {ks : List String} (hnot : ∀ t, next t → ¬ IsKeyword ks (us.head?.or t))
    (h : Covers (f false) us next Q) : Covers (acceptAny ks >>= f) us next Q := by
  intro ls rest out b hls hrest hb
  have hhead := hnot _ hrest
  rw [← headToken_append hls] at hhead
  rw [bind_run] at hb
  rcases acceptAny_run ks (ls ++ rest) with ⟨hyes, -⟩ | ⟨-, hrun⟩
  · exact absurd hyes hhead
  · rw [hrun] at hb
    exact h ls rest out b hls hrest hb

/-- A look at the next lexeme, with the token that it is known to have. -/
theorem peeked {g : Option Lexeme → Parse β} {t : Token}
    (h : ∀ l : Lexeme, l.token = t → Covers (g (some l)) (t :: us) next Q) :
    Covers (peek >>= g) (t :: us) next Q := by
  intro ls rest out b hls hrest hb
  obtain ⟨l, more, rfl, hl, hmore⟩ := List.map_eq_cons_iff.1 hls
  exact h l hl (l :: more) rest out b hls hrest hb

theorem advanced {g : Unit → Parse β} {t : Token} (h : Covers (g ()) us next Q) :
    Covers (advance >>= g) (t :: us) next Q := by
  intro ls rest out b hls hrest hb
  obtain ⟨l, more, rfl, hl, hmore⟩ := List.map_eq_cons_iff.1 hls
  exact h more rest out b hmore hrest hb

end Covers

/-! ### Marks, keywords and names -/

section Basics

variable {next : Option Token → Prop}

theorem covers_mark (s : String) : Covers (mark s) [.mark s] next fun _ => True :=
  Covers.whenMark (.pure trivial)

theorem covers_keywords : ∀ {ks ws : List String}, ws.map Keyword.upper = ks →
    Covers (keywords ks) (ws.map Token.word) next fun _ => True := by
  intro ks ws h
  induction ws generalizing ks with
  | nil =>
    rw [← h]
    exact .pure trivial
  | cons w rest ih =>
    rw [← h]
    exact .whenKeyword (List.mem_singleton.2 rfl) (ih rfl)

/-- What follows a mark that has to be there. -/
theorem Covers.afterMark {s : String} {f : Unit → Parse α} {us : List Token} {P : α → Prop}
    (h : Covers (f ()) us next P) : Covers (mark s >>= f) (.mark s :: us) next P := by
  have hmark : Covers (mark s) [.mark s] (fun _ => True) fun _ => True := covers_mark s
  exact hmark.bind (fun _ _ => h) fun _ _ => trivial

/-- What follows keywords that have to be there. -/
theorem Covers.afterKeywords {ks ws : List String} {f : Unit → Parse α} {us : List Token}
    {P : α → Prop} (hws : ws.map Keyword.upper = ks) (h : Covers (f ()) us next P) :
    Covers (keywords ks >>= f) (ws.map Token.word ++ us) next P := by
  have hkeywords : Covers (keywords ks) (ws.map Token.word) (fun _ => True) fun _ => True :=
    covers_keywords hws
  exact hkeywords.bind (fun _ _ => h) fun _ _ => trivial

theorem covers_name (w : String) : Covers name [.word w] next (· = w) := by
  refine .peeked fun l hl => ?_
  obtain ⟨token, written, offset⟩ := l
  obtain rfl : token = .word w := hl
  by_cases h : Keyword.isReserved w = true
  · simp only [h, if_true]
    exact .refuse
  · simp only [h]
    exact .advanced (.pure rfl)

theorem covers_quotedName (s : String) : Covers name [.name s] next (· = s) := by
  refine .peeked fun l hl => ?_
  obtain ⟨token, written, offset⟩ := l
  obtain rfl : token = .name s := hl
  exact .advanced (.pure rfl)

variable {P : α → Prop}

theorem covers_enclosed {inner : Parse α} {ts : List Token}
    (h : Covers inner ts (· = some (.mark ")")) P) :
    Covers (enclosed inner) (.mark "(" :: (ts ++ [.mark ")"])) next P := by
  refine .afterMark ?_
  exact h.bind (fun a ha => (covers_mark ")").map fun _ _ => ha) fun _ _ => rfl

theorem covers_after {keyword w : String} {part : Parse α} {ts : List Token}
    (hw : Keyword.upper w = keyword) (h : Covers part ts next P) :
    Covers (after keyword part) (.word w :: ts) next fun a => ∃ b, a = some b ∧ P b :=
  .whenKeyword (List.mem_singleton.2 hw) (h.map fun a ha => ⟨a, rfl, ha⟩)

theorem covers_not_after {keyword : String} {part : Parse α} :
    Covers (after keyword part) [] (fun t => ¬ IsKeyword [keyword] t) (· = none) :=
  .unlessKeyword (fun _ ht => ht) (.pure rfl)

/-! ### Lists -/

/-- The tokens of some parts with a token between them. -/
def joinedTokens {ι : Type} (between : Token) (tokens : ι → List Token) : List ι → List Token
  | [] => []
  | [x] => tokens x
  | x :: y :: rest => tokens x ++ between :: joinedTokens between tokens (y :: rest)

theorem joinedTokens_map {ι κ : Type} (between : Token) (tokens : κ → List Token) (f : ι → κ) :
    ∀ xs : List ι, joinedTokens between tokens (xs.map f) =
      joinedTokens between (fun x => tokens (f x)) xs := by
  intro xs
  induction xs with
  | nil => rfl
  | cons x rest ih =>
    cases rest with
    | nil => rfl
    | cons y more => exact congrArg (tokens (f x) ++ between :: ·) ih

/-- Between parts there is one token less than there are parts. -/
theorem length_le_joinedTokens {ι : Type} (between : Token) (tokens : ι → List Token)
    (xs : List ι) : xs.length ≤ (joinedTokens between tokens xs).length + 1 := by
  induction xs with
  | nil => exact Nat.zero_le _
  | cons x rest ih =>
    cases rest with
    | nil => exact Nat.le_add_left 1 _
    | cons y more =>
      simp only [joinedTokens, List.length_append, List.length_cons] at ih ⊢
      omega

/-- The tokens of a part are among those of all. -/
theorem length_le_joinedTokens_of_mem {ι : Type} (between : Token) (tokens : ι → List Token)
    {x : ι} {xs : List ι} (h : x ∈ xs) :
    (tokens x).length ≤ (joinedTokens between tokens xs).length := by
  induction xs with
  | nil => cases h
  | cons y rest ih =>
    cases rest with
    | nil => exact List.mem_singleton.1 h ▸ Nat.le_refl _
    | cons z more =>
      rw [joinedTokens, List.length_append, List.length_cons]
      rcases List.mem_cons.1 h with rfl | h
      · omega
      · have hmore := ih h
        omega

theorem head?_joinedTokens {ι : Type} {between t : Token} {tokens : ι → List Token} {x : ι}
    {rest : List ι} (h : (tokens x).head? = some t) :
    (joinedTokens between tokens (x :: rest)).head? = some t := by
  cases rest with
  | nil => exact h
  | cons y more => rw [joinedTokens, List.head?_append, h, Option.some_or]

/-- What is read of every part is what is to be read of it. -/
theorem eq_map_of_forall₂ {ι α : Type} {g : ι → α} {l : List ι} {as : List α}
    (h : List.Forall₂ (fun x a => a = g x) l as) : as = l.map g := by
  rw [← List.forall₂_eq_eq_eq, List.forall₂_map_right_iff]
  exact h.flip

/-- What a part of a list may stand in front of. -/
def OrComma (next : Option Token → Prop) (t : Option Token) : Prop := t = some (.mark ",") ∨ next t

/-- A list is read part by part. -/
theorem covers_separated {ι : Type} {tokens : ι → List Token} {R : ι → α → Prop}
    {part : Parse α} {xs : List ι} (hne : xs ≠ [])
    (h : ∀ x ∈ xs, Covers part (tokens x) (OrComma next) (R x))
    (hcomma : ∀ t, next t → t ≠ some (.mark ",")) :
    ∀ fuel, Covers (separated part fuel) (joinedTokens (.mark ",") tokens xs) next
      (List.Forall₂ R xs) := by
  induction xs with
  | nil => exact absurd rfl hne
  | cons x rest ih =>
    intro fuel
    obtain ⟨hx, hrest⟩ := List.forall_mem_cons.1 h
    cases fuel with
    | zero => exact .refuse
    | succ fuel =>
      cases rest with
      | nil =>
        have hpart : Covers (separated part (fuel + 1)) (tokens x ++ []) next
            (List.Forall₂ R [x]) := by
          -- The last part: what comes next is no comma, so the reader stops.
          refine hx.bind (fun a ha => .unlessMark hcomma (.pure ?_)) fun t ht => .inr ht
          exact .cons ha .nil
        rwa [List.append_nil] at hpart
      | cons y more =>
        refine hx.bind (fun a ha => .whenMark ?_) fun t ht => .inl rfl
        exact (ih (List.cons_ne_nil y more) hrest fuel).map fun l hl => .cons ha hl

/-- A test without a keyword after it is read alone. -/
theorem covers_sequence_one {keyword : String} {part : Parse Test} {ts : List Token}
    {P : Test → Prop} (h : Covers part ts (fun t => IsKeyword [keyword] t ∨ next t) P)
    (hstop : ∀ t, next t → ¬ IsKeyword [keyword] t) : ∀ fuel,
    Covers (sequence keyword part fuel) ts next fun l => ∃ t, l = [t] ∧ P t := by
  intro fuel
  cases fuel with
  | zero => exact .refuse
  | succ fuel =>
    have hall : Covers (sequence keyword part (fuel + 1)) (ts ++ []) next
        fun l => ∃ t, l = [t] ∧ P t :=
      h.bind (fun a ha => .unlessKeyword hstop (.pure ⟨a, rfl, ha⟩)) fun t ht => .inr ht
    rwa [List.append_nil] at hall

/-- Tests with a keyword between them are read one by one. -/
theorem covers_sequence {ι : Type} {tokens : ι → List Token} {R : ι → Test → Prop}
    {keyword w : String} (hw : Keyword.upper w = keyword) {part : Parse Test} {xs : List ι}
    (hne : xs ≠ [])
    (h : ∀ x ∈ xs, Covers part (tokens x) (fun t => IsKeyword [keyword] t ∨ next t) (R x))
    (hstop : ∀ t, next t → ¬ IsKeyword [keyword] t) :
    ∀ fuel, Covers (sequence keyword part fuel) (joinedTokens (.word w) tokens xs) next
      (List.Forall₂ R xs) := by
  induction xs with
  | nil => exact absurd rfl hne
  | cons x rest ih =>
    intro fuel
    obtain ⟨hx, hrest⟩ := List.forall_mem_cons.1 h
    cases fuel with
    | zero => exact .refuse
    | succ fuel =>
      cases rest with
      | nil =>
        refine (covers_sequence_one hx hstop (fuel + 1)).mono (fun _ ht => ht) ?_
        rintro l ⟨t, rfl, ht⟩
        exact .cons ht .nil
      | cons y more =>
        have hkeyword : Keyword.upper w ∈ [keyword] := List.mem_singleton.2 hw
        refine hx.bind (fun a ha => .whenKeyword hkeyword ?_) fun t ht => .inl ⟨w, rfl, hkeyword⟩
        exact (ih (List.cons_ne_nil y more) hrest fuel).map fun l hl => .cons ha hl

end Basics

end ResourceTable.Sql.Parse
