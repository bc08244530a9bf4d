import ResourceTable.Proofs.PrintPlaceholders

/-!
# What the placeholders of a text are

Any text can be read as a statement with placeholders, also one with quotes that are never
closed and colons that begin nothing.  A placeholder is a colon outside of quotes with a name
after it, as far as the name goes; every other character stands for itself.  There is one such
reading of a text, and the reader that takes one character after the other finds it.

## Main definitions

* `quoteAfter`, `unquoted`: the quote that is open, and what stands outside of quotes.
* `Piece.ReadsAs`: a text is read as pieces.

## Main results

* `Piece.readsAs_iff` — **a text is read as the pieces that are found by scanning it**, and as
  no others.
* `Placeholder.toList_substitute` — its placeholders are what is replaced.
-/

namespace ResourceTable

/-! ### Quotes -/

/-- The quote that is open after a character. -/
def quoteAfter (c : Char) : Option Char → Option Char
  | none => if c = '\'' ∨ c = '"' then some c else none
  | some quote => if c = quote then none else some quote

/-- The members of a text that are read while no quote is open; `f` gives their characters. -/
def unquoted {α : Type} (f : α → Char) : Option Char → List α → List α
  | _, [] => []
  | quote, a :: rest =>
    (if quote = none then [a] else []) ++ unquoted f (quoteAfter (f a) quote) rest

section Quotes

variable {α : Type} {f : α → Char}

theorem quoteAfter_none {c : Char} (h : c ≠ '\'' ∧ c ≠ '"') : quoteAfter c none = none :=
  if_neg (not_or.2 h)

/-- A placeholder has no quotes. -/
theorem ne_quote_of_placeholder {name : List Char} (h : ∀ c ∈ name, isNamePart c = true) :
    ∀ c ∈ ':' :: name, c ≠ '\'' ∧ c ≠ '"' := by
  refine List.forall_mem_cons.2 ⟨by decide, fun c hc => ?_⟩
  exact ⟨ne_of_isNamePart (h c hc) (by decide), ne_of_isNamePart (h c hc) (by decide)⟩

/-- Without quotes, all of a text stands outside of them. -/
theorem unquoted_append_of_forall (bs : List α) : ∀ {as : List α},
    (∀ a ∈ as, f a ≠ '\'' ∧ f a ≠ '"') →
      unquoted f none (as ++ bs) = as ++ unquoted f none bs := by
  intro as
  induction as with
  | nil => exact fun _ => rfl
  | cons a rest ih =>
    intro h
    obtain ⟨ha, hrest⟩ := List.forall_mem_cons.1 h
    rw [List.cons_append, unquoted, quoteAfter_none ha, ih hrest, if_pos rfl]
    rfl

/-- Whether a member stands outside of quotes depends on the characters alone. -/
theorem map_unquoted (f : α → Char) : ∀ (quote : Option Char) (as : List α),
    (unquoted f quote as).map f = unquoted id quote (as.map f) := by
  intro quote as
  induction as generalizing quote with
  | nil => rfl
  | cons a rest ih =>
    rw [unquoted, List.map_append, ih, List.map_cons, unquoted]
    split <;> rfl

end Quotes

/-! ### Readings -/

namespace Piece

/-- How a text is read, the quote being given that is open before it: a colon outside of quotes
with a name after it is a placeholder, whose name goes as far as it can. -/
inductive ReadsAs : Option Char → List Char → List Piece → Prop
  /-- There is nothing to read. -/
  | nil {quote : Option Char} : ReadsAs quote [] []
  /-- A placeholder. -/
  | placeholder {name : String} {rest : List Char} {ps : List Piece}
      (hname : isBareName name.toList = true) (hend : ∀ c ∈ rest.head?, isNamePart c = false)
      (h : ReadsAs none rest ps) :
      ReadsAs none (':' :: (name.toList ++ rest)) (.placeholder name :: ps)
  /-- A character that begins no placeholder. -/
  | char {quote : Option Char} {c : Char} {rest : List Char} {ps : List Piece}
      (hcolon : quote = none → c = ':' → ∀ d ∈ rest.head?, isNameStart d = false)
      (h : ReadsAs (quoteAfter c quote) rest ps) : ReadsAs quote (c :: rest) (.char c :: ps)

/-- The state of a reader that has nothing pending. -/
def Scan.within : Option Char → Scan
  | none => .plain
  | some quote => .quoted quote

theorem scanFrom_within_nil (quote : Option Char) : scanFrom (.within quote) [] = [] := by
  cases quote <;> rfl

/-- What is pending ends before a character that does not go on with it. -/
theorem scanFrom_pending {s : Scan} {rest : List Char}
    (h : ∀ c ∈ rest.head?, s.step c = (s.flush ++ (Scan.enter c).1, (Scan.enter c).2)) :
    scanFrom s rest = s.flush ++ scanFrom .plain rest := by
  cases rest with
  | nil => exact (List.append_nil _).symm
  | cons c more => exact scanFrom_of_step more (h c rfl)

/-- A name after a colon is found as far as it goes. -/
theorem scanFrom_placeholder {name : String} {rest : List Char}
    (hname : isBareName name.toList = true) (hend : ∀ c ∈ rest.head?, isNamePart c = false) :
    scanFrom .plain (':' :: (name.toList ++ rest)) = .placeholder name :: scanFrom .plain rest := by
  let i : Ink String := .hole name
  obtain ⟨hpieces, hafter⟩ := completed_ink (i := i) trivial fun other he => by
    rw [← Ink.hole.inj he]
    exact hname
  have hleft : i.left = .name name.toList.reverse := rfl
  have hpending : scanFrom i.left rest = i.left.flush ++ scanFrom .plain rest := by
    refine scanFrom_pending fun c hc => ?_
    rw [hleft, Scan.step, if_neg (by simp [hend c hc])]
  show scanFrom .plain (i.chars named ++ rest) = _
  rw [scanFrom_append, hafter, hpending, ← List.append_assoc, hpieces]
  rfl

/-- A character that begins no placeholder is found as it stands. -/
theorem scanFrom_char {quote : Option Char} {c : Char} {rest : List Char}
    (hcolon : quote = none → c = ':' → ∀ d ∈ rest.head?, isNameStart d = false) :
    scanFrom (.within quote) (c :: rest) =
      .char c :: scanFrom (.within (quoteAfter c quote)) rest := by
  cases quote with
  | some quote =>
    have hstep : Scan.step c (.within (some quote)) =
        ([.char c], .within (quoteAfter c (some quote))) := by
      rw [Scan.within, Scan.step, quoteAfter]
      split <;> rfl
    simp only [scanFrom, completed, after, hstep, List.append_assoc]
    rfl
  | none =>
    have hplain : Scan.step c (.within none) = Scan.enter c := rfl
    by_cases hquote : c = '\'' ∨ c = '"'
    · have henter : Scan.enter c = ([.char c], .within (quoteAfter c none)) := by
        rw [Scan.enter, if_pos hquote, quoteAfter, if_pos hquote]
        rfl
      simp only [scanFrom, completed, after, hplain, henter, List.append_assoc]
      rfl
    · have hnone : quoteAfter c none = none := if_neg hquote
      by_cases hc : c = ':'
      · have hpending : scanFrom .colon rest = [.char ':'] ++ scanFrom .plain rest := by
          refine scanFrom_pending fun d hd => ?_
          rw [Scan.step, if_neg (by simp [hcolon rfl hc d hd])]
        rw [hnone, hc]
        exact hpending
      · have henter : Scan.enter c = ([.char c], .plain) := by
          rw [Scan.enter, if_neg hquote, if_neg hc]
        rw [hnone]
        simp only [scanFrom, completed, after, hplain, henter, List.append_assoc]
        rfl

/-- A text is read as nothing but what is found by scanning it. -/
theorem ReadsAs.eq_scanFrom {quote : Option Char} {cs : List Char} {ps : List Piece}
    (h : ReadsAs quote cs ps) : ps = scanFrom (.within quote) cs := by
  induction h with
  | nil => exact (scanFrom_within_nil _).symm
  | placeholder hname hend _ ih => exact (ih ▸ scanFrom_placeholder hname hend).symm
  | char hcolon _ ih => exact (ih ▸ scanFrom_char hcolon).symm

/-- A text goes on with a part of a name, which may be empty. -/
theorem exists_namePart (cs : List Char) : ∃ part tail, cs = part ++ tail ∧
    (∀ c ∈ part, isNamePart c = true) ∧ ∀ c ∈ tail.head?, isNamePart c = false := by
  refine ⟨cs.takeWhile isNamePart, cs.dropWhile isNamePart, List.takeWhile_append_dropWhile.symm,
    List.all_eq_true.1 List.all_takeWhile, fun c hc => ?_⟩
  have hnot := List.head?_dropWhile_not isNamePart cs
  rw [show (cs.dropWhile isNamePart).head? = some c from hc] at hnot
  simpa using hnot

/-- Every text can be read. -/
theorem exists_readsAs (quote : Option Char) (cs : List Char) : ∃ ps, ReadsAs quote cs ps := by
  induction hn : cs.length using Nat.strong_induction_on generalizing quote cs with
  | _ n ih =>
    cases cs with
    | nil => exact ⟨[], .nil⟩
    | cons c rest =>
      by_cases hcolon : quote = none → c = ':' → ∀ d ∈ rest.head?, isNameStart d = false
      · obtain ⟨ps, hps⟩ := ih rest.length (by rw [← hn]; simp) (quoteAfter c quote) rest rfl
        exact ⟨.char c :: ps, .char hcolon hps⟩
      · push Not at hcolon
        obtain ⟨rfl, rfl, d, hd, hstart⟩ := hcolon
        obtain ⟨more, rfl⟩ : ∃ more, rest = d :: more := ⟨_, List.eq_cons_of_mem_head? hd⟩
        -- The name is taken as far as it goes.
        obtain ⟨part, tail, rfl, hpart, hend⟩ := exists_namePart more
        have hlength : tail.length < n := by
          rw [← hn, List.length_cons, List.length_cons, List.length_append]
          omega
        obtain ⟨ps, hps⟩ := ih tail.length hlength none tail rfl
        have hname : isBareName (String.ofList (d :: part)).toList = true := by
          rw [String.toList_ofList, isBareName_cons]
          exact ⟨by simpa using hstart, hpart⟩
        have hreads := ReadsAs.placeholder hname hend hps
        rw [String.toList_ofList, List.cons_append] at hreads
        exact ⟨_, hreads⟩

/-- **A text is read as the pieces that are found by scanning it**, and as no others. -/
theorem readsAs_iff {cs : List Char} {ps : List Piece} : ReadsAs none cs ps ↔ ps = scan cs := by
  constructor
  · exact ReadsAs.eq_scanFrom
  · rintro rfl
    obtain ⟨ps, hps⟩ := exists_readsAs none cs
    obtain rfl : ps = scan cs := hps.eq_scanFrom
    exact hps

end Piece

namespace Placeholder

variable {sql : String} {ps : List Piece}

/-- The placeholders of a text are those of its reading. -/
theorem names_of_readsAs (h : Piece.ReadsAs none sql.toList ps) :
    names sql = ps.filterMap Piece.name? := by
  rw [names, ← Piece.readsAs_iff.1 h]

/-- They are what is replaced in a text. -/
theorem toList_substitute (h : Piece.ReadsAs none sql.toList ps)
    (replace : String → Option String) :
    (substitute replace sql).toList = ps.flatMap (Piece.chars replace) := by
  rw [substitute, String.toList_ofList, ← Piece.readsAs_iff.1 h]

end Placeholder

end ResourceTable
