import Mathlib.Data.Set.Function
import ResourceTable.Proofs.PlaceholderReading

/-!
# Replacing placeholders

Placeholders are renamed where clauses meet, and become question marks before a statement is
executed.  Either way nothing but placeholders is replaced.  The text may be anything: quotes may
be left open, and colons may begin nothing.  All laws are read off the reading of a text, so that
each of them is an induction on it.

Two texts that are put together are read one after the other, if the first one leaves no quote
open and no name after a colon runs on from it into the second.  A placeholder at its end would
be extended, and a colon at its end would begin one.

## Main definitions

* `Placeholder.identifiers`, `Placeholder.renameBy`: the names of placeholders, and a callback
  that gives them other names.
* `openQuote`: the quote that a text leaves open.
* `Placeholder.Parts`: no name runs on from one text into another.

## Main results

* `Piece.ReadsAs.renamed` — a text with other names is read as its pieces with other names.
* `Piece.ReadsAs.append` — texts that part are read one after the other.
* `Placeholder.parts_iff` — and only such texts are.
* `Placeholder.rewrites_placeholders_only` — **nothing but placeholders is replaced.**
-/

namespace ResourceTable

/-! ### Quotes left open -/

/-- The quote that is open after a text. -/
def openQuote (quote : Option Char) (cs : List Char) : Option Char :=
  cs.foldl (fun quote c => quoteAfter c quote) quote

theorem openQuote_cons (quote : Option Char) (c : Char) (rest : List Char) :
    openQuote quote (c :: rest) = openQuote (quoteAfter c quote) rest := rfl

theorem openQuote_append (quote : Option Char) (a b : List Char) :
    openQuote quote (a ++ b) = openQuote (openQuote quote a) b :=
  List.foldl_append

theorem isQuote_none : ∀ q ∈ (none : Option Char), q = '\'' ∨ q = '"' := fun _ hq => nomatch hq

theorem isQuote_quoteAfter {c : Char} {quote : Option Char}
    (h : ∀ q ∈ quote, q = '\'' ∨ q = '"') : ∀ q ∈ quoteAfter c quote, q = '\'' ∨ q = '"' := by
  intro q hq
  cases quote with
  | none =>
    rw [quoteAfter] at hq
    split at hq
    · next hc =>
      obtain rfl : c = q := Option.mem_some.1 hq
      exact hc
    · cases hq
  | some other =>
    rw [quoteAfter] at hq
    split at hq
    · cases hq
    · exact h q hq

/-- Only quotes are open. -/
theorem isQuote_openQuote {cs : List Char} : ∀ {quote : Option Char},
    (∀ q ∈ quote, q = '\'' ∨ q = '"') → ∀ q ∈ openQuote quote cs, q = '\'' ∨ q = '"' := by
  induction cs with
  | nil => exact fun h => h
  | cons c rest ih =>
    intro quote h
    rw [openQuote_cons]
    exact ih (isQuote_quoteAfter h)

/-- A text without quotes leaves them as they are. -/
theorem openQuote_of_forall {quote : Option Char} (hquote : ∀ q ∈ quote, q = '\'' ∨ q = '"') :
    ∀ {cs : List Char}, (∀ c ∈ cs, c ≠ '\'' ∧ c ≠ '"') → openQuote quote cs = quote := by
  intro cs
  induction cs with
  | nil => exact fun _ => rfl
  | cons c rest ih =>
    intro h
    obtain ⟨hc, hrest⟩ := List.forall_mem_cons.1 h
    have hkept : quoteAfter c quote = quote := by
      cases quote with
      | none => exact quoteAfter_none hc
      | some q =>
        refine if_neg ?_
        rcases hquote q rfl with rfl | rfl
        · exact hc.1
        · exact hc.2
    rw [openQuote_cons, hkept]
    exact ih hrest

namespace Placeholder

/-! ### Where texts part -/

/-- No name after a colon runs on from the first text into the second.  So no placeholder at its
end is extended, and no colon at its end begins one. -/
def Parts (a b : List Char) : Prop :=
  ∀ name d, ':' :: name <:+ a → d ∈ b.head? → isBareName (name ++ [d]) = false

theorem Parts.suffix {a a' b : List Char} (h : Parts a b) (ha : a' <:+ a) : Parts a' b :=
  fun name d hname => h name d (hname.trans ha)

/-- A character that is no part of a name parts texts. -/
theorem parts_of_head {a b : List Char} (h : ∀ d ∈ b.head?, isNamePart d = false) :
    Parts a b := by
  intro name d _ hd
  by_contra hbare
  have hpart := isNamePart_of_isBareName (Bool.not_eq_false _ ▸ hbare) d (by simp)
  rw [h d hd] at hpart
  cases hpart

end Placeholder

namespace Piece

open Placeholder (Parts)

variable {quote : Option Char} {a b cs : List Char} {ps qs : List Piece}

/-- Characters that are none of quotes and colons stand for themselves. -/
theorem ReadsAs.ordinary (hb : ReadsAs none b qs) (h : ∀ c ∈ a, isOrdinary c = true) :
    ReadsAs none (a ++ b) (a.map .char ++ qs) := by
  induction a with
  | nil => exact hb
  | cons c rest ih =>
    obtain ⟨hc, hrest⟩ := List.forall_mem_cons.1 h
    simp only [isOrdinary, Bool.and_eq_true, decide_eq_true_eq] at hc
    refine .char (fun _ hcolon => absurd hcolon hc.2) ?_
    rw [quoteAfter_none hc.1]
    exact ih hrest

/-- **Texts that part are read one after the other**, if the first one leaves no quote open. -/
theorem ReadsAs.append (ha : ReadsAs quote a ps) (hclosed : openQuote quote a = none)
    (hparts : Parts a b) (hb : ReadsAs none b qs) : ReadsAs quote (a ++ b) (ps ++ qs) := by
  induction ha with
  | nil =>
    obtain rfl := hclosed
    exact hb
  | @placeholder name rest ps hname hend h ih =>
    have hsuffix : rest <:+ ':' :: (name.toList ++ rest) :=
      List.suffix_append (':' :: name.toList) rest
    have hkept := openQuote_of_forall isQuote_none
      (ne_quote_of_placeholder (isNamePart_of_isBareName hname))
    rw [← List.cons_append, openQuote_append, hkept] at hclosed
    have hmore := ih hclosed (hparts.suffix hsuffix)
    rw [List.cons_append, List.append_assoc]
    refine .placeholder hname (fun c hc => ?_) hmore
    -- The name ends within the first text, or at its end, where the second one parts from it.
    cases rest with
    | cons d more => exact hend c hc
    | nil =>
      by_contra hpart
      have hbare : isBareName (name.toList ++ [c]) = true :=
        isBareName_append hname (List.forall_mem_singleton.2 (Bool.not_eq_false _ ▸ hpart))
      rw [hparts name.toList c (by simp) hc] at hbare
      cases hbare
  | @char quote c rest ps hcolon h ih =>
    have hmore := ih hclosed (hparts.suffix (List.suffix_cons c rest))
    refine .char (fun hquote hc d hd => ?_) hmore
    cases rest with
    | cons e more => exact hcolon hquote hc d hd
    | nil =>
      have hbare := hparts [] d (by simp [hc]) hd
      simpa [isBareName] using hbare

/-- If a name runs on from one text into another, then the characters that it has in the second
one stand for themselves there, and are those of a placeholder in both texts together. -/
theorem exists_run_on {front name : List Char} {d : Char}
    (hclosed : openQuote none (front ++ ':' :: name) = none)
    (hbare : isBareName (name ++ [d]) = true) (more : List Char) :
    ∃ ps qs rs part long, ReadsAs none (front ++ ':' :: name) (ps ++ qs) ∧
      ReadsAs none (d :: more) ((d :: part).map .char ++ rs) ∧
      ReadsAs none ((front ++ ':' :: name) ++ d :: more) (ps ++ .placeholder long :: rs) := by
  have hname : ∀ c ∈ name ++ [d], isNamePart c = true := isNamePart_of_isBareName hbare
  have hfront : openQuote none front = none := by
    have hkept : openQuote (openQuote none front) (':' :: name) = openQuote none front :=
      openQuote_of_forall (isQuote_openQuote isQuote_none)
        (ne_quote_of_placeholder fun c hc => hname c (List.mem_append_left _ hc))
    rwa [openQuote_append, hkept] at hclosed
  -- No name runs on into a colon.
  have hparts {rest : List Char} : Parts front (':' :: rest) :=
    Placeholder.parts_of_head fun c hc => by rw [← Option.some.inj hc]; decide
  obtain ⟨part, tail, rfl, hpart, htail⟩ := exists_namePart more
  obtain ⟨ps, hps⟩ := exists_readsAs none front
  obtain ⟨qs, hqs⟩ := exists_readsAs none (':' :: name)
  obtain ⟨rs, hrs⟩ := exists_readsAs none tail
  refine ⟨ps, qs, rs, part, .ofList (name ++ d :: part), hps.append hfront hparts hqs, ?_, ?_⟩
  · have hsecond : ∀ c ∈ d :: part, isNamePart c = true :=
      List.forall_mem_cons.2 ⟨hname d (by simp), hpart⟩
    exact hrs.ordinary fun c hc => isOrdinary_of_isNamePart (hsecond c hc)
  · have hlong : isBareName (String.ofList (name ++ d :: part)).toList = true := by
      rw [String.toList_ofList, List.append_cons]
      exact isBareName_append hbare hpart
    have hboth := hps.append hfront hparts (ReadsAs.placeholder hlong htail hrs)
    rw [String.toList_ofList] at hboth
    simpa using hboth

end Piece

/-! ### Other names -/

namespace Placeholder

/-- The names of placeholders. -/
def identifiers : Set String := {name | isBareName name.toList = true}

/-- A callback that gives placeholders other names. -/
def renameBy (ρ : String → String) (name : String) : Option String := some (":" ++ ρ name)

end Placeholder

namespace Piece

open Placeholder (identifiers renameBy)

variable {quote : Option Char} {cs : List Char} {ps : List Piece} {ρ σ : String → String}

/-- The piece with another name. -/
def rename (ρ : String → String) : Piece → Piece
  | .char c => .char c
  | .placeholder name => .placeholder (ρ name)

theorem chars_renameBy (ρ : String → String) (name : String) :
    (placeholder name).chars (renameBy ρ) = ':' :: (ρ name).toList :=
  String.toList_append

/-- The names of placeholders are identifiers. -/
theorem ReadsAs.mem_identifiers (h : ReadsAs quote cs ps) {name : String}
    (hname : .placeholder name ∈ ps) : name ∈ identifiers := by
  induction h with
  | nil => cases hname
  | placeholder hbare _ _ ih =>
    rcases List.mem_cons.1 hname with he | hmem
    · cases he
      exact hbare
    · exact ih hmem
  | char _ _ ih =>
    rcases List.mem_cons.1 hname with he | hmem
    · cases he
    · exact ih hmem

/-- What is read is the text. -/
theorem ReadsAs.flatMap_kept (h : ReadsAs quote cs ps) :
    ps.flatMap (chars fun _ => none) = cs := by
  induction h with
  | nil => rfl
  | placeholder hname hend h ih =>
    rw [List.flatMap_cons, ih]
    rfl
  | char hcolon h ih =>
    rw [List.flatMap_cons, ih]
    rfl

/-- A text with other names begins as before: a placeholder keeps its colon. -/
theorem ReadsAs.head?_renamed (h : ReadsAs quote cs ps) (ρ : String → String) :
    (ps.flatMap (chars (renameBy ρ))).head? = cs.head? := by
  cases h with
  | nil => rfl
  | placeholder hname hend h =>
    rw [List.flatMap_cons, chars_renameBy]
    rfl
  | char hcolon h => rfl

/-- **A text with other names is read as its pieces with other names.** -/
theorem ReadsAs.renamed (hρ : Set.MapsTo ρ identifiers identifiers) (h : ReadsAs quote cs ps) :
    ReadsAs quote (ps.flatMap (chars (renameBy ρ))) (ps.map (rename ρ)) := by
  induction h with
  | nil => exact .nil
  | placeholder hname hend h ih =>
    -- The new name ends where the old one did, as what follows begins as before.
    rw [List.flatMap_cons, chars_renameBy]
    refine .placeholder (hρ hname) (fun c hc => ?_) ih
    rw [h.head?_renamed ρ] at hc
    exact hend c hc
  | char hcolon h ih =>
    rw [List.flatMap_cons, chars, List.singleton_append]
    refine .char (fun hquote hc d hd => ?_) ih
    rw [h.head?_renamed ρ] at hd
    exact hcolon hquote hc d hd

/-- The old names put back give the text. -/
theorem ReadsAs.flatMap_back (hσ : Set.LeftInvOn σ ρ identifiers) (h : ReadsAs quote cs ps) :
    (ps.map (rename ρ)).flatMap (chars (renameBy σ)) = cs := by
  rw [List.flatMap_map, ← h.flatMap_kept]
  refine List.flatMap_congr fun p hp => ?_
  cases p with
  | char c => rfl
  | placeholder name =>
    rw [rename, chars_renameBy, hσ (h.mem_identifiers hp)]
    rfl

theorem filterMap_rename (ρ : String → String) (ps : List Piece) :
    (ps.map (rename ρ)).filterMap name? = (ps.filterMap name?).map ρ := by
  rw [List.filterMap_map, List.map_filterMap]
  refine List.filterMap_congr fun p _ => ?_
  cases p <;> rfl

end Piece

/-! ### Texts rewritten -/

namespace Placeholder

open Piece (ReadsAs)

variable {sql : String} {ps : List Piece} {ρ σ : String → String}

/-- A text with other names has the placeholders with other names. -/
theorem names_renamed (hρ : Set.MapsTo ρ identifiers identifiers) (sql : String) :
    names (substitute (renameBy ρ) sql) = (names sql).map ρ := by
  obtain ⟨ps, hps⟩ := Piece.exists_readsAs none sql.toList
  have hrenamed := hps.renamed hρ
  rw [← toList_substitute hps] at hrenamed
  rw [names_of_readsAs hrenamed, names_of_readsAs hps, Piece.filterMap_rename]

/-- With the old names it is the old text. -/
theorem substitute_back (hρ : Set.MapsTo ρ identifiers identifiers)
    (hσ : Set.LeftInvOn σ ρ identifiers) (sql : String) :
    substitute (renameBy σ) (substitute (renameBy ρ) sql) = sql := by
  obtain ⟨ps, hps⟩ := Piece.exists_readsAs none sql.toList
  have hrenamed := hps.renamed hρ
  rw [← toList_substitute hps] at hrenamed
  rw [← String.toList_inj, toList_substitute hrenamed, hps.flatMap_back hσ]

/-- Texts that part have their placeholders and are rewritten one after the other. -/
theorem rewritten_append {a b : String} (hclosed : openQuote none a.toList = none)
    (hparts : Parts a.toList b.toList) : names (a ++ b) = names a ++ names b ∧
      ∀ replace, substitute replace (a ++ b) = substitute replace a ++ substitute replace b := by
  obtain ⟨ps, hps⟩ := Piece.exists_readsAs none a.toList
  obtain ⟨qs, hqs⟩ := Piece.exists_readsAs none b.toList
  have hboth := hps.append hclosed hparts hqs
  rw [← String.toList_append] at hboth
  refine ⟨?_, fun replace => ?_⟩
  · rw [names_of_readsAs hboth, names_of_readsAs hps, names_of_readsAs hqs, List.filterMap_append]
  · rw [← String.toList_inj, String.toList_append, toList_substitute hboth, toList_substitute hps,
      toList_substitute hqs, List.flatMap_append]

/-- If a name runs on from one text into another, then without placeholders they are together
shorter than one after the other: what the name has in the second text is lost. -/
theorem length_dropped {name : List Char} {d : Char} {a b : String}
    (hclosed : openQuote none a.toList = none) (hname : ':' :: name <:+ a.toList)
    (hd : d ∈ b.toList.head?) (hbare : isBareName (name ++ [d]) = true) :
    (substitute (fun _ => some "") (a ++ b)).toList.length <
      (substitute (fun _ => some "") a ++ substitute (fun _ => some "") b).toList.length := by
  obtain ⟨front, hfront⟩ := hname
  obtain ⟨more, hmore⟩ : ∃ more, b.toList = d :: more := ⟨_, List.eq_cons_of_mem_head? hd⟩
  rw [← hfront] at hclosed
  obtain ⟨ps, qs, rs, part, long, ha, hb, hboth⟩ := Piece.exists_run_on hclosed hbare more
  rw [hfront] at ha
  rw [← hmore] at hb
  rw [hfront, ← hmore, ← String.toList_append] at hboth
  have hlost : (Piece.placeholder long).chars (fun _ => some "") = [] := rfl
  have hkept : (Piece.char d).chars (fun _ => some "") = [d] := rfl
  rw [String.toList_append, toList_substitute hboth, toList_substitute ha, toList_substitute hb]
  simp only [List.map_cons, List.cons_append, List.flatMap_append, List.flatMap_cons, hlost, hkept,
    List.length_append, List.length_cons, List.length_nil]
  omega

/-- **Texts are rewritten one after the other exactly if they part.** -/
theorem parts_iff {a b : String} (hclosed : openQuote none a.toList = none) :
    Parts a.toList b.toList ↔ names (a ++ b) = names a ++ names b ∧
      ∀ replace, substitute replace (a ++ b) = substitute replace a ++ substitute replace b := by
  refine ⟨rewritten_append hclosed, ?_⟩
  rintro ⟨-, h⟩ name d hname hd
  by_contra hbare
  have hlength := length_dropped hclosed hname hd (Bool.not_eq_false _ ▸ hbare)
  rw [h] at hlength
  exact Nat.lt_irrefl _ hlength

/-- **Nothing but placeholders is replaced.**  A text has a reading, whose characters stay and
whose placeholders are replaced.  If nothing is to be replaced, it stays as it is.  Other names
give a text with the placeholders in their order under these names, and the old names give the
text back.  A text that leaves no quote open is read and rewritten with the next one as both are
by themselves, exactly if no name runs on from one into the other. -/
theorem rewrites_placeholders_only (sql : String) :
    (∃ ps, ReadsAs none sql.toList ps ∧ names sql = ps.filterMap Piece.name? ∧
      ∀ replace, (substitute replace sql).toList = ps.flatMap (Piece.chars replace)) ∧
    substitute (fun _ => none) sql = sql ∧
    (∀ ρ, Set.MapsTo ρ identifiers identifiers → Set.InjOn ρ identifiers →
      names (substitute (renameBy ρ) sql) = (names sql).map ρ ∧
      (∃ σ, Set.LeftInvOn σ ρ identifiers) ∧
      ∀ σ, Set.LeftInvOn σ ρ identifiers →
        substitute (renameBy σ) (substitute (renameBy ρ) sql) = sql) ∧
    ∀ rest, openQuote none sql.toList = none → (Parts sql.toList rest.toList ↔
      names (sql ++ rest) = names sql ++ names rest ∧
        ∀ replace, substitute replace (sql ++ rest) =
          substitute replace sql ++ substitute replace rest) := by
  obtain ⟨ps, hps⟩ := Piece.exists_readsAs none sql.toList
  refine ⟨⟨ps, hps, names_of_readsAs hps, toList_substitute hps⟩, ?kept, ?renamed, ?appended⟩
  case kept =>
    rw [← String.toList_inj, toList_substitute hps, hps.flatMap_kept]
  case renamed =>
    intro ρ hρ hinjective
    exact ⟨names_renamed hρ sql, ⟨_, hinjective.leftInvOn_invFunOn⟩,
      fun σ hσ => substitute_back hρ hσ sql⟩
  case appended =>
    intro rest hclosed
    exact parts_iff hclosed

/-- A text with colons in quotes, two colons one after the other, and one at its end. -/
def colonText : String := "WHERE a::b = :id AND \":x\" != ':id' OR c = :id_2 OR d = :"

/-- A text that leaves a quote open. -/
def openText : String := " OR e = :id AND f = 'it :is"

/-- A name that is set apart. -/
def ownName (name : String) : String := "own_" ++ name

/-- The name that was set apart. -/
def plainName (name : String) : String := .ofList (name.toList.drop 4)

theorem colonText_rewritten :
    Set.MapsTo ownName identifiers identifiers ∧ Set.InjOn ownName identifiers ∧
      Set.LeftInvOn plainName ownName identifiers ∧
      openQuote none colonText.toList = none ∧ Parts colonText.toList openText.toList ∧
      substitute (renameBy ownName) colonText =
        "WHERE a::own_b = :own_id AND \":x\" != ':id' OR c = :own_id_2 OR d = :" ∧
      names (substitute (renameBy ownName) colonText) = ["own_b", "own_id", "own_id_2"] ∧
      substitute (renameBy plainName) (substitute (renameBy ownName) colonText) = colonText ∧
      names (colonText ++ openText) = ["b", "id", "id_2", "id"] ∧
      ∀ replace, substitute replace (colonText ++ openText) =
        substitute replace colonText ++ substitute replace openText := by
  have hback (name : String) : plainName (ownName name) = name := by
    rw [plainName, ownName, String.toList_append, ← String.toList_inj, String.toList_ofList]
    rfl
  have hmaps : Set.MapsTo ownName identifiers identifiers := by
    intro name hname
    show isBareName (ownName name).toList = true
    rw [ownName, String.toList_append]
    exact isBareName_append (by decide) (isNamePart_of_isBareName hname)
  have hinverse : Set.LeftInvOn plainName ownName identifiers := fun name _ => hback name
  have hclosed : openQuote none colonText.toList = none := by decide +kernel
  have hparts : Parts colonText.toList openText.toList := parts_of_head fun d hd => by
    rw [← Option.some.inj hd]
    decide
  obtain ⟨-, -, hrenamed, happended⟩ := rewrites_placeholders_only colonText
  obtain ⟨hnames, -, hundone⟩ := hrenamed ownName hmaps hinverse.injOn
  obtain ⟨hboth, hrewritten⟩ := (happended openText hclosed).1 hparts
  refine ⟨hmaps, hinverse.injOn, hinverse, hclosed, hparts, by decide +kernel, ?_,
    hundone plainName hinverse, ?_, hrewritten⟩
  · rw [hnames]
    decide +kernel
  · rw [hboth]
    decide +kernel

end Placeholder

end ResourceTable
