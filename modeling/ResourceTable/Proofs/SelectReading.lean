import Mathlib.Algebra.Group.Nat.Defs
import Mathlib.Data.List.TakeWhile
import ResourceTable.Page
import ResourceTable.Proofs.SuccessfulReading

/-!
# Reading queries

A query is read with what it gives, its table, its condition and its order, if the names
in it are plain: columns under their titles or the number of rows, and of the rows in
order those of a window.

## Main definitions

* `Column.IsOutput`: what a column of a query is read as.

## Main results

* `Numeral.read_toDigits` — the digits of a number are read as the number.
* `reads_outputs`, `reads_sorting`, `reads_window` — the parts of a query are read.
* `reads_select` — **a query is read part by part.**
-/

namespace ResourceTable

open Sql

/-! ### Numbers -/

namespace Sql

theorem NumberText.ofDigits_toDigits (n : Nat) :
    NumberText.ofDigits (Nat.toDigits 10 n) = n := by
  have hsame : NumberText.ofDigits (Nat.toDigits 10 n) =
      Nat.ofDigitChars 10 (Nat.toDigits 10 n) 0 := by
    unfold NumberText.ofDigits Nat.ofDigitChars NumberText.digitValue
    congr 1
    funext m c
    rw [Nat.mul_comm]
    rfl
  rw [hsame, Nat.ofDigitChars_toDigits (by decide) (by decide)]

theorem isDigit_toDigits (n : Nat) : ∀ c ∈ Nat.toDigits 10 n, c.isDigit = true :=
  fun _ hc => Nat.isDigit_of_mem_toDigits (by decide) (by decide) hc

theorem ne_of_isDigit {c d : Char} (hc : c.isDigit = true) (hd : d.isDigit = false) : c ≠ d := by
  rintro rfl
  rw [hc] at hd
  cases hd

/-- Digits alone are a whole number. -/
theorem NumberText.read?_toDigits (n : Nat) : NumberText.read? (Nat.toDigits 10 n) =
    some ⟨false, Nat.toDigits 10 n, [], 0, true, true⟩ := by
  have hdigits := isDigit_toDigits n
  obtain ⟨c, rest, hcons⟩ : ∃ c rest, Nat.toDigits 10 n = c :: rest :=
    List.exists_cons_of_ne_nil Nat.toDigits_ne_nil
  have hc : c.isDigit = true := hdigits c (hcons ▸ List.mem_cons_self)
  have hblank : NumberText.isBlank c = false := by
    have hbounds := Char.isDigit_iff_toNat.1 hc
    have hspace : c ≠ ' ' := ne_of_isDigit hc (by decide)
    have hzero : '0'.toNat = 48 := rfl
    simp [NumberText.isBlank, hspace]
    omega
  have hsign : NumberText.readSign (c :: rest) = (false, c :: rest) := by
    unfold NumberText.readSign
    split
    · next heq => exact absurd (List.cons.inj heq).1 (ne_of_isDigit hc (by decide))
    · next heq => exact absurd (List.cons.inj heq).1 (ne_of_isDigit hc (by decide))
    · rfl
  rw [hcons] at hdigits ⊢
  have hdrop : (c :: rest).dropWhile NumberText.isBlank = c :: rest := by
    rw [List.dropWhile_cons, hblank]
    rfl
  have htake : (c :: rest).takeWhile Char.isDigit = c :: rest := List.takeWhile_eq_self_iff.2 hdigits
  have hnone : (c :: rest).dropWhile Char.isDigit = [] := List.dropWhile_eq_nil_iff.2 hdigits
  unfold NumberText.read?
  dsimp only
  rw [hdrop, hsign]
  dsimp only
  rw [htake, hnone]
  rfl

/-- No separators, no misplaced ones. -/
theorem Numeral.misplaced?_digits {isDigit : Char → Bool} {written : List Char} :
    ∀ {cs kept : List Char} {after : Bool}, '_' ∉ cs →
      Numeral.misplaced? isDigit written kept after cs = none := by
  intro cs
  induction cs with
  | nil => exact fun _ => rfl
  | cons c rest ih =>
    intro kept after h
    rw [List.mem_cons, not_or] at h
    rw [Numeral.misplaced?, if_neg (Ne.symm h.1)]
    exact ih h.2

/-- **The digits of a number are read as the number.** -/
theorem Numeral.read_toDigits {n : Nat} (h : n < 2 ^ 63) :
    Numeral.read (String.ofList (Nat.toDigits 10 n)) = .ok (.natural n) := by
  have hdigits := isDigit_toDigits n
  have hseparator : '_' ∉ Nat.toDigits 10 n := fun hmem =>
    absurd (hdigits '_' hmem) (by decide)
  have hdecimal : Numeral.isDecimal (Nat.toDigits 10 n) = true := by
    have hnone : (Nat.toDigits 10 n).dropWhile (fun c => c.isDigit || c == '_') = [] :=
      List.dropWhile_eq_nil_iff.2 fun c hc => by rw [hdigits c hc]; rfl
    unfold Numeral.isDecimal
    dsimp only
    rw [hnone]
  have hkept : (Nat.toDigits 10 n).filter (· != '_') = Nat.toDigits 10 n :=
    List.filter_eq_self.2 fun c hc => bne_iff_ne.2 (ne_of_isDigit (hdigits c hc) (by decide))
  have hnumber : Numeral.ofDecimal (Nat.toDigits 10 n) = .ok (.natural n) := by
    have hvalue : (NumberText.mk false (Nat.toDigits 10 n) [] 0 true true).toInt = n :=
      congrArg Int.ofNat (NumberText.ofDigits_toDigits n)
    rw [Numeral.ofDecimal, NumberText.read?_toDigits]
    dsimp only
    rw [hvalue, if_pos ⟨rfl, by exact_mod_cast h⟩]
    rfl
  have hread : Numeral.withoutSeparators Char.isDigit (Nat.toDigits 10 n) Numeral.ofDecimal =
      .ok (.natural n) := by
    rw [Numeral.withoutSeparators, Numeral.misplaced?_digits hseparator, hkept]
    exact hnumber
  unfold Numeral.read
  dsimp only
  rw [String.toList_ofList]
  split
  · next x d rest heq =>
    -- A second character that is a digit is no mark of another base.
    have hx : x.isDigit = true := hdigits x (by rw [heq]; simp)
    have hbase : ¬ ((x = 'x' ∨ x = 'X') ∧ (hexValue? d).isSome = true) := by
      rintro ⟨he | he, -⟩ <;> exact ne_of_isDigit hx (by decide) he
    rw [if_neg hbase, ← heq, if_pos hdecimal, hread]
  · rw [if_pos hdecimal, hread]

end Sql

/-! ### What a query gives -/

/-- What a column that is selected is read as: its value under its title. -/
def Column.IsOutput (c : Column) (o : Output) : Prop :=
  ∃ offset, o = .value (.column c.name offset) c.title

namespace Sql.Parse

variable {fuel : Nat}

theorem sameTerm_column_iff {t : Term} {w : String} :
    SameTerm t (.column w 0) ↔ ∃ offset, t = .column w offset := by
  constructor
  · intro h
    cases t with
    | column name offset =>
      obtain ⟨rfl, -⟩ := Term.column.inj h
      exact ⟨offset, rfl⟩
    | _ => cases h
  · rintro ⟨offset, rfl⟩
    rfl

theorem reads_column {w : String} (hplain : IsPlain w) {next : Option Token → Prop}
    (hterm : ∀ t, next t → EndsTerm t) (hword : ∀ t, next t → EndsWord t) :
    Reads (term (fuel + 3)) [.word w] next fun t => ∃ offset, t = .column w offset := by
  have hread := reads_term (reads_operand_word hplain hword fuel) hterm
  rw [Term.ofWord_eq hplain.constant] at hread
  exact hread.mono (fun _ ht => ht) fun t ht => sameTerm_column_iff.1 ht

theorem reads_title (c : Column) :
    Reads (after "AS" name) (titleTokens c) (OrComma EndsOutputs)
      fun title => title.getD c.name = c.title := by
  unfold titleTokens
  split
  · next h =>
    refine (reads_not_after.mono (fun t ht => not_as_of_comma ht) fun a ha => ?_)
    rw [ha]
    exact h.symm
  · refine (reads_after (by decide) (reads_quotedName c.title)).mono (fun _ ht => ht) ?_
    rintro _ ⟨title, rfl, rfl⟩
    rfl

/-- A column is read under its title. -/
theorem reads_output {c : Column} (hplain : IsPlain c.name) :
    Reads (output (fuel + 3)) (columnTokens c) (OrComma EndsOutputs) c.IsOutput := by
  refine .unlessCount (fun t ht => (endsColumn_title c t ht).word.1) ?_
  have hcolumn : Reads (term (fuel + 3)) [.word c.name] EndsColumn
      fun t => ∃ offset, t = .column c.name offset :=
    reads_column hplain (fun _ ht => ht.term) fun _ ht => ht.word
  refine hcolumn.bind ?_ (endsColumn_title c)
  rintro _ ⟨offset, rfl⟩
  refine (reads_title c).map fun title htitle => ⟨offset, ?_⟩
  rw [← htitle]
  rfl

/-- **The columns that are selected are read under their titles.** -/
theorem reads_outputs {cs : List Column} (hne : cs ≠ []) (hplain : ∀ c ∈ cs, IsPlain c.name)
    (hmany : cs.length ≤ fuel + 3) :
    Reads (separated (output (fuel + 3)) (fuel + 3)) (joinedTokens (.mark ",") columnTokens cs)
      EndsOutputs (List.Forall₂ Column.IsOutput cs) :=
  reads_separated hne (fun c hc => reads_output (hplain c hc))
    (fun _ ht => ne_comma_of_endsOutputs ht) hmany

/-- The number of rows is read. -/
theorem reads_count :
    Reads (separated (output (fuel + 1)) (fuel + 1)) [.word "COUNT", .mark "(", .mark "*", .mark ")"]
      EndsOutputs (· = [.count "COUNT(*)"]) := by
  have hstar : Reads (enclosed (mark "*")) (.mark "(" :: ([.mark "*"] ++ [.mark ")"]))
      (fun t => ¬ IsKeyword ["AS"] t) fun _ => True := reads_enclosed (reads_mark "*")
  have htitle (u : Unit) : Reads (do return Output.count ((← after "AS" name).getD "COUNT(*)")) []
      (fun t => ¬ IsKeyword ["AS"] t) (· = .count "COUNT(*)") :=
    reads_not_after.map fun title ht => by rw [ht]; rfl
  have hcount : Reads (output (fuel + 1)) [.word "COUNT", .mark "(", .mark "*", .mark ")"]
      (OrComma EndsOutputs) (· = .count "COUNT(*)") := by
    refine .whenCount ?_
    exact (hstar.bind_nil fun u _ => htitle u).mono (fun t ht => not_as_of_comma ht) fun _ ht => ht
  exact (hcount.mono (fun t ht => .inr ht) fun _ ht => ht).bind_nil fun a ha =>
    .unlessMark (fun t ht => ne_comma_of_endsOutputs ht) (.pure (by rw [ha]))

/-! ### The order and the window -/

/-- What follows the order of a query. -/
def EndsSorting (t : Option Token) : Prop := IsKeyword ["LIMIT"] t

/-- **The order of a query is read**, from its keyword on. -/
theorem reads_sorting {key : String} (hplain : IsPlain key) (order : Order) :
    Reads (after "ORDER" (sorting (fuel + 3)))
      [.word "ORDER", .word "BY", .word key, .word order.keyword] EndsSorting
      fun s => ∃ offset, s = some ⟨.term (.column key offset), order == .descending⟩ := by
  have hby : ["BY"].map Keyword.upper = ["BY"] := by decide
  have hkey : Reads (sortKey (fuel + 3)) [.word key] (· = some (.word order.keyword))
      fun k => ∃ offset, k = .term (.column key offset) := by
    have hterm : Reads (term (fuel + 3)) [.word key] (· = some (.word order.keyword))
        fun t => ∃ offset, t = .column key offset := by
      refine reads_column hplain ?_ ?_
      · rintro t rfl
        exact ⟨nofun, nofun, nofun⟩
      · rintro t rfl
        exact ⟨nofun, nofun⟩
    refine .peeked fun l hl => hterm.bind_nil ?_
    rintro _ ⟨offset, rfl⟩
    obtain ⟨token, written, place⟩ := l
    obtain rfl : token = .word key := hl
    exact .pure ⟨offset, rfl⟩
  have hdirection (k : SortKey) : Reads (do
      if ← accept "DESC" then return Sorting.mk k true
      else
        let _ ← accept "ASC"
        return Sorting.mk k false) [.word order.keyword] EndsSorting
      (· = ⟨k, order == .descending⟩) := by
    cases order with
    | ascending =>
      exact .unlessKeyword (fun _ _ => mt isKeyword_word.1 (by decide))
        (.whenKeyword (by decide) (.pure rfl))
    | descending => exact .whenKeyword (by decide) (.pure rfl)
  have hsorting : Reads (sorting (fuel + 3)) [.word "BY", .word key, .word order.keyword]
      EndsSorting fun s => ∃ offset, s = ⟨.term (.column key offset), order == .descending⟩ := by
    refine .afterKeywords hby (hkey.bind (fun k hk => ?_) fun _ _ => rfl)
    obtain ⟨offset, rfl⟩ := hk
    exact (hdirection _).mono (fun _ ht => ht) fun s hs => ⟨offset, hs⟩
  refine (reads_after (by decide) hsorting).mono (fun _ ht => ht) ?_
  rintro _ ⟨s, rfl, offset, rfl⟩
  exact ⟨offset, rfl⟩

/-- The digits of a number are read as a natural number. -/
theorem reads_natural {n : Nat} (h : n < 2 ^ 63) {next : Option Token → Prop} :
    Reads natural [.number (String.ofList (Nat.toDigits 10 n))] next (· = n) := by
  refine .peeked fun l hl => ?_
  obtain ⟨token, written, place⟩ := l
  obtain rfl : token = .number (String.ofList (Nat.toDigits 10 n)) := hl
  simp only [Numeral.read_toDigits h]
  exact .advanced (.pure rfl)

/-- **The window of a query is read**, from its keyword on. -/
theorem reads_window {limit start : Nat} (hlimit : limit < 2 ^ 63) (hstart : start < 2 ^ 63) :
    Reads (after "LIMIT" window)
      [.word "LIMIT", .number (String.ofList (Nat.toDigits 10 limit)), .word "OFFSET",
        .number (String.ofList (Nat.toDigits 10 start))] (· = none)
      (· = some (limit, start)) := by
  have hoffset : Reads (after "OFFSET" natural)
      [.word "OFFSET", .number (String.ofList (Nat.toDigits 10 start))] (· = none)
      fun n => ∃ m, n = some m ∧ m = start := reads_after (by decide) (reads_natural hstart)
  have hrest (n : Nat) (hn : n = limit) : Reads (do return (n, (← after "OFFSET" natural).getD 0))
      [.word "OFFSET", .number (String.ofList (Nat.toDigits 10 start))] (· = none)
      (· = (limit, start)) := by
    refine hoffset.map ?_
    rintro _ ⟨m, rfl, rfl⟩
    rw [hn]
    rfl
  have hnumber : Reads natural [.number (String.ofList (Nat.toDigits 10 limit))] (fun _ => True)
      (· = limit) := reads_natural hlimit
  have hwindow : Reads window
      [.number (String.ofList (Nat.toDigits 10 limit)), .word "OFFSET",
        .number (String.ofList (Nat.toDigits 10 start))] (· = none) (· = (limit, start)) :=
    hnumber.bind hrest fun _ _ => trivial
  refine (reads_after (by decide) hwindow).mono (fun _ ht => ht) ?_
  rintro _ ⟨w, rfl, rfl⟩
  rfl

/-! ### The whole query -/

/-- At the end of a text there is no part that a keyword begins. -/
theorem reads_no_more {α : Type} {keyword : String} {part : Parse α} :
    Reads (after keyword part) [] (· = none) (· = none) := by
  refine reads_not_after.mono ?_ fun _ ha => ha
  rintro _ rfl ⟨w, hw, -⟩
  cases hw

/-- **A query is read part by part**: what it gives, its table, its condition, its order and
its window. -/
theorem reads_select {outs clause order bounds : List Token} {table : String}
    {O : List Output → Prop} {C : Option Test → Prop} {S : Option Sorting → Prop}
    {W : Option (Nat × Nat) → Prop} {beforeOrder beforeWindow : Option Token → Prop}
    (houtputs : Reads (separated (output fuel) fuel) outs EndsOutputs O)
    (hfree : Keyword.isReserved table = false)
    (hcondition : Reads condition clause beforeOrder C)
    (horder : Reads (after "ORDER" (sorting fuel)) order beforeWindow S)
    (hwindow : Reads (after "LIMIT" window) bounds (· = none) W)
    (hclause : beforeOrder ((order ++ bounds).head?)) (hbounds : beforeWindow bounds.head?) :
    Reads (statement fuel)
      (.word "SELECT" :: (outs ++ ([.word "FROM", .word table] ++ (clause ++ (order ++ bounds)))))
      (· = none) fun s => ∃ outputs condition sorting window,
        s = .select ⟨outputs, some table, condition, sorting, window⟩ ∧
          O outputs ∧ C condition ∧ S sorting ∧ W window := by
  have hfrom : Reads (after "FROM" name) [.word "FROM", .word table] (fun _ => True)
      fun a => ∃ b, a = some b ∧ b = table := reads_after (by decide) (reads_name hfree)
  have hselect : Reads (selectStatement fuel)
      (outs ++ ([.word "FROM", .word table] ++ (clause ++ (order ++ bounds)))) (· = none)
      fun s => ∃ outputs condition sorting window,
        s = ⟨outputs, some table, condition, sorting, window⟩ ∧
          O outputs ∧ C condition ∧ S sorting ∧ W window := by
    refine houtputs.bind (fun outputs ho => hfrom.bind ?_ fun _ _ => trivial)
      fun _ _ => ⟨"FROM", rfl, by decide⟩
    rintro _ ⟨_, rfl, rfl⟩
    refine hcondition.bind (fun c hc => horder.bind (fun sorting hs => ?_) ?_) ?_
    · exact hwindow.map fun window hw => ⟨outputs, c, sorting, window, rfl, ho, hc, hs, hw⟩
    · rintro t rfl
      rwa [Option.or_none]
    · rintro t rfl
      rwa [Option.or_none]
  refine .whenKeyword (by decide) (hselect.map ?_)
  rintro _ ⟨outputs, c, sorting, window, rfl, ho, hc, hs, hw⟩
  exact ⟨outputs, c, sorting, window, rfl, ho, hc, hs, hw⟩

/-- A query without order and window is read up to its condition. -/
theorem reads_plainSelect {outs clause : List Token} {table : String} {O : List Output → Prop}
    {C : Option Test → Prop} (houtputs : Reads (separated (output fuel) fuel) outs EndsOutputs O)
    (hfree : Keyword.isReserved table = false) (hcondition : Reads condition clause (· = none) C) :
    Reads (statement fuel) (.word "SELECT" :: (outs ++ ([.word "FROM", .word table] ++ clause)))
      (· = none) fun s => ∃ outputs condition,
        s = .select ⟨outputs, some table, condition, none, none⟩ ∧ O outputs ∧ C condition := by
  have hread := reads_select houtputs hfree hcondition reads_no_more reads_no_more rfl rfl
  rw [List.append_nil, List.append_nil] at hread
  refine hread.mono (fun _ ht => ht) ?_
  rintro _ ⟨outputs, c, _, _, rfl, ho, hc, rfl, rfl⟩
  exact ⟨outputs, c, rfl, ho, hc⟩

end Sql.Parse

end ResourceTable
