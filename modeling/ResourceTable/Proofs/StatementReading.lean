import ResourceTable.Proofs.FilterReading

/-!
# Reading statements

A statement that selects, changes or drops the rows of a table is read with the name of
the table and the condition of its `WHERE` clause, whatever it gives or assigns.

## Main definitions

* `Statement.ActsOn`: a statement acts on the rows of a table for which a filter holds.
* `columnTokens`, `assignmentTokens`: the tokens of a selected column and of an
  assignment.

## Main results

* `yields_select`, `yields_update`, `yields_delete` — **what is read acts only on the
  rows for which the filter holds.**
-/

namespace ResourceTable

open Sql Sql.Parse

namespace Sql

/-- The statement acts on the rows of a table for which a filter holds. -/
def Statement.ActsOn (fields : Schema) (table : String) (f : Filter) : Statement → Prop
  | .select s => s.table = some table ∧ ∃ t, s.condition = some t ∧ t.Implies fields f
  | .update name _ condition | .delete name condition =>
    name = table ∧ ∃ t, condition = some t ∧ t.Implies fields f
  | _ => False

namespace Parse

variable {α β : Type} {ts : List Token} {next : Option Token → Prop} {P : α → Prop}

/-! ### Selected columns -/

/-- The tokens of the title of a selected column, if it is another one than its name. -/
def titleTokens (c : Column) : List Token :=
  if c.title = c.name then [] else [.word "AS", .name c.title]

/-- The tokens of a selected column. -/
def columnTokens (c : Column) : List Token := .word c.name :: titleTokens c

/-- What follows the selected columns. -/
def EndsOutputs (t : Option Token) : Prop := IsKeyword ["FROM"] t

theorem ne_comma_of_endsOutputs {t : Option Token} (h : EndsOutputs t) : t ≠ some (.mark ",") := by
  rintro rfl
  exact not_isKeyword_mark h

/-- What ends a column that is selected without a title. -/
structure EndsColumn (t : Option Token) : Prop where
  term : EndsTerm t
  word : EndsWord t
  barred : Barred t

theorem endsColumn_keyword {w : String} (h : Keyword.upper w ∈ endings) :
    EndsColumn (some (.word w)) :=
  ⟨⟨nofun, nofun, nofun⟩, ⟨nofun, nofun⟩, .inr (.inr (isKeyword_word.2 h))⟩

theorem endsColumn_comma {t : Option Token} (h : OrComma EndsOutputs t) : EndsColumn t := by
  rcases h with rfl | ⟨w, rfl, hw⟩
  · exact ⟨endsTerm_mark (by decide), endsWord_mark (by decide), .inr (.inl ⟨",", rfl⟩)⟩
  · refine endsColumn_keyword ?_
    rw [List.mem_singleton.1 hw]
    decide

theorem not_as_of_comma {t : Option Token} (h : OrComma EndsOutputs t) : ¬ IsKeyword ["AS"] t := by
  rcases h with rfl | ⟨w, rfl, hw⟩
  · exact not_isKeyword_mark
  · rw [isKeyword_word, List.mem_singleton.1 hw]
    decide

/-- Whether rows are counted is decided by two tokens. -/
def CountsRows (t u : Option Token) : Prop := IsKeyword ["COUNT"] t ∧ u = some (.mark "(")

theorem acceptCount_run (ls : List Lexeme) :
    (CountsRows (headToken ls) (headToken ls.tail) ∧ acceptCount ls = .ok (true, ls.tail)) ∨
      (¬ CountsRows (headToken ls) (headToken ls.tail) ∧ acceptCount ls = .ok (false, ls)) := by
  rcases ls with _ | ⟨⟨token, written, offset⟩, rest⟩
  · exact .inr ⟨fun ⟨⟨w, hw, _⟩, _⟩ => (nomatch hw), rfl⟩
  · cases token with
    | word w =>
      rcases rest with _ | ⟨⟨token', written', offset'⟩, more⟩
      · exact .inr ⟨fun ⟨_, h⟩ => (nomatch h), rfl⟩
      · by_cases hopen : token' = .mark "("
        · subst hopen
          have hrun : acceptCount (⟨.word w, written, offset⟩ ::
              ⟨.mark "(", written', offset'⟩ :: more) = .ok (if Keyword.upper w = "COUNT" then
                (true, ⟨.mark "(", written', offset'⟩ :: more)
              else (false, ⟨.word w, written, offset⟩ :: ⟨.mark "(", written', offset'⟩ :: more)) :=
            rfl
          rw [hrun]
          by_cases h : Keyword.upper w = "COUNT"
          · rw [if_pos h]
            exact .inl ⟨⟨⟨w, rfl, List.mem_singleton.2 h⟩, rfl⟩, rfl⟩
          · rw [if_neg h]
            refine .inr ⟨fun ⟨⟨v, hv, hmem⟩, _⟩ => h ?_, rfl⟩
            rw [Token.word.inj (Option.some.inj hv)]
            exact List.mem_singleton.1 hmem
        · refine .inr ⟨fun ⟨_, h⟩ => hopen (Option.some.inj h), ?_⟩
          unfold acceptCount
          split
          · next heq =>
            exact absurd (congrArg Lexeme.token (List.cons.inj (List.cons.inj heq).2).1) hopen
          · rfl
    | _ => exact .inr ⟨fun ⟨⟨w, hw, _⟩, _⟩ => (nomatch hw), rfl⟩

theorem Covers.whenCount {f : Bool → Parse β} {us : List Token} {Q : β → Prop}
    (h : Covers (f true) (.mark "(" :: us) next Q) :
    Covers (acceptCount >>= f) (.word "COUNT" :: .mark "(" :: us) next Q := by
  intro ls rest out b hls hrest hb
  obtain ⟨l, more, rfl, hl, hmore⟩ := List.map_eq_cons_iff.1 hls
  obtain ⟨l', more', rfl, hl', -⟩ := List.map_eq_cons_iff.1 hmore
  rw [bind_run] at hb
  rcases acceptCount_run ((l :: l' :: more') ++ rest) with ⟨-, hrun⟩ | ⟨hnot, -⟩
  · rw [hrun] at hb
    exact h (l' :: more') rest out b hmore hrest hb
  · exact absurd ⟨⟨"COUNT", congrArg some hl, by decide⟩, congrArg some hl'⟩ hnot

/-- Behind a word that is no call there is nothing to count. -/
theorem Covers.unlessCount {f : Bool → Parse β} {us : List Token} {w : String} {Q : β → Prop}
    (hnot : ∀ t, next t → us.head?.or t ≠ some (.mark "("))
    (h : Covers (f false) (.word w :: us) next Q) :
    Covers (acceptCount >>= f) (.word w :: us) next Q := by
  intro ls rest out b hls hrest hb
  obtain ⟨l, more, rfl, -, hmore⟩ := List.map_eq_cons_iff.1 hls
  rw [bind_run] at hb
  rcases acceptCount_run ((l :: more) ++ rest) with ⟨⟨-, hopen⟩, -⟩ | ⟨-, hrun⟩
  · rw [List.cons_append, List.tail_cons, headToken_append hmore] at hopen
    exact absurd hopen (hnot _ hrest)
  · rw [hrun] at hb
    exact h (l :: more) rest out b hls hrest hb

/-- The number of rows. -/
theorem covers_count (fuel : Nat) :
    Covers (output fuel) [.word "COUNT", .mark "(", .mark "*", .mark ")"] (OrComma EndsOutputs)
      fun _ => True := by
  have hstar : Covers (enclosed (mark "*")) (.mark "(" :: ([.mark "*"] ++ [.mark ")"]))
      (fun t => ¬ IsKeyword ["AS"] t) fun _ => True := covers_enclosed (covers_mark "*")
  have htitle : Covers (after "AS" name) [] (fun t => ¬ IsKeyword ["AS"] t) (· = none) :=
    covers_not_after
  refine .whenCount ?_
  exact (hstar.bind (fun _ _ => htitle.map fun _ _ => trivial) fun _ ht => ht).mono
    (fun t ht => not_as_of_comma ht) fun _ ht => ht

theorem covers_title (c : Column) :
    Covers (after "AS" name) (titleTokens c) (OrComma EndsOutputs) fun _ => True := by
  unfold titleTokens
  split
  · exact covers_not_after.mono (fun t ht => not_as_of_comma ht) fun _ _ => trivial
  · exact (covers_after (by decide) (covers_quotedName c.title)).mono (fun _ ht => ht)
      fun _ _ => trivial

theorem endsColumn_title (c : Column) (t : Option Token) (h : OrComma EndsOutputs t) :
    EndsColumn ((titleTokens c).head?.or t) := by
  unfold titleTokens
  split
  · exact endsColumn_comma h
  · exact endsColumn_keyword (by decide)

/-- **A column is read with its title.**  The name `COUNT` would need a parenthesis. -/
theorem covers_output (c : Column) (fuel : Nat) :
    Covers (output fuel) (columnTokens c) (OrComma EndsOutputs) fun _ => True := by
  have hcolumn : Covers (term fuel) [.word c.name] EndsColumn (IsWord c.name) :=
    covers_term_operand (covers_operand_word (fun t ht => ht.word) fun _ t ht => ht.barred)
      (fun t ht => ht.term) fuel
  refine .unlessCount (fun t ht => (endsColumn_title c t ht).word.1) ?_
  exact hcolumn.bind (fun _ _ => (covers_title c).map fun _ _ => trivial) (endsColumn_title c)

/-! ### Assignments -/

/-- What follows the assignments. -/
def EndsAssignments (t : Option Token) : Prop := IsKeyword ["WHERE"] t

/-- The tokens of an assignment of a value. -/
def assignmentTokens (a : String × Cell) : List Token := [.word a.1, .mark "=", .bound a.2]

theorem endsTerm_assignment {t : Option Token} (h : OrComma EndsAssignments t) : EndsTerm t := by
  rcases h with rfl | ⟨w, rfl, _⟩
  · exact endsTerm_mark (by decide)
  · exact ⟨nofun, nofun, nofun⟩

/-- An assignment of a term. -/
theorem covers_assignment {column : String} {fuel : Nat} {Q : Term → Prop}
    (h : Covers (term fuel) ts (OrComma EndsAssignments) Q) :
    Covers (assignment fuel) (.word column :: .mark "=" :: ts) (OrComma EndsAssignments)
      fun a => a.1 = column ∧ Q a.2 := by
  have hname : Covers name [.word column] (fun _ => True) (· = column) := covers_name column
  have hrest (c : String) (hc : c = column) : Covers (do mark "="; return (c, ← term fuel))
      (.mark "=" :: ts) (OrComma EndsAssignments) fun a => a.1 = column ∧ Q a.2 :=
    .afterMark (h.map fun _ ht => ⟨hc, ht⟩)
  exact hname.bind hrest fun _ _ => trivial

theorem covers_assigned (a : String × Cell) (fuel : Nat) :
    Covers (assignment fuel) (assignmentTokens a) (OrComma EndsAssignments)
      (· = (a.1, .literal a.2)) := by
  have hvalue : Covers (term fuel) [.bound a.2] (OrComma EndsAssignments) (· = .literal a.2) :=
    covers_term_operand (covers_operand_bound a.2) (fun _ ht => endsTerm_assignment ht) fuel
  exact (covers_assignment hvalue).mono (fun _ ht => ht) fun b hb => Prod.ext hb.1 hb.2

/-- The clock's reading, which is a call without arguments. -/
theorem covers_now (hnext : ∀ t, next t → EndsTerm t) (fuel : Nat) :
    Covers (term fuel) [.word "now", .mark "(", .mark ")"] next (· = .clock .now) := by
  have hcall (l : Lexeme) (inner : Parse Term) : call? l "now" inner = some do
      mark "("
      mark ")"
      return .clock .now := by
    have hname : "now".toLower = "now" := by decide +kernel
    unfold call?
    rw [hname]
    rfl
  have hnow : IsPlain "now" := ⟨by rfl, by decide, by decide, by decide, by decide⟩
  have hoperand (fuel : Nat) : Covers (operand fuel) [.word "now", .mark "(", .mark ")"]
      next (· = .clock .now) :=
    covers_call (P := (· = .clock .now)) hnow hcall
      (fun _ _ => .afterMark ((covers_mark ")").map fun _ _ => rfl)) fuel
  exact covers_term_operand hoperand hnext fuel

/-- The time is assigned to the column of the last update. -/
theorem covers_stamped (column : String) (fuel : Nat) :
    Covers (assignment fuel)
      [.word column, .mark "=", .word "now", .mark "(", .mark ")"] (OrComma EndsAssignments)
      (· = (column, .clock .now)) := by
  have hterm : Covers (term fuel) [.word "now", .mark "(", .mark ")"] (OrComma EndsAssignments)
      (· = .clock .now) := covers_now (fun _ ht => endsTerm_assignment ht) fuel
  exact (covers_assignment hterm).mono (fun _ ht => ht) fun b hb => Prod.ext hb.1 hb.2

/-! ### Statements -/

/-- What a reader gives of lexemes that begin with the tokens `ts` satisfies `P`,
whatever it leaves of them. -/
def Yields (p : Parse α) (ts : List Token) (rest : List Lexeme) (P : α → Prop) : Prop :=
  ∀ (ls out : List Lexeme) (a : α), ls.map Lexeme.token = ts → p (ls ++ rest) = .ok (a, out) → P a

namespace Yields

variable {us : List Token} {rest : List Lexeme} {Q : β → Prop}

theorem bind {p : Parse α} {f : α → Parse β} (hp : Covers p ts next P)
    (hf : ∀ a, P a → Yields (f a) us rest Q) (hnext : next (us.head?.or (headToken rest))) :
    Yields (p >>= f) (ts ++ us) rest Q := by
  intro ls out b hls hb
  obtain ⟨first, more, rfl, hfirst, hmore⟩ := List.map_eq_append_iff.1 hls
  rw [List.append_assoc, bind_run] at hb
  obtain ⟨⟨a, middle⟩, ha, hb⟩ := Test.bind_eq_ok hb
  rw [← headToken_append hmore] at hnext
  obtain ⟨rfl, hP⟩ := hp first (more ++ rest) middle a hfirst hnext ha
  exact hf a hP more out b hmore hb

theorem whenKeyword {ks : List String} {w : String} {f : Bool → Parse β}
    (hw : Keyword.upper w ∈ ks) (h : Yields (f true) us rest Q) :
    Yields (acceptAny ks >>= f) (.word w :: us) rest Q := by
  intro ls out b hls hb
  obtain ⟨l, more, rfl, hl, hmore⟩ := List.map_eq_cons_iff.1 hls
  rw [List.cons_append, bind_run] at hb
  rcases acceptAny_run ks (l :: (more ++ rest)) with ⟨-, hrun⟩ | ⟨hnot, -⟩
  · rw [hrun] at hb
    exact h more out b hmore hb
  · exact absurd ⟨w, congrArg some hl, hw⟩ hnot

theorem unlessKeyword {ks : List String} {w : String} {f : Bool → Parse β}
    (hw : Keyword.upper w ∉ ks) (h : Yields (f false) (.word w :: us) rest Q) :
    Yields (acceptAny ks >>= f) (.word w :: us) rest Q := by
  intro ls out b hls hb
  rw [bind_run] at hb
  rcases acceptAny_run ks (ls ++ rest) with ⟨hyes, -⟩ | ⟨-, hrun⟩
  · rw [headToken_append hls] at hyes
    exact absurd (isKeyword_word.1 hyes) hw
  · rw [hrun] at hb
    exact h ls out b hls hb

theorem map {p : Parse α} {f : α → β} (h : Yields p us rest P) (hf : ∀ a, P a → Q (f a)) :
    Yields (do return f (← p)) us rest Q := by
  intro ls out b hls hb
  rw [bind_run] at hb
  obtain ⟨⟨a, middle⟩, ha, hb⟩ := Test.bind_eq_ok hb
  cases hb
  exact hf a (h ls middle a hls ha)

end Yields

section Statements

variable {rules : FilterRules} {f : Filter} {rest : List Lexeme}

/-- The condition of a statement implies its filter. -/
theorem covers_condition (h : f.RulesPass rules) :
    Covers condition (.word "WHERE" :: f.tokens rules.fields) EndsCondition
      fun c => ∃ t, c = some t ∧ t.Implies rules.fields f := by
  intro ls rest out c hls hrest hc
  have htest (fuel : Nat) : Covers (after "WHERE" (test fuel))
      (.word "WHERE" :: f.tokens rules.fields) EndsCondition
      fun c => ∃ t, c = some t ∧ t.Implies rules.fields f :=
    covers_after (by decide) (covers_test (Filter.covers_filter h) fuel)
  exact htest _ ls rest out c hls hrest hc

/-- A `SELECT` acts on the rows for which its filter holds, whatever it gives of them and
in whatever order. -/
theorem yields_select (h : f.RulesPass rules) {outputs : List Token} (table : String) {fuel : Nat}
    (houtputs : Covers (separated (output fuel) fuel) outputs EndsOutputs fun _ => True)
    (hrest : EndsCondition (headToken rest)) :
    Yields (statement fuel) (.word "SELECT" :: (outputs ++
      ([.word "FROM", .word table] ++ (.word "WHERE" :: f.tokens rules.fields)))) rest
      fun s => (∃ select, s = .select select) ∧ s.ActsOn rules.fields table f := by
  have hfrom : Covers (after "FROM" name) [.word "FROM", .word table] (fun _ => True)
      fun a => ∃ b, a = some b ∧ b = table := covers_after (by decide) (covers_name table)
  have hselect : Yields (selectStatement fuel) (outputs ++
      ([.word "FROM", .word table] ++ (.word "WHERE" :: f.tokens rules.fields))) rest
      fun s => s.table = some table ∧ ∃ t, s.condition = some t ∧ t.Implies rules.fields f := by
    refine .bind houtputs (fun outs _ => .bind hfrom ?_ trivial) ⟨"FROM", rfl, by decide⟩
    rintro _ ⟨_, rfl, rfl⟩
    rw [← List.append_nil (Token.word "WHERE" :: f.tokens rules.fields)]
    refine .bind (covers_condition h) (fun c hc ls out s _ hs => ?_) hrest
    rw [bind_run] at hs
    obtain ⟨⟨sorting, _⟩, -, hs⟩ := Test.bind_eq_ok hs
    rw [bind_run] at hs
    obtain ⟨⟨window, _⟩, -, hs⟩ := Test.bind_eq_ok hs
    cases hs
    exact ⟨rfl, hc⟩
  exact .whenKeyword (by decide) (hselect.map fun _ hs => ⟨⟨_, rfl⟩, hs⟩)

/-- An `UPDATE` acts on the rows for which its filter holds, whatever it assigns. -/
theorem yields_update (h : f.RulesPass rules) {assigned : List Token} (table : String) {fuel : Nat}
    (hassigned : Covers (separated (assignment fuel) fuel) assigned EndsAssignments fun _ => True)
    (hrest : EndsCondition (headToken rest)) :
    Yields (statement fuel) (.word "UPDATE" :: ([.word table] ++ (["SET"].map Token.word ++
      (assigned ++ (.word "WHERE" :: f.tokens rules.fields))))) rest
      (Statement.ActsOn rules.fields table f) := by
  have hname : Covers name [.word table] (fun _ => True) (· = table) := covers_name table
  have hset : Covers (keywords ["SET"]) (["SET"].map Token.word) (fun _ => True) fun _ => True :=
    covers_keywords (by decide)
  refine .unlessKeyword (by decide) (.unlessKeyword (by decide) (.whenKeyword (by decide) ?_))
  refine .bind hname (fun name hname => .bind hset (fun _ _ => .bind hassigned (fun list _ => ?_)
    ⟨"WHERE", rfl, by decide⟩) trivial) trivial
  rw [← List.append_nil (Token.word "WHERE" :: f.tokens rules.fields)]
  refine .bind (covers_condition h) (fun c hc ls out s _ hs => ?_) hrest
  cases hs
  exact ⟨hname, hc⟩

/-- A `DELETE` acts on the rows for which its filter holds. -/
theorem yields_delete (h : f.RulesPass rules) (table : String) {fuel : Nat}
    (hrest : EndsCondition (headToken rest)) :
    Yields (statement fuel) (.word "DELETE" :: (["FROM"].map Token.word ++ ([.word table] ++
      (.word "WHERE" :: f.tokens rules.fields)))) rest
      (Statement.ActsOn rules.fields table f) := by
  have hname : Covers name [.word table] (fun _ => True) (· = table) := covers_name table
  have hfrom : Covers (keywords ["FROM"]) (["FROM"].map Token.word) (fun _ => True) fun _ => True :=
    covers_keywords (by decide)
  refine .unlessKeyword (by decide) (.unlessKeyword (by decide) (.unlessKeyword (by decide)
    (.whenKeyword (by decide) ?_)))
  refine .bind hfrom (fun _ _ => .bind hname (fun name hname => ?_) trivial) trivial
  rw [← List.append_nil (Token.word "WHERE" :: f.tokens rules.fields)]
  refine .bind (covers_condition h) (fun c hc ls out s _ hs => ?_) hrest
  cases hs
  exact ⟨hname, hc⟩

end Statements

end Parse

/-- **What is read of a text acts as its tokens say.** -/
theorem Statement.read_of_yields {sql : String} {cells : List Cell} {s : Statement}
    (hs : Statement.read sql cells = .ok s) {ts : List Token} {P : Statement → Prop}
    {front rest : List Lexeme}
    (hsplit : Lexeme.fill (Lexeme.scan sql.toList) cells = front ++ rest)
    (hfront : front.map Lexeme.token = ts)
    (h : ∀ fuel, Yields (Parse.statement fuel) ts rest P) : P s := by
  unfold Statement.read at hs
  obtain ⟨⟨t, out⟩, hwhole, hs⟩ := Test.bind_eq_ok hs
  have ht : t = s := by
    dsimp only at hs
    split at hs
    · cases hs
    · exact Except.ok.inj hs
  rw [hsplit] at hwhole
  unfold Parse.whole at hwhole
  rw [bind_run] at hwhole
  obtain ⟨⟨u, middle⟩, hu, hwhole⟩ := Test.bind_eq_ok hwhole
  rw [bind_run] at hwhole
  obtain ⟨⟨next, _⟩, hnext, hwhole⟩ := Test.bind_eq_ok hwhole
  dsimp only at hwhole
  split at hwhole
  · exact absurd hwhole (refuse_ne_ok _ _)
  · cases hwhole
    exact ht ▸ h _ front middle t hfront hu

end Sql

end ResourceTable
