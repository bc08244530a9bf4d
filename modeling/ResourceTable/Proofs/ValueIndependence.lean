import Mathlib.Data.List.Sort
import ResourceTable.Proofs.Alike

/-!
# Values stay out of the text

Filters that differ in their values only are compiled to the same text, with the same
placeholders, and executed as the same text with question marks.  The one value that is
written into a text is the key path of a rule on key paths, and it stays within the
single quotes around it.

## Main definitions

* `Clause.face`: what a clause shows without its values.
* `keySteps`, `Rule.beforeKey`, `Rule.afterKey`: the text of a rule on key paths.

## Main results

* `face_eq` — filters that are alike are compiled to clauses with one face.
* `bound_text_congr` — queries that bind as many values are executed as one text.
* `Passed.keyTest_text` — the key path of a rule is quoted by its field and operator.
* `compile_hides_values` — **values do not reach the text.**
-/

namespace ResourceTable

open Sql (Token)

/-! ### Executed text -/

theorem isSome_eq_of_rel {α β : Type} {related : α → β → Prop} {a : Option α} {b : Option β}
    (h : Option.Rel related a b) : a.isSome = b.isSome := by
  cases h <;> rfl

/-- The names of a map are those that have values. -/
theorem NameMap.keys_eq_of_rel {α β : Type} {related : α → β → Prop} {m : NameMap α}
    {n : NameMap β} (h : ∀ name, Option.Rel related (m.get? name) (n.get? name)) :
    m.keys = n.keys := by
  have hmem (name : String) : name ∈ m.keys ↔ name ∈ n.keys := by
    rw [mem_keys_iff, mem_keys_iff, isSome_eq_of_rel (h name)]
  exact m.keys_pairwise.eq_of_mem_iff n.keys_pairwise fun {name} => hmem name

namespace Query

theorem marks_eq_of_rel {a b : Option Param} (h : Option.Rel Param.SameCount a b) :
    a.map marks = b.map marks := by
  cases h with
  | none => rfl
  | @some p q h => rw [Option.map_some, Option.map_some, marks, marks, List.map_const',
      List.map_const', h]

/-- A query is refused for a placeholder to which nothing is bound, and for nothing else
if there is a cell for each of its values. -/
theorem bound_text {q : Query} (hcells : ∀ name p, q.params.get? name = some p →
      ∀ v ∈ p.values, v.toCell = .ok v.cell) :
    q.bound.map Prod.fst =
      match q.unbound? with
      | some name => .error (.storage ("no value bound for placeholder `:" ++ name ++ "`"))
      | none => .ok q.positional := by
  rw [bound]
  cases q.unbound? with
  | some name => rfl
  | none =>
    have hvalues : q.values.mapM Value.toCell = .ok (q.values.map Value.cell) := by
      refine mapM_toCell fun v hv => ?_
      obtain ⟨name, -, hv⟩ := List.mem_flatMap.1 hv
      cases hp : q.param name with
      | none => rw [hp] at hv; cases hv
      | some p =>
        rw [hp] at hv
        exact hcells name p hp v hv
    simp only [hvalues]
    rfl

/-- **Queries of one text that bind as many values to the same names are executed as one
text.** -/
theorem bound_text_congr {q p : Query} (hsql : q.sql = p.sql)
    (hparams : ∀ name, Option.Rel Param.SameCount (q.params.get? name) (p.params.get? name))
    (hq : ∀ name a, q.params.get? name = some a → ∀ v ∈ a.values, v.toCell = .ok v.cell)
    (hp : ∀ name a, p.params.get? name = some a → ∀ v ∈ a.values, v.toCell = .ok v.cell) :
    q.bound.map Prod.fst = p.bound.map Prod.fst := by
  have hunbound : q.unbound? = p.unbound? := by
    rw [unbound?, unbound?, placeholders, placeholders, hsql]
    refine congrArg (fun test => List.find? test _) (funext fun name => ?_)
    rw [param, param, ← Option.not_isSome, ← Option.not_isSome, isSome_eq_of_rel (hparams name)]
  have hpositional : q.positional = p.positional := by
    rw [positional, positional, hsql]
    refine congrArg (fun replace => Placeholder.substitute replace _) (funext fun name => ?_)
    exact marks_eq_of_rel (hparams name)
  rw [bound_text hq, bound_text hp, hunbound, hpositional]

end Query

/-! ### Compiled clauses -/

/-- A rule binds as many values as its operand has. -/
theorem Rule.payload_length (type : Option ColumnType) (r : Rule) :
    (r.payload type).values.length =
      match r.operand with
      | .single _ => 1
      | .list vs => vs.length := by
  rcases r with ⟨field, op, operand⟩
  cases operand with
  | single v =>
    unfold payload
    split <;> first | rfl | contradiction
  | list vs =>
    unfold payload
    by_cases hjson : op.isJson = true <;> simp [Param.values, hjson]

theorem Rule.Alike.sameCount_payload {r s : Rule} (h : r.Alike Operand.SameLength s)
    (type : Option ColumnType) : (r.payload type).SameCount (s.payload type) := by
  have hsame := h.operand
  rw [Param.SameCount, Rule.payload_length, Rule.payload_length]
  cases hr : r.operand with
  | single v =>
    cases hs : s.operand with
    | single w => rfl
    | list ws => rw [hr, hs] at hsame; exact hsame.elim
  | list vs =>
    cases hs : s.operand with
    | single w => rw [hr, hs] at hsame; exact hsame.elim
    | list ws => rw [hr, hs] at hsame; exact hsame

namespace Filter

variable {fields : Schema} {P : Param → Prop}

/-- What holds of everything bound. -/
def EveryBound (P : Param → Prop) (n : Naming) : Prop :=
  ∀ name p, n.params.get? name = some p → P p

theorem everyBound_bindIn {n : Naming} {r : Rule} (hn : EveryBound P n)
    (h : r.op.checksKey = false → P (r.payload (fields.get? r.field))) :
    EveryBound P (r.bindIn fields n) := by
  cases hop : r.op.checksKey with
  | true =>
    rw [Rule.bindIn, if_pos hop]
    exact hn
  | false =>
    rw [Rule.bindIn, if_neg (by simp [hop])]
    intro name p hp
    rw [Naming.bind, NameMap.get?_insert] at hp
    split at hp
    · rw [← Option.some.inj hp]
      exact h hop
    · exact hn name p hp

/-- What is bound is bound by the rules. -/
theorem everyBound_lowered {f : Filter}
    (h : ∀ r ∈ f.rules, r.op.checksKey = false → P (r.payload (fields.get? r.field))) :
    ∀ n, EveryBound P n → EveryBound P (f.lowered fields n).2 := by
  induction f using treeInduction with
  | rule r => exact fun n hn => everyBound_bindIn hn (h r (List.mem_singleton.2 rfl))
  | group op fs ih =>
    have hrest : ∀ l : List Filter, (∀ f ∈ l, f ∈ fs) → ∀ n, EveryBound P n →
        EveryBound P (loweredRest fields op l n).2 := by
      intro l
      induction l with
      | nil => exact fun _ n hn => hn
      | cons g rest ihrest =>
        intro hl n hn
        obtain ⟨hg, hl⟩ := List.forall_mem_cons.1 hl
        refine ihrest hl _ (ih g hg (fun r hr => h r ?_) n hn)
        rw [rules, rulesAll_eq_flatMap]
        exact List.mem_flatMap.2 ⟨g, hg, hr⟩
    intro n hn
    cases fs with
    | nil => exact hn
    | cons f rest =>
      exact hrest (f :: rest) (fun _ hf => hf) n hn

end Filter

/-- What a clause shows without its values: its text, the names of its placeholders and
whether it holds of every row. -/
def Clause.face (c : Clause) : String × List String × Bool := (c.sql, c.params.keys, c.matchesAll)

namespace ValidFilter

variable {rules : FilterRules} {v w : ValidFilter rules} {options : CompileOptions}

/-- A crown that is refused is refused whatever the filter is. -/
theorem crowned_error {e : RequestError} (h : v.crowned options = .error e) :
    w.crowned options = .error e := by
  unfold crowned at h ⊢
  split at h
  · next op c cs hc =>
    cases hcheck : Filter.checkAll rules (c :: cs) with
    | error e' =>
      rw [hcheck] at h
      exact h
    | ok u => rw [hcheck] at h; cases h
  · cases h

theorem compile_of_crowned_error {e : RequestError} (h : v.crowned options = .error e) :
    v.compile options = .error e := by
  rw [compile, h]
  rfl

section Alike

variable {same : Operand → Operand → Prop} {related : Param → Param → Prop}

theorem alike_lowered (hrefl : ∀ a, same a a) (hpayload : ∀ r s : Rule, r.Alike same s →
      ∀ type, related (r.payload type) (s.payload type)) (h : v.filter.Alike same w.filter) :
    Filter.LoweredAlike related (v.lowered options) (w.lowered options) :=
  Filter.alike_lowered hpayload ((h.crownedBy hrefl options.crown).prioritize options.priority)
    _ _ (.start options.reserved)

end Alike

/-- **Filters of one shape are compiled to clauses with one face**, or refused alike. -/
theorem face_eq (h : v.filter.Alike Operand.SameForm w.filter) :
    (v.compile options).map Clause.face = (w.compile options).map Clause.face := by
  cases hcrowned : v.crowned options with
  | error e =>
    rw [compile_of_crowned_error hcrowned, compile_of_crowned_error (crowned_error hcrowned)]
  | ok f =>
    have hcrown := crownPasses_of_crowned hcrowned
    have halike : Filter.LoweredAlike (fun _ _ => True) (v.lowered options) (w.lowered options) :=
      alike_lowered Operand.SameForm.refl (fun _ _ _ _ => trivial) h
    obtain ⟨hprint, hnames⟩ := halike
    have hsql : namedText (v.print options) = namedText (w.print options) := by
      rw [Named.namedText_eq, Named.namedText_eq, print, print, List.map_append,
        List.map_append, hprint]
    have hall := (h.crownedBy Operand.SameForm.refl options.crown).matchesAll_eq
    have hkeys := NameMap.keys_eq_of_rel hnames.bound
    rw [v.compile_eq hcrown, w.compile_eq hcrown]
    refine congrArg Except.ok ?_
    rw [Clause.face, Clause.face, compiled, compiled, hsql, hall, hkeys]

theorem everyBound_compiled (v : ValidFilter rules)
    (hcrown : Filter.CrownPasses rules options.crown) :
    Filter.EveryBound (fun p => ∀ x ∈ p.values, x.toCell = .ok x.cell) (v.lowered options).2 := by
  refine Filter.everyBound_lowered (fun r hr hop x hx => ?_) _ fun name p hp => nomatch hp
  obtain ⟨type, hpassed⟩ := Rule.passed_of_check (v.rulesPass hcrown r hr)
  rw [hpassed.known] at hx
  exact Value.toCell_of_isBasic ((hpassed.payload_values hop).2 x hx)

/-- **Filters of one shape with lists of the same lengths are executed as one text.** -/
theorem bound_text_eq (hcrown : Filter.CrownPasses rules options.crown)
    (h : v.filter.Alike Operand.SameLength w.filter) :
    (v.compiled options).query.bound.map Prod.fst =
      (w.compiled options).query.bound.map Prod.fst := by
  have halike : Filter.LoweredAlike Param.SameCount (v.lowered options) (w.lowered options) :=
    alike_lowered Operand.SameLength.refl (fun _ _ hrs => hrs.sameCount_payload) h
  obtain ⟨hprint, hnames⟩ := halike
  have hsql : namedText (v.print options) = namedText (w.print options) := by
    rw [Named.namedText_eq, Named.namedText_eq, print, print, List.map_append,
      List.map_append, hprint]
  exact Query.bound_text_congr hsql hnames.bound (v.everyBound_compiled hcrown)
    (w.everyBound_compiled hcrown)

end ValidFilter

/-! ### Key paths -/

/-- The steps of a path of keys. -/
def keySteps (keys : List Char) : List Char :=
  (splitAtMark '.' keys).flatMap fun key => '.' :: '"' :: key ++ ['"']

theorem keySteps_join (a b : List Char) : keySteps (a ++ '.' :: b) = keySteps a ++ keySteps b := by
  rw [keySteps, splitAtMark_join, List.flatMap_append]
  rfl

theorem quote_notMem_keySteps {keys : List Char} (h : isKeyPath keys = true) :
    '\x27' ∉ keySteps keys := by
  have hpath := quote_notMem_pathText h
  rw [pathText, String.toList_ofList, List.mem_cons, not_or] at hpath
  exact hpath.2

/-- The column of a rule on key paths, and the steps that its field takes before its key
path does. -/
def keyPlace (field : String) : String × List Char :=
  match cutAtMark '.' field.toList with
  | some (column, keys) => (String.ofList column, keySteps keys)
  | none => (field, [])

theorem documentPath_key (field key : String) :
    documentPath (field ++ "." ++ key) =
      .ok ((keyPlace field).1,
        String.ofList ('$' :: ((keyPlace field).2 ++ keySteps key.toList))) := by
  have hfull : (field ++ "." ++ key).toList = field.toList ++ '.' :: key.toList := by simp
  unfold keyPlace
  cases hcut : cutAtMark '.' field.toList with
  | none =>
    have hpath := cutAtMark_append (b := key.toList) (cutAtMark_eq_none_iff.1 hcut)
    rw [← hfull] at hpath
    rw [documentPath_of_cut hpath, String.ofList_toList]
    rfl
  | some p =>
    obtain ⟨column, keys⟩ := p
    obtain ⟨hfield, hdot⟩ := cutAtMark_eq_some hcut
    have hpath := cutAtMark_append (b := keys ++ '.' :: key.toList) hdot
    rw [← List.cons_append, ← List.append_assoc, ← hfield, ← hfull] at hpath
    rw [documentPath_of_cut hpath, ← keySteps_join]
    rfl

namespace Rule

/-- The text of a rule on key paths before its key path, after a single quote that it
opens. -/
def beforeKey (field : String) : String :=
  "json_type(" ++ (keyPlace field).1 ++ ", '$" ++ String.ofList (keyPlace field).2

/-- The text of a rule on key paths after its key path, which closes the single quote. -/
def afterKey (op : Operator) : String :=
  "') " ++ if op = .jsonHasPath then "IS NOT NULL" else "IS NULL"

/-- The text of a rule on key paths. -/
def keyText (r : Rule) (key : String) : String :=
  beforeKey r.field ++ String.ofList (keySteps key.toList) ++ afterKey r.op

/-- **The key path of a rule is quoted by its field and its operator.** -/
theorem keyTest_text {r : Rule} {key : String} (h : r.operand = .single (.text key)) :
    r.keyTest = .ok (r.keyText key) := by
  unfold keyTest keyText
  rw [h]
  simp only [Value.text, documentPath_key]
  refine congrArg Except.ok (String.toList_inj.1 ?_)
  simp [beforeKey, afterKey]

theorem place_of_key {r : Rule} {key : String} (h : r.operand = .single (.text key))
    (hop : r.op.checksKey = true) :
    r.place = ((keyPlace r.field).1,
      String.ofList ('$' :: ((keyPlace r.field).2 ++ keySteps key.toList))) := by
  refine place_of_path ?_ (Operator.isJson_of_checksKey hop)
  rw [fullField_of_key hop h, documentPath_key]

end Rule

namespace Filter

variable (fields : Schema) {r : Rule}

theorem infix_loweredRest (op : Connective) {l : List Filter} (hr : r ∈ rulesAll l)
    (ih : ∀ f ∈ l, r ∈ f.rules → ∀ n, ∃ name : String,
      r.print (name, r.payload (fields.get? r.field)) <:+: (f.lowered fields n).1) :
    ∀ n, ∃ name : String,
      r.print (name, r.payload (fields.get? r.field)) <:+: (loweredRest fields op l n).1 := by
  induction l with
  | nil => cases hr
  | cons f rest ihrest =>
    intro n
    obtain ⟨hf, hrest⟩ := List.forall_mem_cons.1 ih
    rw [loweredRest]
    rcases List.mem_append.1 hr with hr | hr
    · obtain ⟨name, hprint⟩ := hf hr n
      refine ⟨name, ?_⟩
      rw [← List.append_assoc]
      exact hprint.trans (List.infix_append _ _ _)
    · obtain ⟨name, hprint⟩ := ihrest hr hrest (f.lowered fields n).2
      refine ⟨name, hprint.trans ?_⟩
      rw [← List.append_assoc]
      exact (List.suffix_append _ _).isInfix

/-- The print of every rule of a filter stands in the print of the filter. -/
theorem infix_lowered {f : Filter} (hr : r ∈ f.rules) : ∀ n, ∃ name : String,
    r.print (name, r.payload (fields.get? r.field)) <:+: (f.lowered fields n).1 := by
  induction f using treeInduction with
  | rule s =>
    intro n
    rw [List.mem_singleton.1 hr]
    exact ⟨_, List.infix_rfl⟩
  | group op fs ih =>
    intro n
    cases fs with
    | nil => cases hr
    | cons f rest =>
      obtain ⟨hf, hrest⟩ := List.forall_mem_cons.1 ih
      rw [lowered]
      rcases List.mem_append.1 hr with hr | hr
      · obtain ⟨name, hprint⟩ := hf hr n
        exact ⟨name, hprint.trans (List.infix_append [Ink.mark "("] _ _)⟩
      · obtain ⟨name, hprint⟩ := infix_loweredRest fields op hr hrest (f.lowered fields n).2
        refine ⟨name, hprint.trans ?_⟩
        rw [← List.cons_append, ← List.append_assoc]
        exact (List.infix_append _ _ _)

end Filter

theorem infix_flatMap {α β : Type} {a b : List α} (h : a <:+: b) (f : α → List β) :
    a.flatMap f <:+: b.flatMap f := by
  obtain ⟨front, back, rfl⟩ := h
  rw [List.flatMap_append, List.flatMap_append]
  exact List.infix_append _ _ _

/-- The first tokens of a rule on key paths. -/
def keyTokens (column path : String) : List Token :=
  [.word "json_type", .mark "(", .word column, .mark ",", .text path, .mark ")"]

theorem Rule.keyTokens_prefix {r : Rule} (hop : r.op.checksKey = true) (fields : Schema) :
    keyTokens r.place.1 r.place.2 <+: r.tokens fields := by
  have hsubject : r.op.subject = .kind := by
    cases hr : r.op <;> first | rfl | (rw [hr] at hop; cases hop)
  rw [tokens, print, hsubject, tokensOf_append, tokensOf_append, List.append_assoc]
  exact List.prefix_append _ _

/-- A key path in the text of a clause: letters, digits, `_` and dots within one pair of
single quotes, none of which it holds.  On paths of identifiers the database reads what
is between them as one text, of which the key path is the end. -/
structure Clause.QuotesKey (c : Clause) (rules : FilterRules) (r : Rule) (key : String) : Prop where
  operand : r.operand = .single (.text key)
  chars : ∀ ch ∈ key.toList, isNamePart ch = true ∨ ch = '.'
  text : (r.keyText key).toList <:+: c.sql.toList
  closed : '\x27' ∉ keySteps key.toList
  literal : rules.HasFieldPaths → ∀ text cells, c.query.bound = .ok (text, cells) →
    ∃ column path, keySteps key.toList <:+ path.toList ∧
      keyTokens column path <:+: Sql.received text cells

namespace ValidFilter

variable {rules : FilterRules} {options : CompileOptions}

theorem quotesKey_compiled (v : ValidFilter rules)
    (hcrown : Filter.CrownPasses rules options.crown) {r : Rule}
    (hr : r ∈ (v.filter.crownedBy options.crown).rules) (hop : r.op.checksKey = true) :
    ∃ key, (v.compiled options).QuotesKey rules r key := by
  have hr' := (Filter.rules_prioritize_perm options.priority _).mem_iff.2 hr
  obtain ⟨type, hpassed⟩ := Rule.passed_of_check (v.rulesPass hcrown r hr')
  obtain ⟨key, hoperand, hkey⟩ := hpassed.key hop
  obtain ⟨name, hprint⟩ := Filter.infix_lowered rules.fields hr' (.start options.reserved)
  refine ⟨key, hoperand, mem_keyPath hkey, ?_, quote_notMem_keySteps hkey, ?_⟩
  · -- the text of the rule is its print, which stands in the print of the clause
    have htext := hpassed.keyTest_eq hop name
    rw [Rule.keyTest_text hoperand] at htext
    rw [Except.ok.inj htext, String.toList_ofList, compiled, namedText, String.toList_ofList,
      ← Ink.map_rule r Prod.fst (name, r.payload (rules.fields.get? r.field)), print_map]
    have hwhere : (v.lowered options).1 <:+: v.print options :=
      (List.suffix_append _ _).isInfix
    exact infix_flatMap (hprint.trans hwhere) _
  · intro hnames text cells hbound
    have hbindable := v.bindable_print hnames hcrown
    have hexecuted := hbindable.bound_print.symm.trans hbound
    obtain ⟨rfl, rfl⟩ := Prod.mk.inj (Except.ok.inj hexecuted)
    have hplace := Rule.place_of_key hoperand hop
    refine ⟨r.place.1, r.place.2, ?_, ?_⟩
    · rw [hplace, String.toList_ofList, ← List.cons_append]
      exact List.suffix_append _ _
    · have htokens := (Rule.keyTokens_prefix hop rules.fields).isInfix
      have hwhere : (v.lowered options).1.map (Ink.map Prod.snd) <:+:
          (v.print options).map (Ink.map Prod.snd) := by
        rw [print, List.map_append]
        exact (List.suffix_append _ _).isInfix
      rw [Sql.received, hbindable.tokens_bound_print]
      refine htokens.trans (infix_flatMap (.trans ?_ hwhere) _)
      rw [← Ink.map_rule r Prod.snd (name, _)]
      exact hprint.map _

/-- **Values do not reach the text.**  Filters of one shape, with the same key paths, are
compiled to the same text, placeholders and flag, or refused alike.  If their lists have
the same lengths they are executed as one text, or refused alike, and on paths of
identifiers they are executed.  A key path, the one value in a text, cannot leave the
single quotes in which it stands. -/
theorem compile_hides_values (v w : ValidFilter rules) (options : CompileOptions)
    (h : v.filter.Alike Operand.SameForm w.filter) :
    (v.compile options).map Clause.face = (w.compile options).map Clause.face ∧
    (v.filter.Alike Operand.SameLength w.filter → ∀ c d, v.compile options = .ok c →
      w.compile options = .ok d → c.query.bound.map Prod.fst = d.query.bound.map Prod.fst ∧
        (rules.HasFieldPaths → ∃ text, c.query.bound.map Prod.fst = .ok text)) ∧
    ∀ c, v.compile options = .ok c → ∀ r ∈ (v.filter.crownedBy options.crown).rules,
      r.op.checksKey = true → ∃ key, c.QuotesKey rules r key := by
  have hcompiled : ∀ (u : ValidFilter rules) c, u.compile options = .ok c →
      Filter.CrownPasses rules options.crown ∧ c = u.compiled options := by
    intro u c hc
    cases hcrowned : u.crowned options with
    | error e =>
      rw [compile_of_crowned_error hcrowned] at hc
      cases hc
    | ok f =>
      have hcrown := crownPasses_of_crowned hcrowned
      rw [u.compile_eq hcrown] at hc
      exact ⟨hcrown, (Except.ok.inj hc).symm⟩
  refine ⟨face_eq h, fun hlength c d hc hd => ?_, fun c hc r hr hop => ?_⟩
  · obtain ⟨hcrown, rfl⟩ := hcompiled v c hc
    obtain ⟨-, rfl⟩ := hcompiled w d hd
    refine ⟨bound_text_eq hcrown hlength, fun hnames => ?_⟩
    have hexecuted := (v.bindable_print hnames hcrown).bound_print
    exact ⟨_, congrArg (Except.map Prod.fst) hexecuted⟩
  · obtain ⟨hcrown, rfl⟩ := hcompiled v c hc
    exact v.quotesKey_compiled hcrown hr hop

end ValidFilter

/-- The filter of `hostFilter` with other values. -/
def otherHostFilter : ValidFilter hostRules where
  filter := .group .or [
    .rule ⟨"extension.zone", .jsonEqual, .single (.text "\x27 OR 1 = 1 --")⟩,
    .group .and [
      .rule ⟨"labels", .jsonHasPath, .single (.text "env.tier")⟩,
      .rule ⟨"name", .oneOf, .list [.text ":name", .text "?"]⟩]]
  passed := by decide

theorem hostFilter_hides_values :
    hostFilter.filter.Alike Operand.SameForm otherHostFilter.filter ∧
    hostFilter.filter.Alike Operand.SameLength otherHostFilter.filter ∧
    (hostFilter.compile hostOptions).map Clause.face =
      (otherHostFilter.compile hostOptions).map Clause.face ∧
    (∀ c d, hostFilter.compile hostOptions = .ok c → otherHostFilter.compile hostOptions = .ok d →
      c.query.bound.map Prod.fst = d.query.bound.map Prod.fst ∧
        (hostRules.HasFieldPaths → ∃ text, c.query.bound.map Prod.fst = .ok text)) ∧
    ∀ c, hostFilter.compile hostOptions = .ok c →
      ∀ r ∈ (hostFilter.filter.crownedBy hostOptions.crown).rules,
        r.op.checksKey = true → ∃ key, c.QuotesKey hostRules r key :=
  have hform : hostFilter.filter.Alike Operand.SameForm otherHostFilter.filter :=
    .group .or (.cons (.rule ⟨rfl, rfl, trivial, nofun⟩) (.cons
      (.group .and (.cons (.rule ⟨rfl, rfl, trivial, fun _ => rfl⟩)
        (.cons (.rule ⟨rfl, rfl, trivial, nofun⟩) .nil))) .nil))
  have hlength : hostFilter.filter.Alike Operand.SameLength otherHostFilter.filter :=
    .group .or (.cons (.rule ⟨rfl, rfl, trivial, nofun⟩) (.cons
      (.group .and (.cons (.rule ⟨rfl, rfl, trivial, fun _ => rfl⟩)
        (.cons (.rule ⟨rfl, rfl, rfl, nofun⟩) .nil))) .nil))
  have hhides := ValidFilter.compile_hides_values hostFilter otherHostFilter hostOptions hform
  ⟨hform, hlength, hhides.1, hhides.2.1 hlength, hhides.2.2⟩

end ResourceTable
