import ResourceTable.Proofs.PrintPlaceholders
import ResourceTable.Proofs.RuleCheck

/-!
# The print of a rule

A rule that passes the check is printed as one test: what it looks at, then what it
asks.  Both are decided by the operator alone, and the value stands in the only hole.

## Main definitions

* `Subject`, `Question`: what an operator looks at, and what it asks.
* `Rule.place`: the column of a rule and the path into its document.
* `Rule.print`: the print of a rule.
* `Rule.payload`: what the rule binds.

## Main results

* `lower_rule` — **a rule that passes the check is compiled to its print and binds its
  payload.**
* `Passed.legible_print` — on a path of identifiers the print is legible.
* `Passed.payload_values` — it binds one value at least, and cells can hold them all.
-/

namespace ResourceTable

/-- What an operator looks at. -/
inductive Subject
  /-- The column. -/
  | column
  /-- The column in lower case. -/
  | lowered
  /-- A part of the document. -/
  | part
  /-- The elements of a part of the document. -/
  | element
  /-- The number of elements of a part of the document. -/
  | length
  /-- The kind of a part of the document. -/
  | kind

/-- What an operator asks. -/
inductive Question
  /-- How it compares with the value. -/
  | compare (mark : String)
  /-- Whether it is one of the values. -/
  | listed (negated : Bool)
  /-- Whether it fits the pattern. -/
  | fits (keyword : String)
  /-- Whether it is missing. -/
  | missing (negated : Bool)

namespace Operator

/-- What the operator looks at. -/
def subject : Operator → Subject
  | containsAnyCase => .lowered
  | jsonEqual | jsonNotEqual | jsonOneOf => .part
  | jsonContains | jsonOverlaps => .element
  | jsonLength => .length
  | jsonHasPath | jsonLacksPath => .kind
  | _ => .column

/-- What the operator asks. -/
def question : Operator → Question
  | equal | jsonEqual | jsonContains | jsonLength => .compare "="
  | notEqual | jsonNotEqual => .compare "!="
  | greater | idGreater => .compare ">"
  | greaterOrEqual => .compare ">="
  | less => .compare "<"
  | lessOrEqual => .compare "<="
  | oneOf | jsonOneOf | jsonOverlaps => .listed false
  | noneOf => .listed true
  | contains => .fits "GLOB"
  | containsAnyCase => .fits "LIKE"
  | jsonHasPath => .missing true
  | jsonLacksPath => .missing false

end Operator

section Prints

variable {α : Type}

namespace Subject

/-- A function of a document and a path. -/
def call (function column path : String) : List (Ink α) :=
  [.word function, .mark "(", .word column, .mark ",", .blank, .quoted path, .mark ")"]

/-- What is printed before the question. -/
def front (column path : String) : Subject → List (Ink α)
  | .column => [.word column]
  | lowered => [.word "LOWER", .mark "(", .word column, .mark ")"]
  | part => [.word column, .mark "->>", .quoted path]
  | element =>
    [.word "EXISTS", .blank, .mark "(", .word "SELECT", .blank, .digits "1", .blank,
      .word "FROM", .blank] ++ call "json_each" column path ++
      [.blank, .word "WHERE", .blank, .word "value"]
  | length => call "json_array_length" column path
  | kind => call "json_type" column path

/-- What is printed after the question. -/
def back : Subject → List (Ink α)
  | element => [.mark ")"]
  | _ => []

end Subject

/-- The print of a question about what is in `a`. -/
def Question.print (a : α) : Question → List (Ink α)
  | compare mark => [.blank, .mark mark, .blank, .hole a]
  | listed false => [.blank, .word "IN", .blank, .mark "(", .hole a, .mark ")"]
  | listed true =>
    [.blank, .word "NOT", .blank, .word "IN", .blank, .mark "(", .hole a, .mark ")"]
  | fits keyword => [.blank, .word keyword, .blank, .hole a]
  | missing false => [.blank, .word "IS", .blank, .word "NULL"]
  | missing true => [.blank, .word "IS", .blank, .word "NOT", .blank, .word "NULL"]

namespace Rule

/-- The field with the key path of a rule on key paths. -/
def fullField (r : Rule) : String :=
  match r.operand with
  | .single (.string (some key)) => if r.op.checksKey then r.field ++ "." ++ key else r.field
  | _ => r.field

/-- The column of a rule and the path into its document. -/
def place (r : Rule) : String × String :=
  match r.op.subject with
  | .column | .lowered => (r.field, "")
  | _ => (documentPath r.fullField).toOption.getD (r.field, "")

/-- The print of a rule with `a` in its hole. -/
def print (r : Rule) (a : α) : List (Ink α) :=
  r.op.subject.front r.place.1 r.place.2 ++ r.op.question.print a ++ r.op.subject.back

end Rule

end Prints

/-! ### What a rule binds -/

/-- The value as it is bound for a field of the type, itself if it cannot be. -/
def Value.moment (type : Option ColumnType) (v : Value) : Value :=
  (v.bound type).toOption.getD v

/-- What the rule binds for a field of the type. -/
def Rule.payload (type : Option ColumnType) (r : Rule) : Param :=
  match r.op, r.operand with
  | .contains, .single (.string (some s)) =>
    .single (.text (String.ofList ('*' :: (globEscape s.toList ++ ['*']))))
  | .containsAnyCase, .single (.string (some s)) =>
    .single (.text (String.ofList ('%' :: (lowercase s.toList ++ ['%']))))
  | op, .single v => .single (if op.isJson then v else v.moment type)
  | op, .list vs => .list (if op.isJson then vs else vs.map (Value.moment type))

theorem Value.bound_eq_moment {type : ColumnType} {v : Value} (h : v.suits type = true) :
    v.bound (some type) = .ok (v.moment (some type)) := by
  unfold moment
  cases hb : v.bound (some type) with
  | ok w => rfl
  | error e =>
    exfalso
    unfold bound at hb
    split at hb
    · next s heq =>
      cases heq
      split at hb
      · cases hb
      · next hnone =>
        rw [Value.suits, Value.isTime, hnone] at h
        cases h
    · cases hb

namespace Rule

variable {rules : FilterRules} {r : Rule}

/-- The place of a rule that looks into a document. -/
theorem place_of_path {path : String × String} (h : documentPath r.fullField = .ok path)
    (hop : r.op.isJson = true) : r.place = path := by
  unfold place
  cases hr : r.op with
  | jsonEqual | jsonNotEqual | jsonOneOf | jsonContains | jsonOverlaps | jsonHasPath
  | jsonLacksPath | jsonLength => simp [Operator.subject, h, Except.toOption]
  | _ => rw [hr] at hop; cases hop

theorem place_of_column (hop : r.op.isJson = false) : r.place = (r.field, "") := by
  unfold place
  cases hr : r.op <;> first | rfl | (rw [hr] at hop; cases hop)

theorem fullField_of_not_checksKey (h : r.op.checksKey = false) : r.fullField = r.field := by
  unfold fullField
  split
  · rw [h]; rfl
  · rfl

theorem fullField_of_key {key : String} (hop : r.op.checksKey = true)
    (h : r.operand = .single (.string (some key))) : r.fullField = r.field ++ "." ++ key := by
  unfold fullField
  rw [h]
  exact if_pos hop

/-- A rule that looks into a document and passes the check has a mark after its column. -/
theorem Passed.dot_mem_fullField {type : ColumnType} (h : Passed rules r type)
    (hop : r.op.isJson = true) : '.' ∈ r.fullField.toList := by
  cases hkey : r.op.checksKey with
  | true =>
    obtain ⟨key, hoperand, -⟩ := h.key hkey
    rw [fullField_of_key hkey hoperand]
    simp
  | false =>
    have hdocument := h.document hop hkey
    rw [fullField_of_not_checksKey hkey]
    by_contra hnot
    rw [isDocumentPath, cutAtMark_eq_none_iff.2 hnot] at hdocument
    cases hdocument

/-- A rule that looks into a document and passes the check has a path to look under. -/
theorem Passed.documentPath_fullField {type : ColumnType} (h : Passed rules r type)
    (hop : r.op.isJson = true) : documentPath r.fullField = .ok r.place := by
  cases hcut : cutAtMark '.' r.fullField.toList with
  | none => exact absurd (h.dot_mem_fullField hop) (cutAtMark_eq_none_iff.1 hcut)
  | some p =>
    obtain ⟨column, keys⟩ := p
    have hpath := documentPath_of_cut hcut
    rw [place_of_path hpath hop, hpath]

/-! ### The compiled rule -/

/-- A rule on key paths that passes the check is compiled to its print. -/
theorem Passed.keyTest_eq {type : ColumnType} (h : Passed rules r type)
    (hop : r.op.checksKey = true) (name : String) :
    r.keyTest = .ok (String.ofList (ResourceTable.print named (r.print name))) := by
  obtain ⟨key, hoperand, -⟩ := h.key hop
  have hpath := h.documentPath_fullField (Operator.isJson_of_checksKey hop)
  rw [fullField_of_key hop hoperand] at hpath
  unfold keyTest
  rw [hoperand]
  simp only [hpath, print]
  refine congrArg Except.ok (String.toList_inj.1 ?_)
  cases hr : r.op with
  | jsonHasPath | jsonLacksPath =>
    simp [Operator.subject, Operator.question, Subject.front, Subject.back, Subject.call,
      Question.print, ResourceTable.print, Ink.chars]
  | _ => rw [hr] at hop; cases hop

/-- A single value that suits the field is bound as a moment. -/
theorem bindSingle_eq {type : ColumnType} {v : Value} (h : v.suits type = true) :
    bindSingle (some type) v = .ok (.single (v.moment (some type))) := by
  rw [bindSingle, Value.bound_eq_moment h]
  rfl

theorem bindList_eq {type : ColumnType} {vs : List Value} (h : ∀ v ∈ vs, v.suits type = true) :
    bindList (some type) vs = .ok (.list (vs.map (Value.moment (some type)))) := by
  have hmap : vs.mapM (Value.bound (some type)) = .ok (vs.map (Value.moment (some type))) := by
    induction vs with
    | nil => rfl
    | cons v rest ih =>
      obtain ⟨hv, hrest⟩ := List.forall_mem_cons.1 h
      rw [List.mapM_cons, Value.bound_eq_moment hv, ih hrest]
      rfl
  rw [bindList, hmap]
  rfl

/-- The characters of a rule's print. -/
theorem toList_text (name : String) :
    (String.ofList (ResourceTable.print named (r.print name))).toList =
      ResourceTable.print named (r.op.subject.front r.place.1 r.place.2) ++
        ResourceTable.print named (r.op.question.print name) ++
        ResourceTable.print named r.op.subject.back := by
  rw [String.toList_ofList, print, print_append, print_append]

/-- Any other rule that passes the check is compiled to its print and binds its
payload. -/
theorem Passed.test_eq {type : ColumnType} (h : Passed rules r type)
    (hop : r.op.checksKey = false) (name : String) :
    r.test (some type) name =
      .ok (String.ofList (ResourceTable.print named (r.print name)), r.payload (some type)) := by
  have hcolumn := place_of_column (r := r)
  have hdocument := h.documentPath_fullField
  rw [fullField_of_not_checksKey hop] at hdocument
  have htext := toList_text (r := r) name
  rcases r with ⟨field, op, operand⟩
  cases op with
  | equal | notEqual | greater | idGreater | greaterOrEqual | less | lessOrEqual =>
    obtain ⟨v, hv⟩ := h.single rfl
    obtain rfl : operand = .single v := hv.operand
    simp only [test, bindSingle_eq (hv.suits rfl)]
    refine congrArg Except.ok (Prod.ext (String.toList_inj.1 ?_) rfl)
    rw [htext, hcolumn rfl]
    simp [Operator.subject, Operator.question, Subject.front, Subject.back, Question.print,
      ResourceTable.print, Ink.chars, named]
  | oneOf | noneOf =>
    obtain ⟨vs, hvs⟩ := h.list rfl
    obtain rfl : operand = .list vs := hvs.operand
    simp only [test, bindList_eq hvs.suits]
    refine congrArg Except.ok (Prod.ext (String.toList_inj.1 ?_) rfl)
    rw [htext, hcolumn rfl]
    simp [Operator.subject, Operator.question, Subject.front, Subject.back, Question.print,
      ResourceTable.print, Ink.chars, named]
  | contains | containsAnyCase =>
    obtain ⟨s, hs⟩ := h.pattern rfl rfl
    obtain rfl : operand = .single (.string (some s)) := hs
    refine congrArg Except.ok (Prod.ext (String.toList_inj.1 ?_) rfl)
    rw [htext, hcolumn rfl]
    simp [Operator.subject, Operator.question, Subject.front, Subject.back, Question.print,
      ResourceTable.print, Ink.chars, named]
  | jsonEqual | jsonNotEqual | jsonContains | jsonLength =>
    obtain ⟨v, hv⟩ := h.single rfl
    obtain rfl : operand = .single v := hv.operand
    simp only [test, extraction, someElement, hdocument rfl]
    refine congrArg Except.ok (Prod.ext (String.toList_inj.1 ?_) rfl)
    rw [htext]
    simp [Operator.subject, Operator.question, Subject.front, Subject.back, Subject.call,
      Question.print, ResourceTable.print, Ink.chars, named]
  | jsonOneOf | jsonOverlaps =>
    obtain ⟨vs, hvs⟩ := h.list rfl
    obtain rfl : operand = .list vs := hvs.operand
    simp only [test, extraction, someElement, hdocument rfl]
    refine congrArg Except.ok (Prod.ext (String.toList_inj.1 ?_) rfl)
    rw [htext]
    simp [Operator.subject, Operator.question, Subject.front, Subject.back, Subject.call,
      Question.print, ResourceTable.print, Ink.chars, named]
  | jsonHasPath | jsonLacksPath => cases hop

/-- The names in use, and what is bound, after a rule. -/
def bindIn (fields : Schema) (r : Rule) (n : Naming) : Naming :=
  if r.op.checksKey then n
  else n.bind (n.next (placeholderBase r.field)) (r.payload (fields.get? r.field))

/-- **A rule that passes the check is compiled to its print and binds its payload.**  A
rule on key paths binds nothing. -/
theorem lower_rule (h : r.check rules = .ok ()) (n : Naming) :
    r.lower rules.fields n =
      .ok (.test (String.ofList (ResourceTable.print named
          (r.print (n.next (placeholderBase r.field))))),
        r.bindIn rules.fields n) := by
  obtain ⟨type, hpassed⟩ := passed_of_check h
  unfold lower bindIn
  cases hop : r.op.checksKey with
  | true =>
    rw [if_pos rfl, if_pos rfl, hpassed.keyTest_eq hop (n.next (placeholderBase r.field))]
    rfl
  | false =>
    rw [if_neg Bool.false_ne_true, if_neg Bool.false_ne_true, hpassed.known]
    simp only [hpassed.test_eq hop]
    rfl

end Rule

/-! ### Legibility -/

namespace Rule

variable {rules : FilterRules} {r : Rule} {type : ColumnType}

theorem Passed.isFieldPath_fullField (h : Passed rules r type)
    (hfield : IsFieldPath r.field.toList) : IsFieldPath r.fullField.toList := by
  cases hop : r.op.checksKey with
  | false =>
    rw [fullField_of_not_checksKey hop]
    exact hfield
  | true =>
    obtain ⟨key, hoperand, hkey⟩ := h.key hop
    have hlist : r.fullField.toList = r.field.toList ++ '.' :: key.toList := by
      rw [fullField_of_key hop hoperand]
      simp
    rw [hlist]
    refine ⟨isKeyPath_join hfield.1 hkey, fun c hc => hfield.2 c ?_⟩
    cases hf : r.field.toList with
    | nil =>
      have hempty := hfield.1
      rw [hf] at hempty
      cases hempty
    | cons d rest =>
      rw [hf] at hc
      exact hc

/-- The column of a rule on a path of identifiers is a bare name, and its path holds no
quotes. -/
theorem Passed.place_sound (h : Passed rules r type) (hfield : IsFieldPath r.field.toList) :
    isBareName r.place.1.toList = true ∧ '\x27' ∉ r.place.2.toList := by
  cases hop : r.op.isJson with
  | false =>
    rw [place_of_column hop]
    have hdot := h.column hop
    have hident := hfield.1
    rw [isKeyPath_of_notMem hdot] at hident
    exact ⟨isBareName_of_isIdentifier hident hfield.2, List.not_mem_nil⟩
  | true =>
    obtain ⟨hkeys, hdigit⟩ := h.isFieldPath_fullField hfield
    cases hcut : cutAtMark '.' r.fullField.toList with
    | none => exact absurd (h.dot_mem_fullField hop) (cutAtMark_eq_none_iff.1 hcut)
    | some p =>
      obtain ⟨column, keys⟩ := p
      have hpath := documentPath_of_cut hcut
      rw [place_of_path hpath hop, String.toList_ofList]
      obtain ⟨hsplit, hdot⟩ := cutAtMark_eq_some hcut
      rw [hsplit, isKeyPath_append hdot] at hkeys
      refine ⟨isBareName_of_isIdentifier hkeys.1 fun c hc => hdigit c ?_,
        quote_notMem_pathText hkeys.2⟩
      rw [hsplit, List.head?_append, Option.mem_def.1 hc]
      rfl

end Rule

section Legibility

variable {α : Type} {column path : String}

/-- What a statement can go on with after a print: a blank or a closing parenthesis. -/
structure Closes (is : List (Ink α)) : Prop where
  /-- There is something to close. -/
  nonempty : is ≠ []
  /-- The last ink can be followed by a closing parenthesis. -/
  last : ∀ i ∈ is.getLast?, i.joins (Ink.mark ")" : Ink α) = true

theorem legible_cons {i : Ink α} {is : List (Ink α)} (hi : i.IsSound) (h : Legible is)
    (hnext : ∀ j ∈ is.head?, i.joins j = true) : Legible (i :: is) :=
  ⟨List.forall_mem_cons.2 ⟨hi, h.sound⟩, List.isChain_cons.2 ⟨hnext, h.chain⟩⟩

namespace Subject

theorem legible_call {function : String} (hfunction : isBareName function.toList = true)
    (hcolumn : isBareName column.toList = true) (hpath : '\x27' ∉ path.toList) :
    Legible (call function column path : List (Ink α)) := by
  refine ⟨?_, by simp [call, Ink.joins, Ink.closedMarks]⟩
  simp [call, Ink.IsSound, Ink.printedMarks, hfunction, hcolumn, hpath]

theorem legible_front (s : Subject) (hcolumn : isBareName column.toList = true)
    (hpath : '\x27' ∉ path.toList) : Legible (s.front column path : List (Ink α)) := by
  cases s with
  | column => exact legible_cons hcolumn .nil (by simp)
  | lowered =>
    refine ⟨?_, by simp [front, Ink.joins, Ink.closedMarks]⟩
    simp [front, Ink.IsSound, Ink.printedMarks, hcolumn]
    decide
  | part =>
    refine ⟨?_, by simp [front, Ink.joins, Ink.closedMarks]⟩
    simp [front, Ink.IsSound, Ink.printedMarks, hcolumn, hpath]
  | element =>
    have hfront : Legible ([.word "EXISTS", .blank, .mark "(", .word "SELECT", .blank, .digits "1",
        .blank, .word "FROM", .blank] : List (Ink α)) := by
      refine ⟨?_, by simp [Ink.joins, Ink.closedMarks]⟩
      simp [Ink.IsSound, Ink.printedMarks]
      decide
    have hback : Legible ([.blank, .word "WHERE", .blank, .word "value"] : List (Ink α)) := by
      refine ⟨?_, by simp [Ink.joins]⟩
      simp [Ink.IsSound]
      decide
    have hcall : Legible (call "json_each" column path : List (Ink α)) :=
      legible_call (by decide) hcolumn hpath
    refine (hfront.append hcall ?_).append hback ?_
    · simp [call]
    · simp [call]
  | length => exact legible_call (by decide) hcolumn hpath
  | kind => exact legible_call (by decide) hcolumn hpath

theorem legible_back (s : Subject) : Legible (s.back : List (Ink α)) := by
  cases s with
  | element => exact legible_cons (by show ")" ∈ Ink.printedMarks; decide) .nil (by simp)
  | _ => exact .nil

end Subject

namespace Question

/-- Whether the marks and words of a question are ones that are printed. -/
def IsSound : Question → Prop
  | compare mark => mark ∈ Ink.printedMarks
  | fits keyword => isBareName keyword.toList = true
  | _ => True

theorem head?_print (q : Question) (a : α) : ∀ i ∈ (q.print a).head?, i = .blank := by
  intro i hi
  cases q with
  | compare mark | fits keyword => exact (Option.some.inj hi).symm
  | listed negated | missing negated => cases negated <;> exact (Option.some.inj hi).symm

theorem closes_print (q : Question) (a : α) : Closes (q.print a) := by
  cases q with
  | compare mark | fits keyword => exact ⟨List.cons_ne_nil _ _, by simp [print, Ink.joins]⟩
  | listed negated | missing negated =>
    cases negated <;> exact ⟨List.cons_ne_nil _ _, by simp [print, Ink.joins, Ink.closedMarks]⟩

theorem legible_print {q : Question} (h : q.IsSound) (a : α) : Legible (q.print a) := by
  cases q with
  | compare mark =>
    have hmark : mark ∈ Ink.printedMarks := h
    exact ⟨by simp [print, Ink.IsSound, hmark], by simp [print, Ink.joins]⟩
  | fits keyword =>
    have hkeyword : isBareName keyword.toList = true := h
    exact ⟨by simp [print, Ink.IsSound, hkeyword], by simp [print, Ink.joins]⟩
  | listed negated =>
    cases negated <;> refine ⟨?_, by simp [print, Ink.joins, Ink.closedMarks]⟩ <;>
      simp [print, Ink.IsSound, Ink.printedMarks] <;> decide
  | missing negated =>
    cases negated <;> refine ⟨?_, by simp [print, Ink.joins]⟩ <;>
      simp [print, Ink.IsSound] <;> decide

end Question

theorem Operator.isSound_question (op : Operator) : op.question.IsSound := by
  cases op <;> first | trivial | (show _ ∈ Ink.printedMarks; decide)

namespace Rule

variable {rules : FilterRules} {r : Rule} {type : ColumnType}

/-- On a path of identifiers the print of a rule is legible. -/
theorem Passed.legible_print (h : Passed rules r type) (hfield : IsFieldPath r.field.toList)
    (a : α) : Legible (r.print a) := by
  obtain ⟨hcolumn, hpath⟩ := h.place_sound hfield
  have hquestion := Question.legible_print r.op.isSound_question a
  refine ((r.op.subject.legible_front hcolumn hpath).append hquestion ?_).append
    r.op.subject.legible_back ?_
  · intro i _ j hj
    rw [Question.head?_print _ a j hj]
    exact Ink.joins_blank i
  · intro i hi j hj
    have hclose : j = .mark ")" := by
      cases hs : r.op.subject <;> rw [hs] at hj <;>
        first | exact (Option.some.inj hj).symm | cases hj
    rw [List.getLast?_append_of_ne_nil _ (Question.closes_print _ a).nonempty] at hi
    rw [hclose]
    exact (Question.closes_print _ a).last i hi

theorem closes_print (r : Rule) (a : α) : Closes (r.print a) := by
  have hquestion := Question.closes_print r.op.question a
  unfold print
  cases r.op.subject with
  | element => exact ⟨by simp [Subject.back], by simp [Subject.back, Ink.joins, Ink.closedMarks]⟩
  | _ =>
    simp only [Subject.back, List.append_nil]
    refine ⟨by simp [hquestion.nonempty], ?_⟩
    rw [List.getLast?_append_of_ne_nil _ hquestion.nonempty]
    exact hquestion.last

/-- A rule has one hole, in which its value stands, and none if it is on key paths. -/
theorem holesOf_print (r : Rule) (a : α) :
    holesOf (r.print a) = if r.op.checksKey then [] else [a] := by
  unfold print
  cases r.op <;> rfl

end Rule

end Legibility

/-! ### What is bound -/

theorem Value.isBasic_of_meets {v : Value} {q : Requirement}
    (hq : q = .basic ∨ q = .numberOrTime ∨ q = .number) (h : v.meets q = true) :
    v.isBasic = true := by
  rcases hq with rfl | rfl | rfl
  · exact h
  · rcases Bool.or_eq_true_iff.1 h with h | h
    · exact isBasic_of_isNumeric h
    · unfold isTime at h
      split at h
      · rfl
      · rfl
      · cases h
  · exact isBasic_of_isNumeric h

/-- Whether the database has cells for the values of a type: all but times of day and
times with a zone. -/
def Value.isStorable : Value → Bool
  | .time _ | .machineTime _ | .zoned _ => false
  | _ => true

theorem Value.toCell_of_isStorable {v : Value} (h : v.isStorable = true) :
    v.toCell = .ok v.cell := by
  have hcell : ∃ c, v.toCell = .ok c := by
    cases v with
    | time | machineTime | zoned => cases h
    | _ => exact ⟨_, rfl⟩
  obtain ⟨c, hc⟩ := hcell
  rw [cell, hc]
  rfl

/-- A value of the types that filters take has a cell. -/
theorem Value.toCell_of_isBasic {v : Value} (h : v.isBasic = true) :
    v.toCell = .ok v.cell := by
  refine toCell_of_isStorable ?_
  cases v with
  | time | machineTime | zoned => cases h
  | _ => rfl

theorem Value.isBasic_moment {type : Option ColumnType} {v : Value} (h : v.isBasic = true) :
    (v.moment type).isBasic = true := by
  unfold moment bound
  split
  · split
    · rfl
    · exact h
  · exact h

/-- A single value that passes the check is of a type that filters take. -/
theorem Rule.SinglePassed.basic {r : Rule} {type : ColumnType} {v : Value}
    (h : r.SinglePassed type v) (hop : r.op.checksKey = false)
    (hpattern : r.op.requirement? ≠ some .nonemptyText) (htakes : r.op.takesList = false) :
    v.isBasic = true := by
  have hmeets := h.meets
  rcases r with ⟨field, op, operand⟩
  cases op with
  | equal | notEqual | jsonEqual | jsonNotEqual | jsonContains | idGreater =>
    exact Value.isBasic_of_meets (.inl rfl) (hmeets .basic rfl)
  | greater | greaterOrEqual | less | lessOrEqual =>
    exact Value.isBasic_of_meets (.inr (.inl rfl)) (hmeets .numberOrTime rfl)
  | jsonLength => exact Value.isBasic_of_meets (.inr (.inr rfl)) (hmeets .number rfl)
  | contains | containsAnyCase => exact absurd rfl hpattern
  | jsonHasPath | jsonLacksPath => cases hop
  | oneOf | noneOf | jsonOneOf | jsonOverlaps => cases htakes

/-- **A rule that passes the check binds one value at least, of types that filters
take.** -/
theorem Rule.Passed.payload_values {rules : FilterRules} {r : Rule} {type : ColumnType}
    (h : Passed rules r type) (hop : r.op.checksKey = false) :
    (r.payload (some type)).values ≠ [] ∧
      ∀ v ∈ (r.payload (some type)).values, v.isBasic = true := by
  rcases r with ⟨field, op, operand⟩
  have hsingle (hpattern : op.requirement? ≠ some .nonemptyText) (htakes : op.takesList = false) :
      ∃ v, operand = .single v ∧ v.isBasic = true := by
    obtain ⟨v, hv⟩ := h.single htakes
    exact ⟨v, hv.operand, hv.basic hop hpattern htakes⟩
  cases op with
  | equal | notEqual | greater | idGreater | greaterOrEqual | less | lessOrEqual =>
    obtain ⟨v, rfl, hv⟩ := hsingle (by decide) rfl
    exact ⟨List.cons_ne_nil _ _, List.forall_mem_singleton.2 (Value.isBasic_moment hv)⟩
  | jsonEqual | jsonNotEqual | jsonContains | jsonLength =>
    obtain ⟨v, rfl, hv⟩ := hsingle (by decide) rfl
    exact ⟨List.cons_ne_nil _ _, List.forall_mem_singleton.2 hv⟩
  | contains | containsAnyCase =>
    obtain ⟨s, hs⟩ := h.pattern rfl rfl
    obtain rfl : operand = .single (.string (some s)) := hs
    exact ⟨List.cons_ne_nil _ _, List.forall_mem_singleton.2 rfl⟩
  | oneOf | noneOf =>
    obtain ⟨vs, hvs⟩ := h.list rfl
    obtain rfl : operand = .list vs := hvs.operand
    refine ⟨fun hn => hvs.nonempty (List.map_eq_nil_iff.1 hn), fun v hv => ?_⟩
    obtain ⟨w, hw, rfl⟩ := List.mem_map.1 hv
    exact Value.isBasic_moment (hvs.basic w hw)
  | jsonOneOf | jsonOverlaps =>
    obtain ⟨vs, hvs⟩ := h.list rfl
    obtain rfl : operand = .list vs := hvs.operand
    exact ⟨hvs.nonempty, hvs.basic⟩
  | jsonHasPath | jsonLacksPath => cases hop

end ResourceTable
