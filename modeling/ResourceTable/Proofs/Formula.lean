import ResourceTable.Proofs.Meaning
import ResourceTable.Sql.Keyword
import ResourceTable.Sql.Token

/-!
# Reading the connectives of a condition

The tokens of a condition are read by the rules that SQL has for parentheses, `AND` and
`OR`, and by nothing else: `AND` binds closer than `OR`, both join what is on their left
first, and a parenthesis where an operand is expected opens a group.  An operand that
is not a group is an atomic condition.  It begins with any token at all, so that a
column may be named like a keyword, and reaches to the next connective or closing
parenthesis outside of its own parentheses.

## Main definitions

* `Formula`: what a condition says about its atomic conditions, with `Formula.truth` and
  `Formula.atoms`.
* `Reader`, `Reader.step`: reads one token.
* `Formula.read`: the formula of a list of tokens.
-/

namespace ResourceTable

open Sql (Token Truth)

/-- What a condition says about its atomic conditions. -/
inductive Formula
  /-- It always holds: `1 = 1`. -/
  | always
  /-- An atomic condition, as it is written. -/
  | atom (tokens : List Token)
  /-- Two formulas joined by a connective. -/
  | join (op : Connective) (left right : Formula)

namespace Formula

/-- The value of a formula whose atomic conditions have the values `τ`. -/
def truth (τ : List Token → Truth) : Formula → Truth
  | always => .yes
  | atom ts => τ ts
  | join op a b => op.join (a.truth τ) (b.truth τ)

/-- The tokens of the condition that always holds. -/
def alwaysTokens : List Token := [.number "1", .mark "=", .number "1"]

/-- The formula of an operand that is not a group. -/
def ofAtom (ts : List Token) : Formula := if ts = alwaysTokens then always else atom ts

end Formula

/-! ### The reader -/

/-- The connective that a token is. -/
def Connective.ofToken? : Token → Option Connective
  | .word s =>
    if Sql.Keyword.upper s = "AND" then some .and
    else if Sql.Keyword.upper s = "OR" then some .or
    else none
  | _ => none

/-- What was read at one level of parentheses, left of the operand that comes next. -/
structure Level where
  /-- What stands left of the last `OR`. -/
  alternatives : Option Formula
  /-- What stands left of the last `AND` after it. -/
  conjuncts : Option Formula

namespace Level

/-- Nothing was read. -/
def fresh : Level := ⟨none, none⟩

/-- What the last `AND` makes of an operand. -/
def conjoin (l : Level) (a : Formula) : Formula :=
  match l.conjuncts with
  | some b => .join .and b a
  | none => a

/-- What the whole level makes of an operand. -/
def close (l : Level) (a : Formula) : Formula :=
  match l.alternatives with
  | some b => .join .or b (l.conjoin a)
  | none => l.conjoin a

/-- The level after an operand and a connective. -/
def extend (l : Level) (a : Formula) : Connective → Level
  | .and => { l with conjuncts := some (l.conjoin a) }
  | .or => ⟨some (l.close a), none⟩

end Level

/-- What the reader is at. -/
inductive Pending
  /-- An operand is expected. -/
  | expected
  /-- An atomic condition, so many parentheses deep, with its tokens in reverse. -/
  | atom (depth : Nat) (seen : List Token)
  /-- A group that was closed. -/
  | closed (a : Formula)

/-- The operand that is complete. -/
def Pending.operand? : Pending → Option Formula
  | .atom 0 seen => some (.ofAtom seen.reverse)
  | .closed a => some a
  | _ => none

/-- A reader of conditions. -/
structure Reader where
  /-- The levels around the present one, the innermost first. -/
  outer : List Level
  /-- The present level. -/
  level : Level
  /-- What the reader is at. -/
  pending : Pending

namespace Reader

/-- Before the first token. -/
def start : Reader := ⟨[], .fresh, .expected⟩

/-- A token after an operand: a connective, or the end of a group. -/
def afterOperand (r : Reader) (a : Formula) (t : Token) : Option Reader :=
  match Connective.ofToken? t with
  | some op => some ⟨r.outer, r.level.extend a op, .expected⟩
  | none =>
    if t = .mark ")" then
      match r.outer with
      | l :: rest => some ⟨rest, l, .closed (r.level.close a)⟩
      | [] => none
    else none

/-- Whether a token goes on with an atomic condition at a depth of parentheses. -/
def continues (depth : Nat) (t : Token) : Bool :=
  depth ≠ 0 || ((Connective.ofToken? t).isNone && t ≠ .mark ")")

/-- The depth after a token of an atomic condition. -/
def depthAfter (depth : Nat) (t : Token) : Nat :=
  if t = .mark "(" then depth + 1 else if t = .mark ")" then depth - 1 else depth

/-- Reads one token. -/
def step (r : Reader) (t : Token) : Option Reader :=
  match r.pending with
  | .expected =>
    if t = .mark "(" then some ⟨r.level :: r.outer, .fresh, .expected⟩
    else if t = .mark ")" then none
    else some { r with pending := .atom 0 [t] }
  | .atom depth seen =>
    if continues depth t then some { r with pending := .atom (depthAfter depth t) (t :: seen) }
    else r.afterOperand (.ofAtom seen.reverse) t
  | .closed a => r.afterOperand a t

/-- Reads tokens, one after the other. -/
def run (r : Reader) : List Token → Option Reader
  | [] => some r
  | t :: rest => (r.step t).bind fun r => r.run rest

/-- The formula of what was read, if it is complete. -/
def result? (r : Reader) : Option Formula :=
  match r.outer with
  | [] => r.pending.operand?.map r.level.close
  | _ :: _ => none

end Reader

namespace Formula

/-- The formula of a condition, if its tokens can be read. -/
def read (ts : List Token) : Option Formula := (Reader.start.run ts).bind Reader.result?

end Formula

end ResourceTable
