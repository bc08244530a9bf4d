import ResourceTable.Value

/-!
# Filters

A filter is a tree: groups join filters by AND or OR, and rules compare one field
with an operand.  Filters come from callers and carry no trust; they have to pass
validation before they are compiled.

## Main definitions

* `Connective`, `Operator`: what joins filters and what compares.
* `Operand`, `Rule`, `Filter`.
* `Filter.matchesAll`: whether a filter is true of every row by its shape.

## Main results

* `matchesAll_and`, `matchesAll_or`: how groups decide it.
-/

namespace ResourceTable

/-- What joins the rules of a group. -/
inductive Connective
  /-- Every rule has to hold. -/
  | and
  /-- One rule has to hold. -/
  | or
  deriving DecidableEq, Repr, Inhabited

namespace Connective

/-- The name on the wire. -/
def name : Connective → String
  | and => "and"
  | or => "or"

/-- The text between the parts of a condition. -/
def keyword : Connective → String
  | and => " AND "
  | or => " OR "

end Connective

/-- How a rule compares its field with its operand. -/
inductive Operator
  /-- The field equals the value. -/
  | equal
  /-- The field differs from the value. -/
  | notEqual
  /-- The field is above the value. -/
  | greater
  /-- The field is the value or above. -/
  | greaterOrEqual
  /-- The field is below the value. -/
  | less
  /-- The field is the value or below. -/
  | lessOrEqual
  /-- The field is one of the values. -/
  | oneOf
  /-- The field is none of the values. -/
  | noneOf
  /-- The field contains the text. -/
  | contains
  /-- The field contains the text, case ignored. -/
  | containsAnyCase
  /-- The primary key is above the value. -/
  | idGreater
  /-- The part of a document equals the value. -/
  | jsonEqual
  /-- The part of a document differs from the value. -/
  | jsonNotEqual
  /-- The part of a document is one of the values. -/
  | jsonOneOf
  /-- The sequence in a document contains the value. -/
  | jsonContains
  /-- The sequence in a document contains one of the values. -/
  | jsonOverlaps
  /-- The document has the key path. -/
  | jsonHasPath
  /-- The document lacks the key path. -/
  | jsonLacksPath
  /-- The sequence in a document has so many elements. -/
  | jsonLength
  deriving DecidableEq, Repr, Inhabited

namespace Operator

/-- The name on the wire. -/
def name : Operator → String
  | equal => "eq"
  | notEqual => "neq"
  | greater => "gt"
  | greaterOrEqual => "gte"
  | less => "lt"
  | lessOrEqual => "lte"
  | oneOf => "in"
  | noneOf => "nin"
  | contains => "cs"
  | containsAnyCase => "cis"
  | idGreater => "id_gt"
  | jsonEqual => "json_eq"
  | jsonNotEqual => "json_neq"
  | jsonOneOf => "json_in"
  | jsonContains => "json_contains"
  | jsonOverlaps => "json_overlaps"
  | jsonHasPath => "json_contains_path"
  | jsonLacksPath => "json_not_contains_path"
  | jsonLength => "json_length"

/-- Every operator. -/
def all : List Operator :=
  [equal, notEqual, greater, greaterOrEqual, less, lessOrEqual, oneOf, noneOf, contains,
    containsAnyCase, idGreater, jsonEqual, jsonNotEqual, jsonOneOf, jsonContains, jsonOverlaps,
    jsonHasPath, jsonLacksPath, jsonLength]

theorem mem_all (op : Operator) : op ∈ all := by cases op <;> decide

/-- The operator of a wire name. -/
def ofName? (name : String) : Option Operator := all.find? (·.name == name)

@[simp] theorem ofName?_name (op : Operator) : ofName? op.name = some op := by
  cases op <;> decide

/-- Whether the field names a whole document, in which a key path is looked up. -/
def checksKey : Operator → Bool
  | jsonHasPath | jsonLacksPath => true
  | _ => false

/-- Whether the operator looks into a document. -/
def isJson : Operator → Bool
  | jsonEqual | jsonNotEqual | jsonOneOf | jsonContains | jsonOverlaps | jsonHasPath
  | jsonLacksPath | jsonLength => true
  | _ => false

/-- Whether the operand is a list. -/
def takesList : Operator → Bool
  | oneOf | noneOf | jsonOneOf | jsonOverlaps => true
  | _ => false

end Operator

/-- What a field is compared with. -/
inductive Operand
  /-- A single value. -/
  | single (v : Value)
  /-- A list of values. -/
  | list (vs : List Value)
  deriving DecidableEq, Inhabited

/-- One comparison. -/
structure Rule where
  /-- A column, or a path into a document column: `extension.vpc_id`. -/
  field : String
  /-- The comparison. -/
  op : Operator
  /-- What the field is compared with. -/
  operand : Operand
  deriving DecidableEq, Inhabited

/-- A tree of comparisons. -/
inductive Filter
  /-- Filters joined by a connective; without any, it holds of every row. -/
  | group (op : Connective) (rules : List Filter)
  /-- A comparison. -/
  | rule (r : Rule)

namespace Filter

/-- The filter that holds of every row. -/
def everything : Filter := .group .and []

instance : Inhabited Filter := ⟨everything⟩

/-- Whether the filter is a group without rules. -/
def isEmpty : Filter → Bool
  | .group _ [] => true
  | _ => false

mutual

/-- Whether the filter holds of every row whatever the row: a group without rules
does, an AND of filters that do, and an OR with one that does. -/
def matchesAll : Filter → Bool
  | .group _ [] => true
  | .group .and (f :: rest) => matchesAll f && everyMatchesAll rest
  | .group .or (f :: rest) => matchesAll f || someMatchesAll rest
  | .rule _ => false
termination_by structural f => f

/-- Whether all of the filters hold of every row. -/
def everyMatchesAll : List Filter → Bool
  | [] => true
  | f :: rest => matchesAll f && everyMatchesAll rest
termination_by structural l => l

/-- Whether one of the filters holds of every row. -/
def someMatchesAll : List Filter → Bool
  | [] => false
  | f :: rest => matchesAll f || someMatchesAll rest
termination_by structural l => l

end

theorem everyMatchesAll_eq (l : List Filter) : everyMatchesAll l = l.all matchesAll := by
  induction l with
  | nil => rfl
  | cons f rest ih => simp [everyMatchesAll, ih]

theorem someMatchesAll_eq (l : List Filter) : someMatchesAll l = l.any matchesAll := by
  induction l with
  | nil => rfl
  | cons f rest ih => simp [someMatchesAll, ih]

@[simp] theorem matchesAll_rule (r : Rule) : matchesAll (.rule r) = false := rfl

@[simp] theorem matchesAll_nil (op : Connective) : matchesAll (.group op []) = true := by
  cases op <;> rfl

theorem matchesAll_and (l : List Filter) : matchesAll (.group .and l) = l.all matchesAll := by
  cases l with
  | nil => rfl
  | cons f rest => simp [matchesAll, everyMatchesAll_eq]

theorem matchesAll_or {l : List Filter} (h : l ≠ []) :
    matchesAll (.group .or l) = l.any matchesAll := by
  cases l with
  | nil => exact absurd rfl h
  | cons f rest => simp [matchesAll, someMatchesAll_eq]

mutual

/-- Whether two filters are equal. -/
protected def decEq : (a b : Filter) → Decidable (a = b)
  | .group op l, b => by
    cases b with
    | group op' l' =>
      exact
        if h : op = op' then @decidable_of_iff _ (l = l') (by simp [h]) (Filter.decEqList l l')
        else .isFalse (by simp [h])
    | rule _ => exact .isFalse nofun
  | .rule r, b => by
    cases b with
    | rule r' => exact decidable_of_iff (r = r') (by simp)
    | group _ _ => exact .isFalse nofun
termination_by structural a => a

/-- Whether two lists of filters are equal. -/
protected def decEqList : (a b : List Filter) → Decidable (a = b)
  | [], [] => .isTrue rfl
  | [], _ :: _ => .isFalse nofun
  | _ :: _, [] => .isFalse nofun
  | a :: r, b :: s =>
    match Filter.decEq a b with
    | .isFalse h => .isFalse (by simp [h])
    | .isTrue h => @decidable_of_iff _ (r = s) (by simp [h]) (Filter.decEqList r s)
termination_by structural a => a

end

instance : DecidableEq Filter := Filter.decEq

end Filter

end ResourceTable
