import ResourceTable.Binary
import ResourceTable.NameMap

/-!
# JSON documents

A document column holds a JSON value, and filters, pages and list requests arrive
as JSON.  An object is the list of its members; a *canonical* value has them in
ascending name order with every name once, which is the only form that is stored
or shown.

## Main definitions

* `Json.Number`: integers and fractional numbers, which are never equal.
* `Json`: the values.
* `Json.get?`: the member of an object.
* `Json.canonical`: members sorted, the last of a name kept.
-/

namespace ResourceTable

/-- A JSON number: an integer when it was written without fraction and exponent
and fits 64 bits, otherwise a fractional number. -/
inductive Json.Number
  /-- An integer. -/
  | integer (n : Int)
  /-- A number with a fraction or an exponent, or too large for an integer. -/
  | double (x : Double)
  deriving DecidableEq, Repr, Inhabited

/-- A JSON value. -/
inductive Json
  /-- The null value. -/
  | null
  /-- A truth value. -/
  | bool (b : Bool)
  /-- A number. -/
  | number (n : Json.Number)
  /-- A text. -/
  | string (s : String)
  /-- A sequence of values. -/
  | array (items : List Json)
  /-- Named members. -/
  | object (members : List (String × Json))
  deriving Repr, Inhabited

namespace Json

mutual

/-- Whether two values are equal. -/
protected def decEq : (a b : Json) → Decidable (a = b)
  | .null, b => by
    cases b with
    | null => exact .isTrue rfl
    | _ => exact .isFalse nofun
  | .bool x, b => by
    cases b with
    | bool y => exact decidable_of_iff (x = y) (by simp)
    | _ => exact .isFalse nofun
  | .number x, b => by
    cases b with
    | number y => exact decidable_of_iff (x = y) (by simp)
    | _ => exact .isFalse nofun
  | .string x, b => by
    cases b with
    | string y => exact decidable_of_iff (x = y) (by simp)
    | _ => exact .isFalse nofun
  | .array x, b => by
    cases b with
    | array y => exact @decidable_of_iff _ (x = y) (by simp) (Json.decEqItems x y)
    | _ => exact .isFalse nofun
  | .object x, b => by
    cases b with
    | object y => exact @decidable_of_iff _ (x = y) (by simp) (Json.decEqMembers x y)
    | _ => exact .isFalse nofun
termination_by structural a => a

/-- Whether two sequences of values are equal. -/
protected def decEqItems : (a b : List Json) → Decidable (a = b)
  | [], [] => .isTrue rfl
  | [], _ :: _ => .isFalse nofun
  | _ :: _, [] => .isFalse nofun
  | a :: r, b :: s =>
    match Json.decEq a b with
    | .isFalse h => .isFalse (by simp [h])
    | .isTrue h => @decidable_of_iff _ (r = s) (by simp [h]) (Json.decEqItems r s)
termination_by structural a => a

/-- Whether two lists of members are equal. -/
protected def decEqMembers : (a b : List (String × Json)) → Decidable (a = b)
  | [], [] => .isTrue rfl
  | [], _ :: _ => .isFalse nofun
  | _ :: _, [] => .isFalse nofun
  | a :: r, b :: s =>
    match Json.decEqMember a b with
    | .isFalse h => .isFalse (by simp [h])
    | .isTrue h => @decidable_of_iff _ (r = s) (by simp [h]) (Json.decEqMembers r s)
termination_by structural a => a

/-- Whether two members are equal. -/
protected def decEqMember : (a b : String × Json) → Decidable (a = b)
  | (m, a), (n, b) =>
    if h : m = n then @decidable_of_iff _ (a = b) (by simp [h]) (Json.decEq a b)
    else .isFalse (by simp [h])
termination_by structural a => a

end

instance : DecidableEq Json := Json.decEq

/-- Whether the value is null. -/
def isNull : Json → Bool
  | .null => true
  | _ => false

/-- The member of an object. -/
def get? (j : Json) (name : String) : Option Json :=
  match j with
  | .object members => NameMap.lookup name members
  | _ => none

mutual

/-- The value with the members of every object sorted. -/
def canonical : Json → Json
  | .null => .null
  | .bool b => .bool b
  | .number n => .number n
  | .string s => .string s
  | .array items => .array (canonicalItems items)
  | .object members => .object (NameMap.ofList (canonicalMembers members)).entries
termination_by structural j => j

/-- Every value of a sequence in canonical form. -/
def canonicalItems : List Json → List Json
  | [] => []
  | j :: rest => canonical j :: canonicalItems rest
termination_by structural l => l

/-- Every member with its value in canonical form. -/
def canonicalMembers : List (String × Json) → List (String × Json)
  | [] => []
  | m :: rest => canonicalMember m :: canonicalMembers rest
termination_by structural l => l

/-- A member with its value in canonical form. -/
def canonicalMember : String × Json → String × Json
  | (name, j) => (name, canonical j)
termination_by structural m => m

end

/-- An integer as a JSON value. -/
def ofInt (n : Int) : Json := .number (.integer n)

@[simp] theorem isNull_null : isNull .null = true := rfl

theorem isNull_iff {j : Json} : j.isNull ↔ j = .null := by
  cases j <;> simp [isNull]

end Json

end ResourceTable
