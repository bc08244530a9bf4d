import ResourceTable.Calendar
import ResourceTable.IntType
import ResourceTable.Json

/-!
# Typed column values

A value that is bound to a placeholder, or read from a row, carries its own type;
each type has a null of its own.

## Main definitions

* `Value`: the typed values.
* `Value.isNull`, `Value.isNumeric`, `Value.isBasic`: the classes that filters
  distinguish.
* `Value.toInt?`: the integer that a value of an integer type or a truth value
  stands for.
-/

namespace ResourceTable

/-- A typed value, or the null of a type. -/
inductive Value
  /-- A truth value. -/
  | bool (v : Option Bool)
  /-- An integer of a fixed-width type. -/
  | integer (t : IntType) (v : Option (FixedInt t))
  /-- A 32-bit floating-point number. -/
  | single (v : Option Single)
  /-- A 64-bit floating-point number. -/
  | double (v : Option Double)
  /-- A text. -/
  | string (v : Option String)
  /-- A single character. -/
  | char (v : Option Char)
  /-- A sequence of bytes. -/
  | bytes (v : Option (List UInt8))
  /-- A JSON document. -/
  | json (v : Option Json)
  /-- A day. -/
  | date (v : Option Date)
  /-- A time of day. -/
  | time (v : Option TimeOfDay)
  /-- A date and time without a zone. -/
  | dateTime (v : Option LocalDateTime)
  /-- A moment in UTC. -/
  | timestamp (v : Option Timestamp)
  /-- A moment as the clock of the running machine shows it. -/
  | machineTime (v : Option ZonedDateTime)
  /-- A moment with an offset from UTC. -/
  | zoned (v : Option ZonedDateTime)
  deriving DecidableEq

namespace Value

instance : Inhabited Value := ⟨.string none⟩

/-- Whether the value is the null of its type. -/
def isNull : Value → Bool
  | .bool v => v.isNone
  | .integer _ v => v.isNone
  | .single v => v.isNone
  | .double v => v.isNone
  | .string v => v.isNone
  | .char v => v.isNone
  | .bytes v => v.isNone
  | .json v => v.isNone
  | .date v => v.isNone
  | .time v => v.isNone
  | .dateTime v => v.isNone
  | .timestamp v => v.isNone
  | .machineTime v => v.isNone
  | .zoned v => v.isNone

/-- Whether the value is a number. -/
def isNumeric : Value → Bool
  | .integer _ (some _) | .single (some _) | .double (some _) => true
  | _ => false

/-- Whether the value is a number, a truth value, a text, a character or a
timestamp. -/
def isBasic (v : Value) : Bool :=
  v.isNumeric ||
    match v with
    | .bool (some _) | .string (some _) | .char (some _) | .timestamp (some _) => true
    | _ => false

/-- The integer that the value stands for; a truth value is one or zero. -/
def toInt? : Value → Option Int
  | .integer _ (some n) => some n.val
  | .bool (some b) => some (if b then 1 else 0)
  | _ => none

/-- Whether the value is the zero of its type, or null. -/
def isZero : Value → Bool
  | .bool (some b) => !b
  | .integer _ (some n) => n.val == 0
  | .single (some x) => x.isZero
  | .double (some x) => x.isZero
  | .string (some s) => s.isEmpty
  | .char (some c) => c.toNat == 0
  | .bytes (some b) => b.isEmpty
  | .json (some j) => j.isNull
  | .date (some d) => d == .epoch
  | .timestamp (some t) => t == .epoch
  | .time (some _) | .dateTime (some _) | .machineTime (some _) | .zoned (some _) => false
  | v => v.isNull

/-- A text value. -/
def text (s : String) : Value := .string (some s)

/-- An integer value, if the integer fits the type. -/
def ofInt? (t : IntType) (n : Int) : Option Value :=
  (FixedInt.ofInt? t n).map fun x => .integer t (some x)

theorem isBasic_of_isNumeric {v : Value} (h : v.isNumeric) : v.isBasic := by
  simp [isBasic, h]

theorem isNull_of_isBasic {v : Value} (h : v.isBasic) : v.isNull = false := by
  unfold isBasic isNumeric at h
  cases v <;> rename_i x <;> cases x <;> simp_all [isNull]

end Value

end ResourceTable
