/-!
# Fixed-width integers

Integer column values have one of eight types, signed or unsigned of 8 to 64 bits.
A value of such a type is an integer within the bounds of the type.

## Main definitions

* `IntType`: the types, with `IntType.least` and `IntType.greatest`.
* `FixedInt t`: the integers of a type.
* `FixedInt.ofInt?`: an integer as a value of a type, if it fits.
-/

namespace ResourceTable

/-- A fixed-width integer type. -/
inductive IntType
  | i8 | i16 | i32 | i64 | u8 | u16 | u32 | u64
  deriving DecidableEq, Repr, Inhabited

namespace IntType

/-- The name of the type. -/
def name : IntType → String
  | i8 => "i8"
  | i16 => "i16"
  | i32 => "i32"
  | i64 => "i64"
  | u8 => "u8"
  | u16 => "u16"
  | u32 => "u32"
  | u64 => "u64"

/-- Every type. -/
def all : List IntType := [i8, i16, i32, i64, u8, u16, u32, u64]

/-- The type of a name. -/
def ofName? (name : String) : Option IntType := all.find? (·.name == name)

/-- The number of bits. -/
def width : IntType → Nat
  | i8 | u8 => 8
  | i16 | u16 => 16
  | i32 | u32 => 32
  | i64 | u64 => 64

/-- Whether the type has negative values. -/
def signed : IntType → Bool
  | i8 | i16 | i32 | i64 => true
  | u8 | u16 | u32 | u64 => false

/-- The number of values. -/
def count (t : IntType) : Nat := Nat.pow 2 t.width

/-- The least value. -/
def least (t : IntType) : Int := if t.signed then -(t.count / 2 : Nat) else 0

/-- The greatest value. -/
def greatest (t : IntType) : Int := t.least + t.count - 1

/-- Whether the integer is a value of the type. -/
def Holds (t : IntType) (n : Int) : Prop := t.least ≤ n ∧ n ≤ t.greatest

instance (t : IntType) (n : Int) : Decidable (t.Holds n) :=
  inferInstanceAs (Decidable (_ ∧ _))

theorem holds_zero (t : IntType) : t.Holds 0 := by cases t <;> decide

end IntType

/-- The integers of a type. -/
structure FixedInt (t : IntType) where
  /-- The number. -/
  val : Int
  /-- It is within the bounds of the type. -/
  holds : t.Holds val
  deriving DecidableEq

namespace FixedInt

variable {t : IntType}

instance : Repr (FixedInt t) where
  reprPrec x n := reprPrec x.val n

@[ext] theorem ext {x y : FixedInt t} (h : x.val = y.val) : x = y := by
  cases x; cases y; cases h; rfl

/-- Zero. -/
def zero (t : IntType) : FixedInt t := ⟨0, t.holds_zero⟩

instance : Inhabited (FixedInt t) := ⟨zero t⟩

/-- The integer as a value of the type, if it fits. -/
def ofInt? (t : IntType) (n : Int) : Option (FixedInt t) :=
  if h : t.Holds n then some ⟨n, h⟩ else none

theorem ofInt?_eq_some_iff {n : Int} {x : FixedInt t} : ofInt? t n = some x ↔ x.val = n := by
  unfold ofInt?
  split
  · rename_i h
    simp only [Option.some.injEq]
    exact ⟨fun e => e ▸ rfl, fun e => FixedInt.ext e.symm⟩
  · rename_i h
    simp only [reduceCtorEq, false_iff]
    exact fun e => h (e ▸ x.holds)

@[simp] theorem ofInt?_val (x : FixedInt t) : ofInt? t x.val = some x :=
  ofInt?_eq_some_iff.2 rfl

end FixedInt

end ResourceTable
