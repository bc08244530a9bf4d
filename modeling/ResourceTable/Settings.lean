import ResourceTable.IntType

/-!
# Connection settings

The settings come from the environment; what is not set has a default.

## Main definitions

* `NumberError`, `readUnsigned`: numbers in the environment.
* `Settings`, `Settings.ofEnvironment`.
-/

namespace ResourceTable

/-- Why a text is not a number. -/
inductive NumberError
  /-- There is no text. -/
  | empty
  /-- A character is not a digit. -/
  | invalidDigit
  /-- The number is out of range. -/
  | tooLarge
  deriving DecidableEq, Repr

namespace NumberError

/-- The wording. -/
def text : NumberError → String
  | empty => "cannot parse integer from empty string"
  | invalidDigit => "invalid digit found in string"
  | tooLarge => "number too large to fit in target type"

end NumberError

/-- The number that digits continue, up to a greatest one. -/
def readDigits (greatest n : Nat) : List Char → Except NumberError Nat
  | [] => .ok n
  | c :: rest =>
    if !c.isDigit then .error .invalidDigit
    else
      let next := n * 10 + (c.toNat - '0'.toNat)
      if greatest < next then .error .tooLarge else readDigits greatest next rest

/-- The natural number of a text, up to a greatest one, with or without a plus
sign. -/
def readUnsigned (greatest : Nat) : List Char → Except NumberError Nat
  | [] => .error .empty
  | ['+'] => .error .invalidDigit
  | '+' :: rest => readDigits greatest 0 rest
  | cs => readDigits greatest 0 cs

/-- How to connect. -/
structure Settings where
  /-- The database. -/
  database : String := "file::memory:?cache=shared"
  /-- From how many milliseconds on a statement is slow. -/
  slowMillis : Nat := 200
  deriving DecidableEq, Repr

/-- A variable of the environment that is no number. -/
structure SettingsError where
  /-- The text of the variable. -/
  value : String
  /-- What is wrong with it. -/
  reason : NumberError
  deriving DecidableEq, Repr

namespace SettingsError

/-- The message; the text of the variable stands in it as it is. -/
def message (e : SettingsError) : String :=
  "issue loading connection options: 1 configuration error:\n" ++
    "  1. `ConnectOptions.slow_request_ms`: Failed to parse 'SQL_SLOW_REQUEST_MS'=\"" ++
    e.value ++ "\": " ++ e.reason.text ++ "\n"

end SettingsError

namespace Settings

/-- The settings of an environment. -/
def ofEnvironment (env : String → Option String) : Except SettingsError Settings := do
  let defaults : Settings := {}
  let slowMillis ←
    match env "SQL_SLOW_REQUEST_MS" with
    | none => pure defaults.slowMillis
    | some s =>
      (readUnsigned IntType.u64.greatest.toNat s.toList).mapError fun reason => ⟨s, reason⟩
  return ⟨(env "SQL_DATABASE").getD defaults.database, slowMillis⟩

end Settings

end ResourceTable
