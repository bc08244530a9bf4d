import ResourceTable.IntType
import ResourceTable.Json
import ResourceTable.Text.Hex

/-!
# Reading JSON text

A text is split into tokens, and the tokens are read with a stack of the
containers that are still open.  Both passes are structural: the first on the
characters, the second on the tokens.

A number without fraction and exponent that fits 64 bits is an integer, except
minus zero.  Any other number is fractional: its leading digits that fit 64 bits
are rounded to a binary number, which is then scaled by a power of ten with a
single multiplication or division.

## Main definitions

* `Json.readNumber`: the value of a number's text.
* `Json.tokens`: the tokens of a text.
* `Json.read`: the value of a text, with members in the order written.
* `Json.document?`: the canonical value of a stored text.
-/

namespace ResourceTable.Json

/-! ### Numbers -/

/-- Digits that are kept, and the power of ten of the digits that are not. -/
structure Scaled where
  /-- The kept digits, below two to the 64. -/
  digits : Nat
  /-- The power of ten that they are multiplied with. -/
  exponent : Int

namespace Scaled

/-- Whether another digit still fits. -/
def hasRoom (s : Scaled) (d : Nat) : Bool := s.digits * 10 + d < IntType.u64.count

/-- The digits before the point: from the first that does not fit on, none is kept
but each counts as a power of ten. -/
def whole (s : Scaled) (full : Bool) : List Nat → Scaled
  | [] => s
  | d :: rest =>
    if !full && s.hasRoom d then whole ⟨s.digits * 10 + d, s.exponent⟩ false rest
    else whole ⟨s.digits, s.exponent + 1⟩ true rest

/-- The digits after the point: the first that does not fit ends them. -/
def fraction (s : Scaled) : List Nat → Scaled
  | [] => s
  | d :: rest =>
    if s.hasRoom d then fraction ⟨s.digits * 10 + d, s.exponent - 1⟩ rest else s

/-- Ten to the `n`, rounded. -/
def power (n : Nat) : Double := .ofRatio false (Nat.pow 10 n) 1

/-- `x` times ten to the `exponent`.  A power of ten beyond the largest number is
taken in steps; nothing is left when the result exceeds the largest number. -/
def apply : Nat → Double → Int → Option Double
  | 0, x, _ => some x
  | fuel + 1, x, exponent =>
    if exponent.natAbs ≤ 308 then
      if 0 ≤ exponent then
        let y := x.mul (power exponent.natAbs)
        if y.isInfinite then none else some y
      else some (x.div (power exponent.natAbs))
    else if x.isZero then some x
    else if 0 ≤ exponent then none
    else apply fuel (x.div (power 308)) (exponent + 308)

/-- The value of the kept digits, unless it exceeds the largest number. -/
def toDouble? (s : Scaled) : Option Double := apply 8 (.ofInt s.digits) s.exponent

end Scaled

/-- The value of a decimal digit. -/
def digitValue (c : Char) : Nat := c.toNat - '0'.toNat

/-- The natural number that a list of digits denotes. -/
def natOfDigits (ds : List Char) : Nat := ds.foldl (fun n c => n * 10 + digitValue c) 0

/-- The exponent after an exponent mark, or nothing if it has no digits. -/
def readExponent (cs : List Char) : Option Int :=
  let (negative, ds) :=
    match cs with
    | '+' :: ds => (false, ds)
    | '-' :: ds => (true, ds)
    | ds => (false, ds)
  if ds.isEmpty || !ds.all Char.isDigit then none
  else some (if negative then -(natOfDigits ds : Int) else natOfDigits ds)

/-- The greatest exponent whose size is looked at. -/
def greatestExponent : Int := IntType.i32.greatest

/-- The magnitude of a number with digits before and after the point and an
exponent. -/
def fractional (whole frac : List Char) (exponent : Int) : Option Double :=
  let s := ((Scaled.whole ⟨0, 0⟩ false (whole.map digitValue)).fraction (frac.map digitValue))
  if greatestExponent < exponent.natAbs then
    if s.digits ≠ 0 ∧ 0 < exponent then none else some (.zero false)
  else Scaled.toDouble? ⟨s.digits, s.exponent + exponent⟩

/-- An integer when it fits 64 bits, and a fractional number otherwise. -/
def integral (negative : Bool) (whole : List Char) : Option Number :=
  let n := natOfDigits whole
  if negative then
    if n = 0 then some (.double (.zero true))
    else if IntType.i64.Holds (-n) then some (.integer (-n))
    else (fractional whole [] 0).map fun x => .double x.neg
  else if IntType.u64.Holds n then some (.integer n)
  else (fractional whole [] 0).map .double

/-- The value of an unsigned number's text. -/
def readMagnitude (negative : Bool) (cs : List Char) : Option Number :=
  let signed (x : Double) : Number := .double (if negative then x.neg else x)
  let whole := cs.takeWhile Char.isDigit
  let rest := cs.dropWhile Char.isDigit
  if whole.isEmpty || (whole.head? == some '0' && 1 < whole.length) then none
  else
    match rest with
    | [] => integral negative whole
    | '.' :: rest =>
      let frac := rest.takeWhile Char.isDigit
      if frac.isEmpty then none
      else
        match rest.dropWhile Char.isDigit with
        | [] => (fractional whole frac 0).map signed
        | e :: rest =>
          if e = 'e' ∨ e = 'E' then
            (readExponent rest).bind fun x => (fractional whole frac x).map signed
          else none
    | e :: rest =>
      if e = 'e' ∨ e = 'E' then
        (readExponent rest).bind fun x => (fractional whole [] x).map signed
      else none

/-- The value of a number's text. -/
def readNumber : List Char → Option Number
  | '-' :: cs => readMagnitude true cs
  | cs => readMagnitude false cs

/-! ### Tokens -/

/-- A token of JSON text. -/
inductive Token
  /-- The bracket that opens a sequence. -/
  | openArray
  /-- The bracket that closes a sequence. -/
  | closeArray
  /-- The brace that opens an object. -/
  | openObject
  /-- The brace that closes an object. -/
  | closeObject
  /-- The mark between a name and its value. -/
  | colon
  /-- The mark between items. -/
  | comma
  /-- A value without parts. -/
  | scalar (j : Json)
  deriving DecidableEq, Repr

/-- What the characters read last belong to; characters are kept in reverse. -/
inductive Scan
  /-- Nothing is pending. -/
  | between
  /-- The letters of a word. -/
  | word (seen : List Char)
  /-- The characters of a number. -/
  | number (seen : List Char)
  /-- The inside of a text. -/
  | quoted (seen : List Char)
  /-- A backslash inside a text. -/
  | escape (seen : List Char)
  /-- The hexadecimal digits of a code unit inside a text: those to come, the
  value so far, and a first half of a pair that stands before it. -/
  | unit (seen : List Char) (left value : Nat) (high : Option Nat)
  /-- After the first half of a pair, before the backslash of the second. -/
  | pair (seen : List Char) (high : Nat)
  /-- After the first half of a pair and a backslash. -/
  | pairEscape (seen : List Char) (high : Nat)

/-- Whether the character can be part of a number. -/
def isNumberChar (c : Char) : Bool :=
  c.isDigit || c == '-' || c == '+' || c == '.' || c == 'e' || c == 'E'

/-- The character of a backslash escape of one letter. -/
def escaped? (c : Char) : Option Char :=
  if c = '"' ∨ c = '\\' ∨ c = '/' then some c
  else if c = 'b' then some (Char.ofNat 8)
  else if c = 'f' then some (Char.ofNat 12)
  else if c = 'n' then some '\n'
  else if c = 'r' then some '\r'
  else if c = 't' then some '\t'
  else none

/-- The word of the given letters, in reverse. -/
def wordToken? (seen : List Char) : Option Token :=
  if seen = ['l', 'l', 'u', 'n'] then some (.scalar .null)
  else if seen = ['e', 'u', 'r', 't'] then some (.scalar (.bool true))
  else if seen = ['e', 's', 'l', 'a', 'f'] then some (.scalar (.bool false))
  else none

/-- What a character does when nothing is pending. -/
def beginToken (c : Char) : Option (List Token × Scan) :=
  if c = ' ' ∨ c = '\n' ∨ c = '\r' ∨ c = '\t' then some ([], .between)
  else if c = '[' then some ([.openArray], .between)
  else if c = ']' then some ([.closeArray], .between)
  else if c = '\x7b' then some ([.openObject], .between)
  else if c = '\x7d' then some ([.closeObject], .between)
  else if c = ':' then some ([.colon], .between)
  else if c = ',' then some ([.comma], .between)
  else if c = '"' then some ([], .quoted [])
  else if c.isDigit || c == '-' then some ([], .number [c])
  else if c.isAlpha then some ([], .word [c])
  else none

/-- The tokens that a pending scan amounts to when another kind of character
follows. -/
def Scan.flush : Scan → Option (List Token)
  | .between => some []
  | .word seen => (wordToken? seen).map ([·])
  | .number seen => (readNumber seen.reverse).map fun n => [.scalar (.number n)]
  | _ => none

/-- The state after the last digit of a code unit. -/
def unitDone (seen : List Char) (value : Nat) : Option Nat → Option Scan
  | none =>
    if 0xd800 ≤ value ∧ value < 0xdc00 then some (.pair seen value)
    else if 0xdc00 ≤ value ∧ value < 0xe000 then none
    else some (.quoted (Char.ofNat value :: seen))
  | some high =>
    if 0xdc00 ≤ value ∧ value < 0xe000 then
      some (.quoted (Char.ofNat (0x10000 + (high - 0xd800) * 0x400 + (value - 0xdc00)) :: seen))
    else none

/-- What a character does in a scan: the tokens it completes and the next scan. -/
def Scan.step (c : Char) : Scan → Option (List Token × Scan)
  | .between => beginToken c
  | .word seen =>
    if c.isAlpha then some ([], .word (c :: seen))
    else do
      let done ← Scan.flush (.word seen)
      let (more, next) ← beginToken c
      return (done ++ more, next)
  | .number seen =>
    if isNumberChar c then some ([], .number (c :: seen))
    else do
      let done ← Scan.flush (.number seen)
      let (more, next) ← beginToken c
      return (done ++ more, next)
  | .quoted seen =>
    if c = '"' then some ([.scalar (.string (String.ofList seen.reverse))], .between)
    else if c = '\\' then some ([], .escape seen)
    else if c.toNat < 0x20 then none
    else some ([], .quoted (c :: seen))
  | .escape seen =>
    if c = 'u' then some ([], .unit seen 4 0 none)
    else (escaped? c).map fun d => ([], .quoted (d :: seen))
  | .unit seen left value high => do
    let digit ← hexValue? c
    let value := value * 16 + digit
    if left ≤ 1 then
      let next ← unitDone seen value high
      return ([], next)
    else return ([], .unit seen (left - 1) value high)
  | .pair seen high => if c = '\\' then some ([], .pairEscape seen high) else none
  | .pairEscape seen high => if c = 'u' then some ([], .unit seen 4 0 (some high)) else none

/-- The tokens of the rest of a text. -/
def tokensFrom (scan : Scan) : List Char → Option (List Token)
  | [] => scan.flush
  | c :: rest => do
    let (done, next) ← scan.step c
    let more ← tokensFrom next rest
    return done ++ more

/-- The tokens of a text. -/
def tokens (cs : List Char) : Option (List Token) := tokensFrom .between cs

/-! ### Values -/

/-- A container that is still open; its parts are kept in reverse. -/
inductive Frame
  /-- A sequence with the items read so far. -/
  | array (items : List Json)
  /-- An object with the members read so far and the name of the next. -/
  | object (members : List (String × Json)) (name : String)

/-- What may come next. -/
inductive Expect
  /-- A value. -/
  | value
  /-- A value, or the end of the sequence just opened. -/
  | firstItem
  /-- A name, or the end of the object just opened. -/
  | firstName
  /-- A name. -/
  | name
  /-- The mark after a name. -/
  | colon
  /-- A comma or the end of a container, or of the text. -/
  | after
  deriving DecidableEq

/-- The state of the reader: the open containers, innermost first, what may come
next, and the finished value if every container is closed. -/
structure Reading where
  /-- Open containers, innermost first. -/
  stack : List Frame
  /-- What may come next. -/
  expect : Expect
  /-- The value of the whole text. -/
  result : Option Json

namespace Reading

/-- The state before the first token. -/
def start : Reading := ⟨[], .value, none⟩

/-- A finished value goes into the innermost container. -/
def put (stack : List Frame) (j : Json) : Reading :=
  match stack with
  | [] => ⟨[], .after, some j⟩
  | .array items :: rest => ⟨.array (j :: items) :: rest, .after, none⟩
  | .object members name :: rest => ⟨.object ((name, j) :: members) name :: rest, .after, none⟩

/-- Whether a value may come next. -/
def wantsValue (r : Reading) : Bool := r.expect == .value || r.expect == .firstItem

/-- Reads one token; containers nest less than `depth` deep. -/
def step (depth : Nat) (r : Reading) : Token → Option Reading
  | .scalar (.string s) =>
    if r.wantsValue then some (put r.stack (.string s))
    else if r.expect = .firstName ∨ r.expect = .name then
      match r.stack with
      | .object members _ :: rest => some ⟨.object members s :: rest, .colon, none⟩
      | _ => none
    else none
  | .scalar j => if r.wantsValue then some (put r.stack j) else none
  | .openArray =>
    if r.wantsValue ∧ r.stack.length + 1 < depth then some ⟨.array [] :: r.stack, .firstItem, none⟩
    else none
  | .openObject =>
    if r.wantsValue ∧ r.stack.length + 1 < depth then
      some ⟨.object [] "" :: r.stack, .firstName, none⟩
    else none
  | .closeArray =>
    match r.stack with
    | .array items :: rest =>
      if r.expect = .firstItem ∨ r.expect = .after then some (put rest (.array items.reverse))
      else none
    | _ => none
  | .closeObject =>
    match r.stack with
    | .object members _ :: rest =>
      if r.expect = .firstName ∨ r.expect = .after then some (put rest (.object members.reverse))
      else none
    | _ => none
  | .colon => if r.expect = .colon then some ⟨r.stack, .value, none⟩ else none
  | .comma =>
    if r.expect = .after then
      match r.stack with
      | .array _ :: _ => some ⟨r.stack, .value, none⟩
      | .object _ _ :: _ => some ⟨r.stack, .name, none⟩
      | [] => none
    else none

/-- Reads the tokens one after the other. -/
def steps (depth : Nat) : Reading → List Token → Option Reading
  | r, [] => some r
  | r, t :: rest => (r.step depth t).bind fun next => steps depth next rest

end Reading

/-- The value of a text whose containers nest less than `depth` deep. -/
def read (depth : Nat) (cs : List Char) : Option Json := do
  let ts ← tokens cs
  let r ← Reading.start.steps depth ts
  r.result

/-- The depth from which a document is refused. -/
def documentDepth : Nat := 128

/-- The canonical value of a stored document. -/
def document? (s : String) : Option Json := (read documentDepth s.toList).map canonical

end ResourceTable.Json
