/-! # Reading integers and booleans

Integers are read in base ten, or in the base that `0b`, `0o`, `0x` or a leading
`0` announces, with underscores between digits, and have to fit 64 bits.
-/

namespace TypeBounds.Text

/-- Why a text is no number. -/
inductive NumberError where
  | malformed
  | outOfRange
  deriving Repr, DecidableEq

def NumberError.message : NumberError → String
  | .malformed => "invalid syntax"
  | .outOfRange => "value out of range"

/-- The value of a digit in any base up to thirty-six. -/
def digitValue? (c : Char) : Option Nat :=
  if '0' ≤ c ∧ c ≤ '9' then some (c.toNat - '0'.toNat)
  else if 'a' ≤ c ∧ c ≤ 'z' then some (c.toNat - 'a'.toNat + 10)
  else if 'A' ≤ c ∧ c ≤ 'Z' then some (c.toNat - 'A'.toNat + 10)
  else none

/-- The first number that needs 64 binary digits: one above the greatest signed integer of
    64 bits, and the magnitude of the least. -/
def wordLimit : Nat := 9223372036854775808

/-- Read digits onto a number, which has to stay within 64 binary digits. -/
def readDigits (base : Nat) : Nat → List Char → Except NumberError Nat
  | n, [] => .ok n
  | n, c :: rest =>
      match digitValue? c with
      | none => .error .malformed
      | some d =>
          if d ≥ base then .error .malformed
          else if n * base + d ≥ 2 * wordLimit then .error .outOfRange
          else readDigits base (n * base + d) rest

/-- The base a text announces, and its digits. -/
def splitBase : List Char → Nat × List Char
  | '0' :: letter :: digit :: rest =>
      match letter.toLower with
      | 'b' => (2, digit :: rest)
      | 'o' => (8, digit :: rest)
      | 'x' => (16, digit :: rest)
      | _ => (8, letter :: digit :: rest)
  | '0' :: rest => (8, rest)
  | digits => (10, digits)

/-- What stood before a character, for the placement of underscores. -/
inductive Preceding where
  | start
  | digit
  | underscore
  | other
  deriving DecidableEq

/-- Every underscore follows a digit and precedes one. -/
def underscoresBetween (isDigit : Char → Bool) : Preceding → List Char → Bool
  | last, [] => last != .underscore
  | last, c :: rest =>
      if isDigit c then underscoresBetween isDigit .digit rest
      else if c = '_' then last == .digit && underscoresBetween isDigit .underscore rest
      else last != .underscore && underscoresBetween isDigit .other rest

def isDecimalDigit (c : Char) : Bool := '0' ≤ c && c ≤ '9'

def isHexDigit (c : Char) : Bool :=
  isDecimalDigit c || ('a' ≤ c && c ≤ 'f') || ('A' ≤ c && c ≤ 'F')

/-- Underscores separate digits, or the base from the first digit. -/
def underscoresAllowed : List Char → Bool
  | '0' :: letter :: rest =>
      match letter.toLower with
      | 'b' => underscoresBetween isDecimalDigit .digit rest
      | 'o' => underscoresBetween isDecimalDigit .digit rest
      | 'x' => underscoresBetween isHexDigit .digit rest
      | _ => underscoresBetween isDecimalDigit .start ('0' :: letter :: rest)
  | digits => underscoresBetween isDecimalDigit .start digits

/-- A number without sign in the base it announces. -/
def readNat (digits : List Char) : Except NumberError Nat := do
  if digits.isEmpty then throw .malformed
  let (base, body) := splitBase digits
  let n ← readDigits base 0 (body.filter (· != '_'))
  if body.contains '_' && !underscoresAllowed digits then throw .malformed
  return n

/-- Give a magnitude its sign, within 64 bits. -/
def signed (negative : Bool) (n : Nat) : Except NumberError Int :=
  if negative then
    if n ≤ wordLimit then .ok (-(n : Int)) else .error .outOfRange
  else
    if n < wordLimit then .ok n else .error .outOfRange

/-- Split off a leading sign; true for minus. -/
def splitSign : List Char → Bool × List Char
  | '-' :: rest => (true, rest)
  | '+' :: rest => (false, rest)
  | cs => (false, cs)

/-- A signed 64 bit integer. -/
def readInt (s : String) : Except NumberError Int := do
  let (negative, digits) := splitSign s.toList
  signed negative (← readNat digits)

def readBool (s : String) : Except NumberError Bool :=
  if ["1", "t", "T", "TRUE", "true", "True"].contains s then .ok true
  else if ["0", "f", "F", "FALSE", "false", "False"].contains s then .ok false
  else .error .malformed

end TypeBounds.Text
