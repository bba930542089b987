import TypeBounds.Text.Base64
import TypeBounds.Text.Decimal
import TypeBounds.Yaml.Node

/-! # The values of scalars

A scalar in quotes is text. A plain one is read as a null, a boolean, a number or
a date if it looks like one, and is text otherwise. A tag asks for one of these;
a scalar that does not look like what its tag says is an error.
-/

namespace TypeBounds.Yaml

inductive Value where
  | null
  | bool (b : Bool)
  | int (n : Int)
  /-- A fraction with its integer part, which has 64 bits; there is none if the fraction is
      too large or not a number. -/
  | float (whole : Option Int)
  | timestamp
  | text (s : String)
  deriving Repr, DecidableEq

def Value.tag : Value → String
  | .null => "!!null"
  | .bool _ => "!!bool"
  | .int _ => "!!int"
  | .float _ => "!!float"
  | .timestamp => "!!timestamp"
  | .text _ => "!!str"

namespace Plain

/-- The words that are values by themselves. -/
def word? (s : String) : Option Value :=
  if ["true", "True", "TRUE"].contains s then some (.bool true)
  else if ["false", "False", "FALSE"].contains s then some (.bool false)
  else if ["", "~", "null", "Null", "NULL"].contains s then some .null
  else if [".nan", ".NaN", ".NAN", ".inf", ".Inf", ".INF", "+.inf", "+.Inf", "+.INF"].contains s then
    some (.float none)
  else if ["-.inf", "-.Inf", "-.INF"].contains s then some (.float (some (-Text.wordLimit)))
  else none

/-- The integer part of a fraction, cut to 64 bits. What is below them all counts as the
    least of them, and so does the first that is above them all. -/
def wholePart (n : Int) : Option Int :=
  if n > Text.wordLimit then none
  else if n = Text.wordLimit ∨ n < -Text.wordLimit then some (-Text.wordLimit)
  else some n

/-- The fraction of 53 binary digits that is nearest to an integer. -/
def nearest (n : Int) : Int :=
  n.sign * Text.truncateNearest n.natAbs 1

/-- A decimal fraction; one that is too large for a float is none. -/
def float? (cs : List Char) : Option Value := do
  let d ← Text.readDecimal? cs
  return .float (wholePart (← d.truncate?))

/-- A fraction that starts with its point, where underscores may separate digits. -/
def pointFloat? (cs : List Char) : Option Value :=
  if cs.contains '_' && !Text.underscoresAllowed cs then none
  else float? (cs.filter (· != '_'))

/-- Digits after the announcement of their base, with a sign of their own. -/
def intIn? (base : Nat) (cs : List Char) : Option Int := do
  let (negative, digits) := Text.splitSign cs
  if digits.isEmpty then none
  let n ← (Text.readDigits base 0 digits).toOption
  match Text.signed negative n with
  | .ok n => return n
  | .error _ => if digits = cs then return n else none

/-- An integer behind `0b` or `0o`, which may have a sign before the base or behind it. -/
def announcedInt? : List Char → Option Int
  | '0' :: 'b' :: rest => intIn? 2 rest
  | '0' :: 'o' :: rest => intIn? 8 rest
  | '-' :: '0' :: 'b' :: rest => intIn? 2 ('-' :: rest)
  | '-' :: '0' :: 'o' :: rest => intIn? 8 ('-' :: rest)
  | _ => none

/-- An integer of 64 bits, with a sign or without. -/
def int? (cs : List Char) : Option Int :=
  match Text.readInt (String.ofList cs) with
  | .ok n => some n
  | .error _ => (Text.readNat cs).toOption.map Int.ofNat

/-- A number, once underscores are left out. -/
def number? (cs : List Char) : Option Value :=
  let cs := cs.filter (· != '_')
  (int? cs).map Value.int <|> float? cs <|> (announcedInt? cs).map Value.int

/-- The number that two decimal digits write. -/
def twoDigits (a b : Char) : Nat := (a.toNat - '0'.toNat) * 10 + (b.toNat - '0'.toNat)

/-- One or two digits. -/
def shortNumber? : List Char → Option (Nat × List Char)
  | a :: b :: rest =>
      if !Text.isDecimalDigit a then none
      else if Text.isDecimalDigit b then some (twoDigits a b, rest)
      else some (twoDigits '0' a, b :: rest)
  | [a] => if Text.isDecimalDigit a then some (twoDigits '0' a, []) else none
  | [] => none

def daysIn (year month : Nat) : Nat :=
  if month = 2 then
    if year % 4 = 0 ∧ (year % 100 ≠ 0 ∨ year % 400 = 0) then 29 else 28
  else if [4, 6, 9, 11].contains month then 30
  else 31

/-- The zone behind a time: `Z`, or hours and minutes from it, where a full day and a full
    hour still count. -/
def isZone : List Char → Bool
  | ['Z'] => true
  | [sign, a, b, ':', c, d] =>
      (sign = '+' || sign = '-') && [a, b, c, d].all Text.isDecimalDigit &&
        twoDigits a b ≤ 24 && twoDigits c d ≤ 60
  | _ => false

/-- What stands behind the date: nothing, or a time of day, which has a zone unless blanks
    divide it from the date. -/
def isTimeOfDay (cs : List Char) : Bool :=
  match cs with
  | [] => true
  | divider :: rest =>
      (do
        let rest := if divider = ' ' then rest.dropWhile (· = ' ') else rest
        let (hour, rest) ← shortNumber? rest
        if hour ≥ 24 || rest.head? ≠ some ':' then none
        let (minute, rest) ← shortNumber? rest.tail
        if minute ≥ 60 || rest.head? ≠ some ':' then none
        let (second, rest) ← shortNumber? rest.tail
        if second ≥ 60 then none
        let rest := match rest with
          | point :: digit :: more =>
              if (point = '.' || point = ',') && Text.isDecimalDigit digit then
                more.dropWhile Text.isDecimalDigit
              else rest
          | _ => rest
        if divider = ' ' then return rest.isEmpty
        else return (divider = 'T' || divider = 't') && isZone rest).getD false

/-- Whether a text is a date, with a time of day or without. -/
def isTimestamp (cs : List Char) : Bool :=
  let year := cs.takeWhile Text.isDecimalDigit
  let number := year.foldl (fun n c => n * 10 + (c.toNat - '0'.toNat)) 0
  (do
    if year.length ≠ 4 || (cs.drop 4).head? ≠ some '-' then none
    let (month, rest) ← shortNumber? (cs.drop 5)
    if month = 0 || month > 12 || rest.head? ≠ some '-' then none
    let (day, rest) ← shortNumber? rest.tail
    if day = 0 || day > daysIn number month then none
    return isTimeOfDay rest).getD false

/-- The value of a plain scalar. Dates are seen only where `dates` says so. -/
def value (dates : Bool) (s : String) : Value :=
  match s.toList with
  | [] => .null
  | c :: rest =>
      let cs := c :: rest
      if c = '+' || c = '-' || Text.isDecimalDigit c then
        (word? s).getD <|
          if dates && isTimestamp cs then .timestamp else (number? cs).getD (.text s)
      else if c = '.' then (word? s).getD ((pointFloat? cs).getD (.text s))
      else if "yYnNtTfFoO~".toList.contains c then (word? s).getD (.text s)
      else .text s

end Plain

/-- The plain scalar that merges another mapping into its own. -/
def mergeKey : String := "<<"

/-- The tag of a scalar: its own, or the one its text asks for. -/
def scalarTag (tag : Option String) (style : Style) (text : String) : String :=
  match tag, style with
  | some tag, _ => tag
  | none, .plain => if text = mergeKey then "!!merge" else (Plain.value true text).tag
  | none, _ => "!!str"

namespace Node

/-- The tag of a node: its own, or that of its kind. -/
def tag : Node → String
  | .scalar _ tag style text => scalarTag tag style text
  | .sequence _ tag _ => tag.getD "!!seq"
  | .mapping _ tag _ => tag.getD "!!map"
  | .alias .. => ""
  | .enclosing _ tag isMapping => tag.getD (if isMapping then "!!map" else "!!seq")

/-- Whether a key stands for merging. -/
def isMergeKey : Node → Bool
  | .scalar _ tag style text => text == mergeKey && scalarTag tag style text == "!!merge"
  | _ => false

end Node

/-- The value of a scalar; nothing when it is not what its tag says. -/
def scalarValue? (tag : Option String) (style : Style) (text : String) : Option Value :=
  let wanted := scalarTag tag style text
  if wanted = "!!str" then some (.text text)
  else if wanted = "!!binary" then (Text.readBase64? text).map .text
  else if wanted = "!!merge" then if text = mergeKey then some (.text text) else none
  else
    let found := Plain.value (wanted = "!!timestamp") text
    if found.tag = wanted then some found
    else match wanted, found with
      | "!!float", .int n =>
          if n < Text.wordLimit then some (.float (Plain.wholePart (Plain.nearest n))) else none
      | _, _ => none

end TypeBounds.Yaml
