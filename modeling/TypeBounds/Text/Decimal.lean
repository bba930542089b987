import TypeBounds.Text.Integer

/-! # Decimal fractions

Reading: a decimal is rounded to the nearest binary fraction of 53 digits, ties to
even, and then cut to an integer. Writing: an integer with the fewest digits that
tell it, positional below a million in magnitude and with an exponent of at least
two digits from there.
-/

namespace TypeBounds.Text

/-- `p / q`, a half going to the even neighbour. -/
def divideToEven (p q : Nat) : Nat :=
  let floor := p / q
  let twice := 2 * (p % q)
  if twice > q ∨ (twice = q ∧ floor % 2 = 1) then floor + 1 else floor

/-- The integer part of `p / q` rounded to 53 binary digits. -/
def truncateNearest (p q : Nat) : Nat :=
  if p = 0 ∨ q = 0 then 0
  else
    let scale (shift : Int) : Nat × Nat :=
      if shift ≥ 0 then (p, q <<< shift.toNat) else (p <<< (-shift).toNat, q)
    let guess : Int := (p.log2 : Int) - q.log2 - 52
    let (a, b) := scale guess
    let shift := if a / b < 1 <<< 52 then guess - 1 else guess
    let (a, b) := scale shift
    let mantissa := divideToEven a b
    if shift ≥ 0 then mantissa <<< shift.toNat else mantissa >>> (-shift).toNat

/-- The parts of a decimal: the digits before and after the point as one number, and
    the power of ten it is scaled by. -/
structure Decimal where
  negative : Bool
  digits : Nat
  exponent : Int

/-- Read an optional sign, digits with an optional point, and an optional exponent. At
    least one digit stands before the exponent, and at least one in it. -/
def readDecimal? (cs : List Char) : Option Decimal := do
  let (negative, body) := splitSign cs
  let whole := body.takeWhile isDecimalDigit
  let afterWhole := body.dropWhile isDecimalDigit
  let (fraction, afterFraction) :=
    match afterWhole with
    | '.' :: rest => (rest.takeWhile isDecimalDigit, rest.dropWhile isDecimalDigit)
    | rest => ([], rest)
  if whole.isEmpty && fraction.isEmpty then none
  let number (digits : List Char) : Nat :=
    digits.foldl (fun n c => n * 10 + (c.toNat - '0'.toNat)) 0
  let exponent ← match afterFraction with
    | [] => some 0
    | mark :: rest =>
        if mark = 'e' ∨ mark = 'E' then
          let (down, digits) := splitSign rest
          if digits.isEmpty || !digits.all isDecimalDigit then none
          else some (if down then -(number digits : Int) else number digits)
        else none
  return ⟨negative, number (whole ++ fraction), exponent - fraction.length⟩

/-- The integer part of the nearest binary fraction; nothing when the value is too large
    to have one. -/
def Decimal.truncate? (d : Decimal) : Option Int :=
  if d.digits = 0 then some 0
  else
    let size := (Nat.toDigits 10 d.digits).length
    if d.exponent + size > 310 then none
    else if d.exponent + size < -10 then some 0
    else
      let magnitude :=
        if d.exponent ≥ 0 then truncateNearest (d.digits * Nat.pow 10 d.exponent.toNat) 1
        else truncateNearest d.digits (Nat.pow 10 (-d.exponent).toNat)
      if magnitude ≥ 1 <<< 1024 then none
      else some (if d.negative then -(magnitude : Int) else magnitude)

/-- Digits without the zeros at their end. -/
def dropTrailingZeros (digits : List Char) : List Char :=
  (digits.reverse.dropWhile (· == '0')).reverse

/-- A natural number with the fewest digits that tell it. -/
def shortestNat (n : Nat) : String :=
  if n < 1000000 then toString n
  else
    let digits := Nat.toDigits 10 n
    let exponent := digits.length - 1
    let fraction := dropTrailingZeros digits.tail
    let exponentText := if exponent < 10 then s!"0{exponent}" else toString exponent
    let head := String.ofList (digits.take 1)
    if fraction.isEmpty then s!"{head}e+{exponentText}"
    else s!"{head}.{String.ofList fraction}e+{exponentText}"

def shortestInt : Int → String
  | .ofNat n => shortestNat n
  | .negSucc n => "-" ++ shortestNat (n + 1)

end TypeBounds.Text
