import TypeBounds.Text.Printable

/-! # Quoted text

Text between delimiters, with the delimiter, the backslash and everything that is
not printable escaped: the usual one-letter escapes, then two hexadecimal digits
for a control character, four or eight for others.
-/

namespace TypeBounds.Text

/-- The last `width` hexadecimal digits of a number, lower case. -/
def hexDigits : (width n : Nat) → List Char
  | 0, _ => []
  | width + 1, n => hexDigits width (n / 16) ++ [Nat.digitChar (n % 16)]

/-- What a character is written as between two delimiters. -/
def escape (delimiter c : Char) : List Char :=
  if c = delimiter ∨ c = '\\' then ['\\', c]
  else if isPrintable c then [c]
  else match c.toNat with
    | 7 => ['\\', 'a']
    | 8 => ['\\', 'b']
    | 9 => ['\\', 't']
    | 10 => ['\\', 'n']
    | 11 => ['\\', 'v']
    | 12 => ['\\', 'f']
    | 13 => ['\\', 'r']
    | n =>
      if n < 128 then '\\' :: 'x' :: hexDigits 2 n
      else if n < 0x10000 then '\\' :: 'u' :: hexDigits 4 n
      else '\\' :: 'U' :: hexDigits 8 n

def quoteWith (delimiter : Char) (s : List Char) : List Char :=
  delimiter :: (s.flatMap (escape delimiter) ++ [delimiter])

/-- Text in double quotes. -/
def quote (s : String) : String :=
  String.ofList (quoteWith '"' s.toList)

/-- A character in single quotes. -/
def quoteChar (c : Char) : String :=
  String.ofList (quoteWith '\'' [c])

end TypeBounds.Text
