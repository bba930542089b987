/-! # Bytes written in base 64

Four letters stand for three bytes. The last group may be short of one or two bytes
and is then filled up with equals signs. Ends of lines between letters do not count.
-/

namespace TypeBounds.Text

/-- The six bits of a letter. -/
def sextet? (c : Char) : Option Nat :=
  if 'A' ≤ c ∧ c ≤ 'Z' then some (c.toNat - 'A'.toNat)
  else if 'a' ≤ c ∧ c ≤ 'z' then some (c.toNat - 'a'.toNat + 26)
  else if '0' ≤ c ∧ c ≤ '9' then some (c.toNat - '0'.toNat + 52)
  else if c = '+' then some 62
  else if c = '/' then some 63
  else none

/-- The bytes of groups of four letters. -/
def readGroups : List Char → Option (List UInt8)
  | [] => some []
  | [a, b, '=', '='] => do
      let n := (← sextet? a) * 64 + (← sextet? b)
      return [(n / 16).toUInt8]
  | [a, b, c, '='] => do
      let n := ((← sextet? a) * 64 + (← sextet? b)) * 64 + (← sextet? c)
      return [(n / 1024).toUInt8, (n / 4).toUInt8]
  | a :: b :: c :: d :: rest => do
      let n := (((← sextet? a) * 64 + (← sextet? b)) * 64 + (← sextet? c)) * 64 + (← sextet? d)
      return (n / 65536).toUInt8 :: (n / 256).toUInt8 :: n.toUInt8 :: (← readGroups rest)
  | _ => none

/-- The text whose bytes are written in base 64. -/
def readBase64? (s : String) : Option String := do
  let bytes ← readGroups (s.toList.filter fun c => c ≠ '\n' ∧ c ≠ '\r')
  String.fromUTF8? ⟨bytes.toArray⟩

end TypeBounds.Text
