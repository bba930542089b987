import TypeBounds.Yaml.Token
import TypeBounds.Text.Integer

/-! # Anchors, tags and directives

The small tokens around a node's content. A reader answers with what it read and
the cursor behind it, or with nothing when the text is malformed.
-/

namespace TypeBounds.Yaml

/-- What may stand right behind the name of an anchor. -/
def endsAnchor : List Char → Bool
  | [] => true
  | c :: _ => isSpace c || ['?', ':', ',', ']', '}', '%', '@', '\x60'].contains c

/-- The name behind `&` or `*`. -/
def readAnchorName (c : Cursor) : Option (String × Cursor) := do
  let inside := c.skip 1
  let name := inside.rest.takeWhile isWordChar
  let after := inside.skip name.length
  if name.isEmpty || !endsAnchor after.rest then none
  return (String.ofList name, after)

/-- Characters of a tag, besides escapes. -/
def isTagChar (c : Char) : Bool :=
  isWordChar c || [';', '/', '?', ':', '@', '&', '=', '+', '$', ',', '.', '!', '~', '*', '\'', '(', ')',
    '[', ']'].contains c

/-- A byte written as a percent sign and two hexadecimal digits. -/
def escapedByte? : List Char → Option (Nat × List Char)
  | '%' :: a :: b :: rest => do
      if !(Text.isHexDigit a && Text.isHexDigit b) then none
      return ((← Text.digitValue? a) * 16 + (← Text.digitValue? b), rest)
  | _ => none

/-- Further bytes of a character, six bits each. -/
def escapedTail : Nat → Nat → List Char → Option (Nat × List Char)
  | 0, code, cs => some (code, cs)
  | n + 1, code, cs => do
      let (byte, rest) ← escapedByte? cs
      if byte / 64 ≠ 2 then none
      escapedTail n (code * 64 + byte % 64) rest

/-- A character written as its bytes. -/
def escapedChar? (cs : List Char) : Option (Char × List Char) := do
  let (byte, rest) ← escapedByte? cs
  let (code, rest) ←
    if byte < 0x80 then some (byte, rest)
    else if byte / 32 = 6 then escapedTail 1 (byte % 32) rest
    else if byte / 16 = 14 then escapedTail 2 (byte % 16) rest
    else if byte / 8 = 30 then escapedTail 3 (byte % 8) rest
    else none
  return (Char.ofNat code, rest)

/-- The characters of a tag, last first, and what follows them; at most `fuel` of them. -/
def readTagChars : (fuel : Nat) → List Char → List Char → Option (List Char × List Char)
  | 0, read, cs => some (read, cs)
  | fuel + 1, read, cs =>
      match cs with
      | '%' :: rest => do
          let (c, rest) ← escapedChar? ('%' :: rest)
          readTagChars fuel (c :: read) rest
      | c :: rest => if isTagChar c then readTagChars fuel (c :: read) rest else some (read, c :: rest)
      | [] => some (read, [])

/-- The characters of a tag and the cursor behind them. -/
def readTagText (c : Cursor) : Option (List Char × Cursor) := do
  let (read, rest) ← readTagChars c.rest.length [] c.rest
  return (read.reverse, c.past (c.rest.length - rest.length) rest)

/-- A handle between exclamation marks, or a single one with the word behind it. -/
def readHandle (c : Cursor) : Option (List Char × Cursor) := do
  if c.rest.head? ≠ some '!' then none
  let word := (c.rest.drop 1).takeWhile isWordChar
  let after := c.skip (1 + word.length)
  match after.rest with
  | '!' :: _ => return ('!' :: (word ++ ['!']), after.skip 1)
  | _ => return ('!' :: word, after)

/-- Whether a handle stands between two exclamation marks. -/
def isFullHandle (handle : List Char) : Bool :=
  handle.length > 1 && handle.getLast? = some '!'

/-- A tag: a whole name in angle brackets, a handle with a suffix, or a suffix alone. -/
def readTag (c : Cursor) : Option (Kind × Cursor) := do
  let (kind, after) ← match c.rest with
    | '!' :: '<' :: _ => do
        let (name, after) ← readTagText (c.skip 2)
        if name.isEmpty || after.rest.head? ≠ some '>' then none
        pure (Kind.tag "" (String.ofList name), after.skip 1)
    | _ => do
        let (handle, after) ← readHandle c
        let (suffix, behind) ← readTagText after
        if isFullHandle handle then
          if suffix.isEmpty then none
          pure (Kind.tag (String.ofList handle) (String.ofList suffix), behind)
        else
          let suffix := handle.tail ++ suffix
          if suffix.isEmpty then pure (Kind.tag "" "!", behind)
          else pure (Kind.tag "!" (String.ofList suffix), behind)
  if !atGap after.rest then none
  return (kind, after)

/-- A version number of at most two digits. -/
def readVersionNumber (c : Cursor) : Option (Nat × Cursor) := do
  let digits := c.rest.takeWhile Text.isDecimalDigit
  if digits.isEmpty || digits.length > 2 then none
  return (digits.foldl (fun n d => n * 10 + (d.toNat - '0'.toNat)) 0, c.skip digits.length)

/-- What a directive says, from the blanks behind its name on. -/
def readDirectiveBody (name : String) (c : Cursor) : Option (Kind × Cursor) := do
  let c := c.skipWhile isBlank
  if name = "YAML" then
    let (major, c) ← readVersionNumber c
    if c.rest.head? ≠ some '.' then none
    let (minor, c) ← readVersionNumber (c.skip 1)
    return (.versionDirective major minor, c)
  else if name = "TAG" then
    let (handle, c) ← readHandle c
    if !isFullHandle handle && handle ≠ ['!'] then none
    if !(c.rest.head?.elim false isBlank) then none
    let (expansion, c) ← readTagText (c.skipWhile isBlank)
    if expansion.isEmpty || !atGap c.rest then none
    return (.tagDirective (String.ofList handle) (String.ofList expansion), c)
  else none

/-- A whole line that starts with a percent sign; the mark is the end of the directive
    itself. -/
def readDirective (c : Cursor) : Option (Kind × Mark × Cursor) := do
  let inside := c.skip 1
  let name := inside.rest.takeWhile isWordChar
  let after := inside.skip name.length
  if name.isEmpty || !atGap after.rest then none
  let (kind, stop) ← readDirectiveBody (String.ofList name) after
  let behind := stop.skipWhile isBlank
  let behind := if behind.rest.head? = some '#' then behind.skipToLineEnd else behind
  if !atLineEnd behind.rest then none
  return (kind, stop.mark, behind.skipBreak)

end TypeBounds.Yaml
