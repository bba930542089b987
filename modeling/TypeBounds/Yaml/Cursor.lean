/-! # Characters and places of a YAML text

A cursor is a place in a text together with what is left of the text. Lines end at
a line feed, a carriage return, both together, or one of the line separators of
Unicode.
-/

namespace TypeBounds.Yaml

/-- Where something stands: how many characters, lines and columns are before it. -/
structure Mark where
  index : Nat
  line : Nat
  column : Nat
  deriving Repr, DecidableEq, Inhabited

def isBreak (c : Char) : Bool :=
  c = '\n' || c = '\r' || c = '\u0085' || c = '\u2028' || c = '\u2029'

def isBlank (c : Char) : Bool := c = ' ' || c = '\t'

def isSpace (c : Char) : Bool := isBlank c || isBreak c

/-- Whether a text is over or goes on with a line's end. -/
def atLineEnd : List Char → Bool
  | [] => true
  | c :: _ => isBreak c

/-- Whether a text is over or goes on with a blank or a line's end. -/
def atGap : List Char → Bool
  | [] => true
  | c :: _ => isSpace c

/-- The letters of anchors, tag handles and directives. -/
def isWordChar (c : Char) : Bool :=
  ('0' ≤ c && c ≤ '9') || ('A' ≤ c && c ≤ 'Z') || ('a' ≤ c && c ≤ 'z') || c = '_' || c = '-'

/-- Characters that may stand in a text at all. -/
def isAllowed (c : Char) : Bool :=
  let n := c.toNat
  n = 0x9 || n = 0xa || n = 0xd || (0x20 ≤ n && n ≤ 0x7e) || n = 0x85 ||
    (0xa0 ≤ n && n ≤ 0xfffd) || 0x10000 ≤ n

/-- Whether a text starts with `---`, standing alone. -/
def startsDocument : List Char → Bool
  | '-' :: '-' :: '-' :: rest => atGap rest
  | _ => false

/-- Whether a text starts with `...`, standing alone. -/
def endsDocument : List Char → Bool
  | '.' :: '.' :: '.' :: rest => atGap rest
  | _ => false

/-- What the end of a line is read as: the separators of Unicode stay, all others are
    one line feed. -/
def breakText (c : Char) : Char :=
  if c = '\u2028' || c = '\u2029' then c else '\n'

structure Cursor where
  rest : List Char
  mark : Mark
  deriving Inhabited

namespace Cursor

def start (s : List Char) : Cursor := ⟨s, ⟨0, 0, 0⟩⟩

/-- The cursor after `n` characters of a line, `rest` being what is left. -/
def past (c : Cursor) (n : Nat) (rest : List Char) : Cursor :=
  ⟨rest, { c.mark with index := c.mark.index + n, column := c.mark.column + n }⟩

/-- The cursor after `n` characters of a line. -/
def skip (c : Cursor) (n : Nat) : Cursor := c.past n (c.rest.drop n)

/-- The cursor at the start of the next line, after an end of `n` characters. -/
def newLine (c : Cursor) (n : Nat) (rest : List Char) : Cursor :=
  ⟨rest, ⟨c.mark.index + n, c.mark.line + 1, 0⟩⟩

/-- Step over the end of a line, if the cursor is at one. -/
def skipBreak (c : Cursor) : Cursor :=
  match c.rest with
  | '\r' :: '\n' :: rest => c.newLine 2 rest
  | b :: rest => if isBreak b then c.newLine 1 rest else c
  | [] => c

/-- Step over characters of a line. -/
def skipWhile (p : Char → Bool) (c : Cursor) : Cursor :=
  c.past (c.rest.takeWhile p).length (c.rest.dropWhile p)

/-- Step to the end of the line. -/
def skipToLineEnd (c : Cursor) : Cursor := c.skipWhile (!isBreak ·)

/-- Step over blanks and ends of lines, at most `fuel` of them. -/
def skipSpace : Nat → Cursor → Cursor
  | 0, c => c
  | fuel + 1, c =>
      match c.rest with
      | ch :: _ =>
          if isBlank ch then skipSpace fuel (c.skip 1)
          else if isBreak ch then skipSpace fuel c.skipBreak
          else c
      | [] => c

/-- Step over a comment and all comments on the lines right after it. -/
def skipComments : Nat → Cursor → Cursor
  | 0, c => c
  | fuel + 1, c =>
      let stop := c.skipToLineEnd
      let next := skipSpace stop.rest.length stop
      match next.rest with
      | '#' :: _ => skipComments fuel next
      | _ => stop

end Cursor

end TypeBounds.Yaml
