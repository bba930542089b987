import TypeBounds.Yaml.Token
import TypeBounds.Text.Integer

/-! # The text of scalars

Plain and quoted scalars may go over several lines: a single end of line is read as
a blank, several as one less. Block scalars keep the ends of lines, or fold them
when the lines around are not indented further. Each reader answers with the text
and the cursor behind it, or with nothing when the scalar is malformed.
-/

namespace TypeBounds.Yaml

/-- Blanks and ends of lines between two words, as far as they are read. -/
structure Gap where
  /-- Blanks within a line, last first. -/
  blanks : List Char
  /-- A line's end was passed. -/
  broken : Bool
  /-- The first end of a line, unless it was escaped. -/
  first : Option Char
  /-- The ends of lines after the first, last first. -/
  later : List Char

namespace Gap

def empty : Gap := ⟨[], false, none, []⟩

/-- Blanks before the end of a line count, those after it do not. -/
def blank (g : Gap) (c : Char) : Gap :=
  if g.broken then g else { g with blanks := c :: g.blanks }

def lineEnd (g : Gap) (c : Char) : Gap :=
  if g.broken then { g with later := breakText c :: g.later }
  else ⟨[], true, some (breakText c), []⟩

/-- An end of line that was escaped, and so is not part of the text. -/
def escapedLineEnd : Gap := ⟨[], true, none, []⟩

/-- What the gap is in the text, last first. -/
def reversedText (g : Gap) : List Char :=
  if g.broken then
    match g.first with
    | some '\n' => if g.later.isEmpty then [' '] else g.later
    | some c => g.later ++ [c]
    | none => g.later
  else g.blanks

end Gap

/-- A scalar as it was read. -/
structure ReadScalar where
  text : List Char
  style : Style
  /-- The end of the scalar itself. -/
  stop : Mark
  /-- Where to read on. -/
  after : Cursor
  /-- The scalar's last line was left in reading on. -/
  brokeLine : Bool

/-- Where a scalar stands: the least column of its further lines, and whether it is
    inside brackets. -/
structure Surroundings where
  indent : Int
  inFlow : Bool

namespace Plain

/-- Whether a plain scalar ends before this text, in the middle of a word or before one. -/
def endsAt (s : Surroundings) : List Char → Bool
  | ':' :: rest => atGap rest
  | c :: _ => s.inFlow && (c = ',' || c = '?' || c = '[' || c = ']' || c = '{' || c = '}')
  | [] => true

/-- Whether a plain scalar ends before this text, which follows a gap. -/
def endsAfterGap (s : Surroundings) (mark : Mark) (cs : List Char) : Bool :=
  (!s.inFlow && mark.column < s.indent) || cs.head? = some '#' ||
    (mark.column == 0 && (startsDocument cs || endsDocument cs))

/-- The scalar with `text` read so far, last first, and `gap` after it; `inWord` unless the
    gap has just been passed. -/
def go (s : Surroundings) (text : List Char) (stop : Mark) (gap : Gap) (inWord : Bool)
    (mark : Mark) : List Char → Option ReadScalar
  | [] => some (finish text stop gap mark [])
  | '\r' :: '\n' :: rest =>
      go s text stop (gap.lineEnd '\n') false ⟨mark.index + 2, mark.line + 1, 0⟩ rest
  | c :: rest =>
      if isBreak c then
        go s text stop (gap.lineEnd c) false ⟨mark.index + 1, mark.line + 1, 0⟩ rest
      else if isBlank c then
        if gap.broken && mark.column < s.indent && c = '\t' then none
        else go s text stop (gap.blank c) false (step mark) rest
      else if (!inWord && endsAfterGap s mark (c :: rest)) || endsAt s (c :: rest) then
        some (finish text stop gap mark (c :: rest))
      else go s (c :: (gap.reversedText ++ text)) (step mark) .empty true (step mark) rest
where
  step (mark : Mark) : Mark := { mark with index := mark.index + 1, column := mark.column + 1 }
  finish (text : List Char) (stop : Mark) (gap : Gap) (mark : Mark) (rest : List Char) : ReadScalar :=
    ⟨text.reverse, .plain, stop, ⟨rest, mark⟩, gap.broken⟩

def read (s : Surroundings) (c : Cursor) : Option ReadScalar :=
  go s [] c.mark .empty true c.mark c.rest

end Plain

namespace Quoted

/-- The characters that stand for others after a backslash. -/
def simpleEscape? (c : Char) : Option Char :=
  match c with
  | '0' => some '\x00'
  | 'a' => some '\x07'
  | 'b' => some '\x08'
  | 't' => some '\t'
  | '\t' => some '\t'
  | 'n' => some '\n'
  | 'v' => some '\x0b'
  | 'f' => some '\x0c'
  | 'r' => some '\r'
  | 'e' => some '\x1b'
  | ' ' => some ' '
  | '"' => some '"'
  | '\'' => some '\''
  | '/' => some '/'
  | '\\' => some '\\'
  | 'N' => some '\u0085'
  | '_' => some '\u00a0'
  | 'L' => some '\u2028'
  | 'P' => some '\u2029'
  | _ => none

/-- The character of a hexadecimal code. -/
def codeChar? (digits : List Char) : Option Char := do
  if !digits.all Text.isHexDigit then none
  let n := digits.foldl (fun n d => n * 16 + (Text.digitValue? d).getD 0) 0
  if (0xd800 ≤ n && n ≤ 0xdfff) || n > 0x10ffff then none
  return Char.ofNat n

/-- The mark after `n` characters of a line. -/
def step (mark : Mark) (n : Nat) : Mark :=
  { mark with index := mark.index + n, column := mark.column + n }

/-- The mark after a line's end of `n` characters. -/
def nextLine (mark : Mark) (n : Nat) : Mark := ⟨mark.index + n, mark.line + 1, 0⟩

/-- A document may not end inside quotes. -/
def endsInside (mark : Mark) (cs : List Char) : Bool :=
  mark.column == 0 && (startsDocument cs || endsDocument cs)

/-- The scalar that ends with the quote at a mark. -/
def finish (style : Style) (text : List Char) (gap : Gap) (mark : Mark) (rest : List Char) :
    ReadScalar :=
  ⟨(gap.reversedText ++ text).reverse, style, step mark 1, ⟨rest, step mark 1⟩, false⟩

/-- The scalar after its opening single quote, with `text` read so far, last first, and `gap`
    after it. A quote inside is written twice. -/
def single (text : List Char) (gap : Gap) (mark : Mark) : List Char → Option ReadScalar
  | [] => none
  | '\r' :: '\n' :: rest => single text (gap.lineEnd '\n') (nextLine mark 2) rest
  | '\'' :: '\'' :: rest => single ('\'' :: (gap.reversedText ++ text)) .empty (step mark 2) rest
  | c :: rest =>
      if isBreak c then single text (gap.lineEnd c) (nextLine mark 1) rest
      else if isBlank c then single text (gap.blank c) (step mark 1) rest
      else if endsInside mark (c :: rest) then none
      else if c = '\'' then some (finish .singleQuoted text gap mark rest)
      else single (c :: (gap.reversedText ++ text)) .empty (step mark 1) rest

/-- The scalar after its opening double quote, with `text` read so far, last first, and `gap`
    after it. -/
def double (text : List Char) (gap : Gap) (mark : Mark) : List Char → Option ReadScalar
  | [] => none
  | '\r' :: '\n' :: rest => double text (gap.lineEnd '\n') (nextLine mark 2) rest
  | '\\' :: '\r' :: '\n' :: rest =>
      double (gap.reversedText ++ text) .escapedLineEnd (nextLine mark 3) rest
  | '\\' :: 'x' :: a :: b :: rest => do
      double ((← codeChar? [a, b]) :: (gap.reversedText ++ text)) .empty (step mark 4) rest
  | '\\' :: 'u' :: a :: b :: c :: d :: rest => do
      double ((← codeChar? [a, b, c, d]) :: (gap.reversedText ++ text)) .empty (step mark 6) rest
  | '\\' :: 'U' :: a :: b :: c :: d :: e :: f :: g :: h :: rest => do
      double ((← codeChar? [a, b, c, d, e, f, g, h]) :: (gap.reversedText ++ text)) .empty
        (step mark 10) rest
  | '\\' :: c :: rest =>
      if isBreak c then double (gap.reversedText ++ text) .escapedLineEnd (nextLine mark 2) rest
      else do
        double ((← simpleEscape? c) :: (gap.reversedText ++ text)) .empty (step mark 2) rest
  | c :: rest =>
      if isBreak c then double text (gap.lineEnd c) (nextLine mark 1) rest
      else if isBlank c then double text (gap.blank c) (step mark 1) rest
      else if endsInside mark (c :: rest) then none
      else if c = '"' then some (finish .doubleQuoted text gap mark rest)
      else double (c :: (gap.reversedText ++ text)) .empty (step mark 1) rest

/-- Read a scalar from its opening quote on. -/
def read (isSingle : Bool) (c : Cursor) : Option ReadScalar :=
  let inside := c.skip 1
  if isSingle then single [] .empty inside.mark inside.rest
  else double [] .empty inside.mark inside.rest

end Quoted

namespace Block

/-- What becomes of the ends of lines at the end of a block. -/
inductive Chomping where
  | strip
  | clip
  | keep
  deriving DecidableEq

def chomping? : Char → Option Chomping
  | '+' => some .keep
  | '-' => some .strip
  | _ => none

/-- An indentation of one to nine. -/
def increment? (c : Char) : Option Nat :=
  if '1' ≤ c ∧ c ≤ '9' then some (c.toNat - '0'.toNat) else none

/-- What may stand behind the sign that starts a block: a chomping sign and an
    indentation, in any order. -/
def header (cs : List Char) : Option (Chomping × Nat × Nat) :=
  match cs with
  | a :: rest =>
      match chomping? a with
      | some chomp =>
          match rest with
          | b :: _ =>
              if b = '0' then none
              else match increment? b with
                | some n => some (chomp, n, 2)
                | none => some (chomp, 0, 1)
          | [] => some (chomp, 0, 1)
      | none =>
          if a = '0' then none
          else match increment? a with
            | none => some (.clip, 0, 0)
            | some n =>
                match rest.head?.bind chomping? with
                | some chomp => some (chomp, n, 2)
                | none => some (.clip, n, 1)
  | [] => some (.clip, 0, 0)

/-- Indentation and empty lines before the next line with text. -/
structure Margin where
  after : Cursor
  /-- The ends of the empty lines, last first. -/
  breaks : List Char
  /-- The deepest indentation seen. -/
  deepest : Nat

/-- Step over indentation and empty lines; `indent` zero stands for one not known yet. A
    tab where indentation is wanted is malformed. -/
def margin (indent : Nat) : (fuel : Nat) → Margin → Option Margin
  | 0, m => some m
  | fuel + 1, m =>
      let wanted (column : Nat) : Bool := indent == 0 || column < indent
      let spaces := (m.after.rest.takeWhile (· = ' ')).length
      let eaten := if indent == 0 then spaces else min spaces (indent - m.after.mark.column)
      let c := m.after.skip eaten
      let deepest := max m.deepest c.mark.column
      match c.rest with
      | ch :: _ =>
          if wanted c.mark.column && ch = '\t' then none
          else if isBreak ch then
            margin indent fuel ⟨c.skipBreak, breakText ch :: m.breaks, deepest⟩
          else some ⟨c, m.breaks, deepest⟩
      | [] => some ⟨c, m.breaks, deepest⟩

/-- Lines of a block, as far as they are read. -/
structure Lines where
  /-- Last character first. -/
  text : List Char
  /-- The end of the last line. -/
  lastBreak : List Char
  /-- The ends of the empty lines behind it, last first. -/
  breaks : List Char
  /-- The last line starts with a blank. -/
  indented : Bool
  after : Cursor

/-- Read lines that start at the block's column. -/
def lines (folds : Bool) (indent : Nat) : (fuel : Nat) → Lines → Option Lines
  | 0, l => some l
  | fuel + 1, l =>
      match l.after.rest with
      | [] => some l
      | first :: _ =>
          if l.after.mark.column ≠ indent then some l
          else do
            let joint :=
              if folds && !l.indented && !isBlank first && l.lastBreak.head? = some '\n' then
                if l.breaks.isEmpty then [' '] else []
              else l.lastBreak
            let words := l.after.rest.takeWhile (!isBreak ·)
            let lineEnd := l.after.skip words.length
            let lastBreak := (lineEnd.rest.head?.map breakText).toList
            let m ← margin indent lineEnd.rest.length ⟨lineEnd.skipBreak, [], 0⟩
            lines folds indent fuel
              ⟨words.reverse ++ (l.breaks ++ (joint ++ l.text)), lastBreak, m.breaks, isBlank first,
                m.after⟩

/-- Read a block from its sign on; `parent` is the indentation around it. -/
def read (folds : Bool) (parent : Int) (c : Cursor) : Option ReadScalar := do
  let inside := c.skip 1
  let (chomp, increment, signs) ← header inside.rest
  let behind := (inside.skip signs).skipWhile isBlank
  let behind := match behind.rest with
    | '#' :: _ => behind.skipToLineEnd
    | _ => behind
  if !atLineEnd behind.rest then none
  let top := behind.skipBreak
  let given : Nat := if increment == 0 then 0 else (max parent 0).toNat + increment
  let m ← margin given (top.rest.length + 1) ⟨top, [], 0⟩
  let indent := if given == 0 then max (max m.deepest (parent + 1).toNat) 1 else given
  let l ← lines folds indent (top.rest.length + 1) ⟨[], [], m.breaks, false, m.after⟩
  let tail := match chomp with
    | .strip => []
    | .clip => l.lastBreak
    | .keep => l.breaks ++ l.lastBreak
  return ⟨(tail ++ l.text).reverse, if folds then .folded else .literal, l.after.mark, l.after,
    l.after.mark.line > c.mark.line⟩

end Block

end TypeBounds.Yaml
