import TypeBounds.Yaml.Text
import TypeBounds.Yaml.Name

/-! # From characters to tokens

Indentation opens and closes blocks, and a `:` may turn what stands before it on its
line into a key. So the scan keeps the open indentations, and for each level of
brackets the place where a key may have started: the tokens of a key are inserted
there once its `:` is found.
-/

namespace TypeBounds.Yaml

/-- A place where a key may have started. -/
structure PendingKey where
  /-- Nothing but a key may stand there. -/
  required : Bool
  /-- The number of tokens before it. -/
  position : Nat
  mark : Mark

structure Scan where
  cursor : Cursor
  /-- The column of the innermost block, or minus one. -/
  indent : Int
  /-- The columns of the blocks around it, innermost first. -/
  outer : List Int
  /-- How many brackets are open. -/
  flow : Nat
  /-- A key may start here. -/
  keyAllowed : Bool
  /-- For each open bracket and the text outside of all, innermost first. -/
  keys : List (Option PendingKey)
  tokens : Array Token
  ended : Bool

namespace Scan

def start (text : List Char) : Scan :=
  ⟨.start text, -1, [], 0, true, [none], #[], false⟩

def surroundings (s : Scan) : Surroundings := ⟨s.indent + 1, s.flow > 0⟩

/-- Add a token at the end. -/
def push (s : Scan) (kind : Kind) (start stop : Mark) : Scan :=
  { s with tokens := s.tokens.push ⟨kind, start, stop⟩ }

/-- Put a token before those from a position on. -/
def insert (s : Scan) (position : Nat) (kind : Kind) (mark : Mark) : Scan :=
  { s with tokens := (s.tokens.extract 0 position).push ⟨kind, mark, mark⟩ ++
      s.tokens.extract position s.tokens.size }

/-- Take in a token of `n` characters at the cursor. -/
def take (s : Scan) (kind : Kind) (n : Nat) : Scan :=
  let after := s.cursor.skip n
  { s.push kind s.cursor.mark after.mark with cursor := after }

/-- Close the blocks further right than a column. -/
def closeBlocks (column : Int) (mark : Mark) :
    Int → List Int → Array Token → Int × List Int × Array Token
  | indent, [], tokens => (indent, [], tokens)
  | indent, next :: rest, tokens =>
      if indent > column then closeBlocks column mark next rest (tokens.push ⟨.blockEnd, mark, mark⟩)
      else (indent, next :: rest, tokens)

/-- Close the blocks further right than a column. Inside brackets there are none. -/
def unroll (s : Scan) (column : Int) (mark : Mark) : Scan :=
  if s.flow > 0 then s
  else
    let (indent, outer, tokens) := closeBlocks column mark s.indent s.outer s.tokens
    { s with indent, outer, tokens }

/-- Open a block at a column, unless one is open there already. -/
def roll (s : Scan) (mark : Mark) (position : Nat) (kind : Kind) : Scan :=
  if s.flow > 0 || s.indent ≥ mark.column then s
  else { s.insert position kind mark with indent := mark.column, outer := s.indent :: s.outer }

/-- Give up the key that may have started on this level; a required one must not be. -/
def dropKey (s : Scan) : Option Scan :=
  match s.keys with
  | some key :: rest => if key.required then none else some { s with keys := none :: rest }
  | _ => some s

/-- Note that a key may start at the cursor. -/
def saveKey (s : Scan) : Option Scan :=
  if s.keyAllowed then do
    let s ← s.dropKey
    let key : PendingKey :=
      ⟨s.flow == 0 && s.indent == s.cursor.mark.column, s.tokens.size, s.cursor.mark⟩
    return { s with keys := some key :: s.keys.tail }
  else some s

/-- The key that a `:` at the cursor would belong to: it has to be on the same line and
    near. -/
def keyHere (s : Scan) : Option (Option PendingKey) :=
  match s.keys with
  | some key :: _ =>
      if key.mark.line < s.cursor.mark.line || key.mark.index + 1024 < s.cursor.mark.index then
        if key.required then none else some none
      else some (some key)
  | _ => some none

/-- Skip a comment behind a token on the same line. -/
def skipTrailingComment (s : Scan) : Scan :=
  match s.cursor.rest.dropWhile isBlank with
  | '#' :: _ => { s with cursor := s.cursor.skipToLineEnd }
  | _ => s

/-- Step over blanks, line ends and comments. A tab is a blank only where no key may
    start. -/
def skipGaps : (fuel : Nat) → Scan → Scan
  | 0, s => s
  | fuel + 1, s =>
      let tabs := s.flow > 0 || !s.keyAllowed
      let c := if s.cursor.mark.column == 0 && s.cursor.rest.head? = some '\ufeff' then s.cursor.skip 1
        else s.cursor
      let c := c.skipWhile fun ch => ch = ' ' || (tabs && ch = '\t')
      let c := match c.rest with
        | '#' :: _ => Cursor.skipComments c.rest.length c
        | _ => c
      match c.rest with
      | ch :: _ =>
          if isBreak ch then
            skipGaps fuel { s with cursor := c.skipBreak, keyAllowed := s.flow == 0 || s.keyAllowed }
          else { s with cursor := c }
      | [] => { s with cursor := c }

/-- Take in a scalar that was read at the cursor. -/
def takeScalar (s : Scan) (r : ReadScalar) : Scan :=
  let s := { s.push (.scalar (String.ofList r.text) r.style) s.cursor.mark r.stop with cursor := r.after }
  if r.brokeLine then s else s.skipTrailingComment

def openBracket (s : Scan) (kind : Kind) : Option Scan := do
  let s ← s.saveKey
  let s := { s with flow := s.flow + 1, keys := none :: s.keys, keyAllowed := true }
  return (s.take kind 1).skipTrailingComment

def closeBracket (s : Scan) (kind : Kind) : Option Scan := do
  let s ← s.dropKey
  let s := if s.flow == 0 then s else { s with flow := s.flow - 1, keys := s.keys.tail }
  return ({ s with keyAllowed := false }.take kind 1).skipTrailingComment

def flowEntry (s : Scan) : Option Scan := do
  let s ← s.dropKey
  return ({ s with keyAllowed := true }.take .flowEntry 1).skipTrailingComment

/-- A `-` before an item. -/
def blockEntry (s : Scan) : Option Scan := do
  if s.flow == 0 && !s.keyAllowed then none
  let s := s.roll s.cursor.mark s.tokens.size .blockSequenceStart
  let s ← s.dropKey
  return { s with keyAllowed := true }.take .blockEntry 1

/-- A `?` before a key. -/
def explicitKey (s : Scan) : Option Scan := do
  if s.flow == 0 && !s.keyAllowed then none
  let s := s.roll s.cursor.mark s.tokens.size .blockMappingStart
  let s ← s.dropKey
  return ({ s with keyAllowed := s.flow == 0 }.take .key 1).skipTrailingComment

/-- A `:` behind a key. -/
def value (s : Scan) : Option Scan := do
  let s ← match ← s.keyHere with
    | some key =>
        let s := (s.insert key.position .key key.mark).roll key.mark key.position .blockMappingStart
        some { s with keys := none :: s.keys.tail, keyAllowed := false }
    | none =>
        if s.flow == 0 && !s.keyAllowed then none
        else
          let s := s.roll s.cursor.mark s.tokens.size .blockMappingStart
          some { s with keyAllowed := s.flow == 0 }
  return (s.take .value 1).skipTrailingComment

/-- An anchor, an alias or a tag, which may start a key. -/
def takeName (s : Scan) (read : Cursor → Option (Kind × Cursor)) : Option Scan := do
  let s ← s.saveKey
  let (kind, after) ← read s.cursor
  let s := { s.push kind s.cursor.mark after.mark with cursor := after, keyAllowed := false }
  return s.skipTrailingComment

def quotedScalar (s : Scan) (single : Bool) : Option Scan := do
  let s ← s.saveKey
  let r ← Quoted.read single s.cursor
  return { s with keyAllowed := false }.takeScalar r

def plainScalar (s : Scan) : Option Scan := do
  let s ← s.saveKey
  let r ← Plain.read s.surroundings s.cursor
  return { s with keyAllowed := r.brokeLine }.takeScalar r

def blockScalar (s : Scan) (folds : Bool) : Option Scan := do
  let s ← s.dropKey
  let r ← Block.read folds s.indent s.cursor
  return { s with keyAllowed := true }.takeScalar r

/-- Leave all blocks, at the end of the text or of a document. -/
def leaveBlocks (s : Scan) (mark : Mark) : Option Scan := do
  let s ← (s.unroll (-1) mark).dropKey
  return { s with keyAllowed := false }

def streamEnd (s : Scan) : Option Scan := do
  let here := s.cursor.mark
  let mark : Mark := if here.column == 0 then here else ⟨here.index, here.line + 1, 0⟩
  let s ← s.leaveBlocks mark
  return { s.push .streamEnd mark mark with ended := true }

def directive (s : Scan) : Option Scan := do
  let s ← s.leaveBlocks s.cursor.mark
  let (kind, stop, after) ← readDirective s.cursor
  return { s.push kind s.cursor.mark stop with cursor := after }

def documentMark (s : Scan) (kind : Kind) : Option Scan := do
  let s ← s.leaveBlocks s.cursor.mark
  return s.take kind 3

/-- Whether a plain scalar may start with this text. -/
def startsPlain (inFlow : Bool) : List Char → Bool
  | [] => false
  | c :: rest =>
      if c = '-' then !(rest.head?.elim false isBlank)
      else if c = '?' || c = ':' then !inFlow && !atGap rest
      else !isSpace c && !([',', '[', ']', '{', '}', '#', '&', '*', '!', '|', '>', '\'', '"', '%', '@',
        '\x60'].contains c)

/-- Take in the next token. -/
def next (s : Scan) : Option Scan :=
  let before := s.cursor.mark
  let s := s.skipGaps (s.cursor.rest.length + 1)
  let here := s.cursor.mark
  let s := s.unroll here.column before
  let inFlow := s.flow > 0
  match s.cursor.rest with
  | [] => s.streamEnd
  | c :: rest =>
      if here.column == 0 && c = '%' then s.directive
      else if here.column == 0 && startsDocument (c :: rest) then s.documentMark .documentStart
      else if here.column == 0 && endsDocument (c :: rest) then s.documentMark .documentEnd
      else if c = '[' then s.openBracket .flowSequenceStart
      else if c = '{' then s.openBracket .flowMappingStart
      else if c = ']' then s.closeBracket .flowSequenceEnd
      else if c = '}' then s.closeBracket .flowMappingEnd
      else if c = ',' then s.flowEntry
      else if c = '-' && atGap rest then s.blockEntry
      else if c = '?' && (inFlow || atGap rest) then s.explicitKey
      else if c = ':' && (inFlow || atGap rest) then s.value
      else if c = '*' then s.takeName fun c => (readAnchorName c).map fun (n, c) => (.alias n, c)
      else if c = '&' then s.takeName fun c => (readAnchorName c).map fun (n, c) => (.anchor n, c)
      else if c = '!' then s.takeName readTag
      else if c = '|' && !inFlow then s.blockScalar false
      else if c = '>' && !inFlow then s.blockScalar true
      else if c = '\'' then s.quotedScalar true
      else if c = '"' then s.quotedScalar false
      else if startsPlain inFlow (c :: rest) then s.plainScalar
      else none

/-- Take in tokens up to the end or to the first that is malformed. -/
def run : (fuel : Nat) → Scan → Scan
  | 0, s => s
  | fuel + 1, s =>
      match s.next with
      | none => s
      | some s => if s.ended then s else run fuel s

end Scan

/-- How many tokens before a malformed token are of no use: a token can be relied on only
    once two more were found behind it. -/
def lookahead : Nat := 2

/-- The tokens of a text; if a token is malformed, those that can be relied on. -/
def tokens (text : List Char) : List Token :=
  let s := Scan.run (text.length + 1) (.start text)
  if s.ended then s.tokens.toList else (s.tokens.extract 0 (s.tokens.size - lookahead)).toList

end TypeBounds.Yaml
