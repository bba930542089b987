import TypeBounds.Expr.Basic
import TypeBounds.Expr.Token

/-! # Reading type expressions

The grammar, with `"…"` for tokens and `Ident` for any identifier:

    Constraint = Ident (":>" | "<:") Type
    Type       = Callable | Tuple | Named
    Callable   = "def" "(" (Type ("," Type)*)? ")" "->" Type
    Tuple      = "(" (Type ("," Type)* ","?)? ")"
    Named      = Ident ("[" Type ("," Type)* "]")?

A reader tries what may or may not be there on a branch of its own, and goes back
when the branch fails within two tokens. The error that was found deepest is kept,
and is the one reported when the whole text cannot be read.
-/

namespace TypeBounds

/-- How far a reader has come. -/
structure Progress where
  /-- The tokens that are left. -/
  rest : List Token
  /-- The end of the text. -/
  stop : Position
  /-- How many tokens are behind. -/
  cursor : Nat
  /-- The error found deepest so far, and how deep. -/
  deepest : Option ReadError
  depth : Nat

namespace Progress

def start (tokens : List Token) (stop : Position) : Progress := ⟨tokens, stop, 0, none, 0⟩

/-- The place of the next token, or of the end. -/
def position (p : Progress) : Position :=
  match p.rest with
  | [] => p.stop
  | t :: _ => t.position

/-- The text of the next token, or of the end. -/
def nextText (p : Progress) : String :=
  match p.rest with
  | [] => "<EOF>"
  | t :: _ => t.lexeme.text

/-- The error of meeting the next token. -/
def unexpected (p : Progress) : ReadError :=
  ⟨p.position, s!"unexpected token {Text.quote p.nextText}"⟩

/-- The error of meeting the next token where something else is needed. -/
def unexpectedFor (p : Progress) (needed : String) : ReadError :=
  ⟨p.position, s!"unexpected token {Text.quote p.nextText} (expected {needed})"⟩

/-- Keep an error that is as deep as the deepest so far. -/
def note (p : Progress) (e : ReadError) : Progress :=
  if p.cursor ≥ p.depth then { p with deepest := some e, depth := p.cursor } else p

/-- Go on from where a branch came to. -/
def accept (p branch : Progress) : Progress :=
  let p := { p with rest := branch.rest, cursor := branch.cursor }
  if branch.depth ≥ p.depth then { p with deepest := branch.deepest, depth := branch.depth } else p

/-- Learn from a branch that failed with an error. -/
def learn (p branch : Progress) (e : ReadError) : Progress :=
  if branch.depth > p.depth then { p with deepest := branch.deepest, depth := branch.depth }
  else if branch.cursor ≥ p.depth then
    { p with deepest := some e, depth := max branch.cursor branch.depth }
  else p

/-- Whether a failed branch went too far to go back. -/
def isBeyond (p branch : Progress) : Bool := branch.cursor > p.cursor + 2

end Progress

/-- What a reader finds. -/
inductive Reading (α : Type) where
  | found (a : α)
  | nothing
  | failed (e : ReadError)

/-- Reads a part of a text. -/
abbrev Reader (α : Type) := Progress → Reading α × Progress

namespace Reader

variable {α β : Type}

def pure (a : α) : Reader α := fun p => (.found a, p)

/-- Read one part after another. -/
def bind (first : Reader α) (next : α → Reader β) : Reader β := fun p =>
  match first p with
  | (.found a, p) => next a p
  | (.nothing, p) => (.nothing, p)
  | (.failed e, p) => (.failed e, p)

instance : Monad Reader where
  pure := pure
  bind := bind

/-- A token that is accepted. -/
def token (accepts : Lexeme → Option α) : Reader α := fun p =>
  match p.rest with
  | [] => (.nothing, p)
  | t :: rest =>
      match accepts t.lexeme with
      | some a => (.found a, { p with rest, cursor := p.cursor + 1 })
      | none => (.nothing, p)

/-- One certain token. -/
def exactly (l : Lexeme) : Reader Unit :=
  token fun m => if m = l then some () else none

def ident : Reader String :=
  token fun
    | .ident name => some name
    | _ => none

/-- Something that has to follow; `needed` names it and what comes after it. -/
def expect (needed : String) (r : Reader α) : Reader α := fun p =>
  match r p with
  | (.nothing, p) => (.failed (p.unexpectedFor needed), p)
  | reading => reading

/-- Something that may be left out. -/
def optional (r : Reader α) : Reader (Option α) := fun p =>
  match r p with
  | (.found a, branch) => (.found (some a), p.accept branch)
  | (.nothing, branch) => (.found none, p.accept branch)
  | (.failed e, branch) =>
      let p' := (p.note e).learn branch e
      if p.isBeyond branch then (.failed e, p'.accept branch) else (.found none, p')

/-- Any number of repetitions, at most `fuel`. -/
def many (r : Reader α) : (fuel : Nat) → Reader (List α)
  | 0 => pure []
  | fuel + 1 => bind (optional r) fun
      | none => pure []
      | some a => bind (many r fuel) fun as => pure (a :: as)

/-- The first alternative that is found. When none is, the error of the one that came
    farthest, if any failed; `best` is the farthest so far and where it came to. -/
def firstOf : List (Reader α) → (best : Option ReadError) → (farthest : Nat) → Reader α
  | [], none, _ => fun p => (.nothing, p)
  | [], some e, _ => fun p => (.failed e, p.note e)
  | r :: others, best, farthest => fun p =>
      match r p with
      | (.found a, branch) => (.found a, p.accept branch)
      | (.nothing, _) => firstOf others best farthest p
      | (.failed e, branch) =>
          let p' := p.learn branch e
          if p.isBeyond branch then (.failed e, p'.accept branch)
          else if branch.cursor ≥ farthest then firstOf others (some e) branch.cursor p'
          else firstOf others best farthest p'

/-- A rule of the grammar: its error is one of the whole. -/
def rule (r : Reader α) : Reader α := fun p =>
  match r p with
  | (.failed e, p) => (.failed e, p.note e)
  | reading => reading

/-- The place of what is read next. -/
def here : Reader Position := fun p => (.found p.position, p)

end Reader

namespace TypeExpr

open Reader

/-- `"," Type`, again and again. -/
def readMore (type : Reader TypeExpr) (fuel : Nat) : Reader (List TypeExpr) :=
  many (do exactly .comma; expect "TypeExpr" type) fuel

/-- `"def" "(" (Type ("," Type)*)? ")" "->" Type` -/
def readCallable (type : Reader TypeExpr) (fuel : Nat) : Reader TypeExpr :=
  rule do
    let position ← here
    exactly (.ident "def")
    expect "\"(\" (TypeExpr (\",\" TypeExpr)*)? \")\" \"->\" TypeExpr" (exactly .leftParen)
    let params ← optional do
      let first ← type
      let others ← readMore type fuel
      return first :: others
    expect "\")\" \"->\" TypeExpr" (exactly .rightParen)
    expect "\"->\" TypeExpr" (exactly .arrow)
    let result ← expect "TypeExpr" type
    return .callable position (params.getD []) result

/-- `"(" (Type ("," Type)* ","?)? ")"` -/
def readTuple (type : Reader TypeExpr) (fuel : Nat) : Reader TypeExpr :=
  rule do
    let position ← here
    exactly .leftParen
    let items ← optional do
      let first ← type
      let others ← readMore type fuel
      let _ ← optional (exactly .comma)
      return first :: others
    expect "\")\"" (exactly .rightParen)
    return .tuple position (items.getD [])

/-- `Ident ("[" Type ("," Type)* "]")?` -/
def readNamed (type : Reader TypeExpr) (fuel : Nat) : Reader TypeExpr :=
  rule do
    let position ← here
    let name ← ident
    let args ← optional do
      exactly .leftBracket
      let first ← expect "TypeExpr (\",\" TypeExpr)* \"]\"" type
      let others ← readMore type fuel
      expect "\"]\"" (exactly .rightBracket)
      return first :: others
    return .named position name (args.getD [])

/-- `Callable | Tuple | Named`, with types nested at most `fuel` deep. -/
def readNested : (fuel : Nat) → Reader TypeExpr
  | 0 => fun p => (.nothing, p)
  | fuel + 1 =>
      let type := readNested fuel
      rule (firstOf [readCallable type fuel, readTuple type fuel, readNamed type fuel] none 0)

end TypeExpr

/-- `Ident (":>" | "<:") Type` -/
def ConstraintExpr.readWith (type : Reader TypeExpr) : Reader ConstraintExpr :=
  Reader.rule do
    let position ← Reader.here
    let var ← Reader.ident
    let direction ← Reader.expect "(\":>\" | \"<:\") TypeExpr" (Reader.token fun
      | .supertype => some .lower
      | .subtype => some .upper
      | _ => none)
    let target ← Reader.expect "TypeExpr" type
    return { position, var, direction, target }

/-- Read a whole text. What is nested needs a token of its own for each level, so the
    number of tokens bounds the depth. -/
def readWhole {α : Type} (grammar : (fuel : Nat) → Reader α) (s : String) : Except ReadError α := do
  let (tokens, stop) ← Token.scan s
  match grammar (tokens.length + 1) (Progress.start tokens stop) with
  | (.failed e, _) => throw e
  | (.found a, p) => if p.rest.isEmpty then return a else throw (leftOver p)
  | (.nothing, p) => throw (leftOver p)
where
  /-- The error of text that goes on after what was read: the deepest error, unless the
      reader came at least as far. -/
  leftOver (p : Progress) : ReadError :=
    if p.cursor ≥ p.depth then p.unexpected else p.deepest.getD p.unexpected

/-- The type expression a text is. -/
def TypeExpr.read (s : String) : Except ReadError TypeExpr :=
  readWhole TypeExpr.readNested s

/-- The constraint expression a text is. -/
def ConstraintExpr.read (s : String) : Except ReadError ConstraintExpr :=
  readWhole (fun fuel => ConstraintExpr.readWith (TypeExpr.readNested fuel)) s

end TypeBounds
