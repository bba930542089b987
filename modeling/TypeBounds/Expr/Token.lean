import TypeBounds.Position
import TypeBounds.Text.Quoted

/-! # Tokens of type expressions

A text splits into identifiers, operators, brackets and commas; blanks between
them are dropped. Splitting looks at the whole text before anything is read, so a
character that starts no token is reported whatever stands before it.
-/

namespace TypeBounds

inductive Lexeme where
  | ident (name : String)
  /-- The operator `:>`. -/
  | supertype
  /-- The operator `<:`. -/
  | subtype
  /-- The operator `->`. -/
  | arrow
  | leftParen
  | rightParen
  | comma
  | leftBracket
  | rightBracket
  deriving Repr, DecidableEq

def Lexeme.text : Lexeme → String
  | .ident name => name
  | .supertype => ":>"
  | .subtype => "<:"
  | .arrow => "->"
  | .leftParen => "("
  | .rightParen => ")"
  | .comma => ","
  | .leftBracket => "["
  | .rightBracket => "]"

structure Token where
  lexeme : Lexeme
  position : Position
  deriving Repr, DecidableEq

/-- Why a text is no expression, and where. -/
structure ReadError where
  position : Position
  message : String
  deriving Repr, DecidableEq

namespace Token

def isIdentStart (c : Char) : Bool :=
  ('a' ≤ c && c ≤ 'z') || ('A' ≤ c && c ≤ 'Z') || c = '_'

def isIdentRest (c : Char) : Bool :=
  isIdentStart c || ('0' ≤ c && c ≤ '9') || c = '.'

def isBlank (c : Char) : Bool :=
  c = ' ' || c = '\t' || c = '\n' || c = '\r' || c = '\x0c'

/-- The operator or sign a text starts with, and the rest. -/
def sign? : List Char → Option (Lexeme × List Char)
  | ':' :: '>' :: rest => some (.supertype, rest)
  | '<' :: ':' :: rest => some (.subtype, rest)
  | '-' :: '>' :: rest => some (.arrow, rest)
  | '(' :: rest => some (.leftParen, rest)
  | ')' :: rest => some (.rightParen, rest)
  | ',' :: rest => some (.comma, rest)
  | '[' :: rest => some (.leftBracket, rest)
  | ']' :: rest => some (.rightBracket, rest)
  | _ => none

/-- The error of a text that starts with no token shows at most sixteen characters. -/
def invalidInput (position : Position) (cs : List Char) : ReadError :=
  let sample := if cs.length > 16 then cs.take 16 ++ ['.', '.', '.'] else cs
  ⟨position, s!"invalid input text {Text.quote (String.ofList sample)}"⟩

theorem length_lt_of_sign? {cs rest : List Char} {l : Lexeme} (found : sign? cs = some (l, rest)) :
    rest.length < cs.length := by
  unfold sign? at found
  split at found <;> cases found <;> simp +arith

/-- Split a text that starts at a position; the answer has the place of the text's end. -/
def scanFrom (position : Position) (cs : List Char) : Except ReadError (List Token × Position) :=
  match cs with
  | [] => .ok ([], position)
  | c :: rest =>
      if isIdentStart c then
        let name := c :: rest.takeWhile isIdentRest
        (scanFrom (position.advanceAll name) (rest.dropWhile isIdentRest)).map
          fun (tokens, stop) => (⟨.ident (String.ofList name), position⟩ :: tokens, stop)
      else if isBlank c then scanFrom (position.advance c) rest
      else match _found : sign? (c :: rest) with
        | some (l, rest') =>
            (scanFrom (position.advanceAll l.text.toList) rest').map
              fun (tokens, stop) => (⟨l, position⟩ :: tokens, stop)
        | none => .error (invalidInput position (c :: rest))
termination_by cs.length
decreasing_by
  · have le := (List.dropWhile_sublist (l := rest) isIdentRest).length_le
    simp only [List.length_cons]
    omega
  · simp
  · exact length_lt_of_sign? _found

/-- The tokens of a text and the place of its end. -/
def scan (s : String) : Except ReadError (List Token × Position) :=
  scanFrom .start s.toList

end Token

end TypeBounds
