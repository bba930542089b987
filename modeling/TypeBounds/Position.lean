/-! # Positions in a text

Lines and columns count from one; line zero stands for an unknown place.
-/

namespace TypeBounds

structure Position where
  line : Int
  column : Int
  deriving Repr, DecidableEq, Inhabited

namespace Position

/-- The first character of a text. -/
def start : Position := ⟨1, 1⟩

def isKnown (p : Position) : Bool := p.line != 0

def text (p : Position) : String :=
  if p.isKnown then s!"{p.line}:{p.column}" else "-"

/-- The place after a character. -/
def advance (p : Position) (c : Char) : Position :=
  if c = '\n' then ⟨p.line + 1, 1⟩ else ⟨p.line, p.column + 1⟩

/-- The place after a text. -/
def advanceAll (p : Position) (cs : List Char) : Position := cs.foldl advance p

end Position

/-- Where a piece of text stands in a file: positions inside the piece become
    positions of the file. A quoted piece starts one column after its quote. -/
structure Placement where
  origin : Position
  quoted : Bool
  deriving Repr, DecidableEq, Inhabited

namespace Placement

/-- A text that is in no file: positions are those inside the text. -/
def nowhere : Placement := ⟨⟨0, 0⟩, false⟩

/-- The file's position for one inside the piece. -/
def locate (p : Placement) (inside : Position) : Position :=
  if p.origin.isKnown then
    ⟨p.origin.line + inside.line - 1,
      p.origin.column + inside.column - 1 + (if p.quoted then 1 else 0)⟩
  else inside

end Placement

end TypeBounds
