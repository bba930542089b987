import TypeBounds.Position

/-! # Mistakes in a problem

A mistake has a position and a fault. Every kind of fault has a code of its own,
so that tools can tell them apart.
-/

namespace TypeBounds

inductive Fault where
  /-- A text is no type or no constraint; the text may be unknown. -/
  | parse (source message : String)
  | unknownClass (name : String)
  | unknownVariable (name : String)
  | typeArity (name : String) (expected actual : Int)
  | duplicateClass (name : String)
  | duplicateVariable (name : String)
  /-- A class declaration that the universe refuses. -/
  | invalidClass (name reason : String)
  deriving Repr, DecidableEq

namespace Fault

def code : Fault → Nat
  | .parse .. => 1
  | .unknownClass _ => 2
  | .unknownVariable _ => 3
  | .typeArity .. => 4
  | .duplicateClass _ => 5
  | .duplicateVariable _ => 6
  | .invalidClass .. => 7

def message : Fault → String
  | .parse source text =>
      if source.isEmpty then s!"could not parse: {text}"
      else s!"could not parse '{source}': {text}"
  | .unknownClass name => s!"unknown class '{name}'"
  | .unknownVariable name => s!"type variable '{name}' is not declared"
  | .typeArity name expected actual =>
      s!"class '{name}' expects {expected} type arguments, found {actual}"
  | .duplicateClass name => s!"class '{name}' is declared more than once"
  | .duplicateVariable name => s!"type variable '{name}' is declared more than once"
  | .invalidClass name reason => s!"invalid class '{name}': {reason}"

end Fault

structure Mistake where
  position : Position
  fault : Fault
  deriving Repr, DecidableEq

namespace Mistake

def message (m : Mistake) : String := m.fault.message

/-- The message after its code. -/
def coded (m : Mistake) : String := s!"(E00{m.fault.code}) {m.message}"

/-- The coded message after its position. -/
def text (m : Mistake) : String := s!"{m.position.text}: {m.coded}"

/-- The text with the file the mistake is in. -/
def textIn (m : Mistake) (file : String) : String := s!"{file}:{m.text}"

/-- One line for each mistake. -/
def listText (ms : List Mistake) : String := "\n".intercalate (ms.map text)

end Mistake

end TypeBounds
