import TypeBounds.Order.Lattice

/-! # Constraints on type variables

A constraint bounds one variable by one type, from below or from above. It never
mentions another variable.
-/

namespace TypeBounds

/-- A type variable; its number is all there is to it. -/
structure TypeVar where
  id : Int
  deriving Repr, DecidableEq, Inhabited

def TypeVar.text (v : TypeVar) : String := s!"T{v.id}"

/-- Which side a constraint bounds its variable from. -/
inductive Direction where
  /-- The variable is a supertype of the target. -/
  | lower
  /-- The variable is a subtype of the target. -/
  | upper
  /-- A code that means neither. -/
  | unknown (code : Int)
  deriving Repr, DecidableEq

namespace Direction

def ofCode (code : Int) : Direction :=
  if code = 0 then .lower else if code = 1 then .upper else .unknown code

def text : Direction → String
  | .lower => ":>"
  | .upper => "<:"
  | .unknown code => s!"Direction({code})"

end Direction

structure Constraint where
  var : TypeVar
  direction : Direction
  target : Bound
  deriving DecidableEq

/-- The constraint with its variable called `name`. -/
def Constraint.textAs (c : Constraint) (name : String) : String :=
  s!"{name} {c.direction.text} {Ty.describe c.target}"

def Constraint.text (c : Constraint) : String := c.textAs c.var.text

end TypeBounds
