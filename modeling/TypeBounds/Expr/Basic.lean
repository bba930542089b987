import TypeBounds.Position
import TypeBounds.Variable.Constraint

/-! # Type expressions

What a text says before its names are looked up. Every expression keeps the
position it starts at.
-/

namespace TypeBounds

inductive TypeExpr where
  /-- A name, with arguments or without. -/
  | named (position : Position) (name : String) (args : List TypeExpr)
  | callable (position : Position) (params : List TypeExpr) (result : TypeExpr)
  | tuple (position : Position) (items : List TypeExpr)

/-- A variable, a direction and a type. -/
structure ConstraintExpr where
  position : Position
  var : String
  direction : Direction
  target : TypeExpr

end TypeBounds
