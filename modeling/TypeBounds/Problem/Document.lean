import TypeBounds.Yaml.Node

/-! # Documents that state a problem

What a problem file says before any of its names is looked up: declarations of
classes, and the nodes that name variables and write constraints.
-/

namespace TypeBounds

/-- A declaration of a class. -/
structure ClassDecl where
  name : String
  params : Int
  /-- The text of the base; empty for none. -/
  base : String
  /-- The class is to have no base at all. -/
  root : Bool
  position : Position
  /-- Where the text of the base stands. -/
  baseAt : Placement

structure Document where
  classes : List ClassDecl
  vars : List Yaml.Node
  constraints : List Yaml.Node

def Document.empty : Document := ⟨[], [], []⟩

end TypeBounds
