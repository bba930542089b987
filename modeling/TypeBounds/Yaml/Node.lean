import TypeBounds.Position
import TypeBounds.Yaml.Token

/-! # Nodes of a YAML document

A node is a scalar, a sequence, a mapping, or an alias of an earlier node. The node
an alias stands for is kept inside the alias, so nodes are trees.
-/

namespace TypeBounds.Yaml

def Mark.position (m : Mark) : Position := ⟨m.line + 1, m.column + 1⟩

inductive Node where
  | scalar (position : Position) (tag : Option String) (style : Style) (text : String)
  | sequence (position : Position) (tag : Option String) (items : List Node)
  | mapping (position : Position) (tag : Option String) (entries : List (Node × Node))
  | alias (position : Position) (name : String) (target : Node)
  /-- What an alias inside a collection sees of that collection. -/
  | enclosing (position : Position) (tag : Option String) (isMapping : Bool)
  deriving Inhabited

/-- The kinds of nodes. -/
inductive Node.Kind where
  | scalar
  | sequence
  | mapping
  | alias
  deriving Repr, DecidableEq

namespace Node

def position : Node → Position
  | .scalar position .. => position
  | .sequence position .. => position
  | .mapping position .. => position
  | .alias position .. => position
  | .enclosing position .. => position

def kind : Node → Kind
  | .scalar .. => .scalar
  | .sequence .. => .sequence
  | .mapping .. => .mapping
  | .alias .. => .alias
  | .enclosing _ _ isMapping => if isMapping then .mapping else .sequence

/-- The text of a scalar as it is after unquoting, the name of an alias, and nothing for
    collections. -/
def text : Node → String
  | .scalar _ _ _ text => text
  | .alias _ name _ => name
  | _ => ""

/-- Whether the node is a scalar in quotes. -/
def isQuoted : Node → Bool
  | .scalar _ _ style _ => style.isQuoted
  | _ => false

/-- Where the node's text stands. -/
def placement (n : Node) : Placement := ⟨n.position, n.isQuoted⟩

/-- The node itself, or what an alias stands for. -/
def followed : Node → Node
  | .alias _ _ target => target
  | n => n

end Node

end TypeBounds.Yaml
