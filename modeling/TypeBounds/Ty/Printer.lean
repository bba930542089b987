import TypeBounds.Ty

/-! # The text of types

An instance is its class's name with the arguments in brackets, a callable
`def (a, b) -> r`, a tuple `(a, b)` and, with one item, `(a,)`. Fallbacks are
not written.
-/

namespace TypeBounds

mutual
def Ty.text : Ty → String
  | .inst i => i.text
  | .callable params result _ => "def (" ++ Ty.listText params ++ ") -> " ++ result.text
  | .tuple [item] _ => "(" ++ item.text ++ ",)"
  | .tuple items _ => "(" ++ Ty.listText items ++ ")"
  | .void => "void"
  | .dynamic => "Any"
  | .bottom => "None"
  | .error => "<error>"

def Instance.text : Instance → String
  | ⟨c, []⟩ => c.name
  | ⟨c, arg :: args⟩ => c.name ++ "[" ++ Ty.listText (arg :: args) ++ "]"

/-- Types separated by a comma and a blank. -/
def Ty.listText : List Ty → String
  | [] => ""
  | [t] => t.text
  | t :: u :: ts => t.text ++ ", " ++ Ty.listText (u :: ts)
end

/-- The name, followed by the base in parentheses. -/
def Class.text (c : Class) : String :=
  match c.base with
  | none => c.name
  | some base => c.name ++ "(" ++ base.text ++ ")"

/-- The text of a type that may be absent. -/
def Ty.describe : Option Ty → String
  | none => "<unset>"
  | some t => t.text

end TypeBounds
