import TypeBounds.Expr.Resolve
import TypeBounds.Problem.Document
import TypeBounds.Variable.Constraint

/-! # Declaring classes and variables

Classes are declared one after another on top of a universe. A class derives from
`object` unless it names a base or is a root. A declaration that is wrong leaves the
universe as it was and adds its mistakes. Variables are numbered as they are declared.
-/

namespace TypeBounds

/-- The scope of a universe that holds the builtin classes. -/
def Scope.over (u : Universe) : Scope := ⟨u, u.anchors.toOption.getD Builtin.anchors⟩

namespace ClassDecl

/-- The mistake of a declaration that cannot be followed. -/
def invalid (d : ClassDecl) (reason : String) : Mistake :=
  ⟨d.position, .invalidClass d.name reason⟩

/-- The base a declaration names. -/
def resolveBase (u : Universe) (d : ClassDecl) : Except (List Mistake) Instance :=
  match TypeExpr.read d.base with
  | .error e => .error [e.mistake d.baseAt d.base]
  | .ok e =>
      let resolved := e.resolve (.over u) d.baseAt
      if resolved.mistakes.isEmpty then
        match resolved.type with
        | .inst base => .ok base
        | t => .error [d.invalid s!"base '{t.text}' is not a class"]
      else .error resolved.mistakes

/-- The base of the class to be: none for a root, `object` where none is named. -/
def chooseBase (u : Universe) (d : ClassDecl) : Except (List Mistake) (Option Instance) :=
  if d.root then
    if d.base.isEmpty then .ok none else .error [d.invalid "a root class cannot have a base"]
  else if d.base.isEmpty then .ok (some (Scope.over u).anchors.object)
  else (d.resolveBase u).map some

/-- The universe with the declared class added. -/
def declare (u : Universe) (d : ClassDecl) : Except (List Mistake) Universe :=
  if (u.lookup? d.name).isSome then .error [⟨d.position, .duplicateClass d.name⟩]
  else do
    let base ← d.chooseBase u
    match u.define d.name d.params base with
    | .ok (larger, _) => return larger
    | .error e => throw [d.invalid e.message]

end ClassDecl

/-- Declare classes in order; those that are wrong only add their mistakes. -/
def declareClasses : Universe → List ClassDecl → Universe × List Mistake
  | u, [] => (u, [])
  | u, d :: ds =>
      match d.declare u with
      | .ok larger => declareClasses larger ds
      | .error mistakes =>
          let (last, later) := declareClasses u ds
          (last, mistakes ++ later)

/-- The variables that were declared, in order, each under its name. -/
structure Roster where
  entries : List (String × TypeVar)

namespace Roster

def empty : Roster := ⟨[]⟩

def names (r : Roster) : List String := r.entries.map (·.1)

def vars (r : Roster) : List TypeVar := r.entries.map (·.2)

/-- The variable of a name. -/
def find? (r : Roster) (name : String) : Option TypeVar := r.entries.lookup name

/-- Hand out the next number under a name. -/
def declare (r : Roster) (name : String) : Roster :=
  ⟨r.entries ++ [(name, ⟨r.vars.length⟩)]⟩

/-- Declare a name that is new, if names may be declared by use. -/
def declareUsed (infer : Bool) (r : Roster) (name : String) : Roster :=
  if infer && (r.find? name).isNone then r.declare name else r

end Roster

/-- Declare variables in order. A name that is taken is a mistake and declares nothing. -/
def declareVariables : Roster → List Yaml.Node → Roster × List Mistake
  | r, [] => (r, [])
  | r, n :: ns =>
      if (r.find? n.text).isSome then
        let (last, later) := declareVariables r ns
        (last, ⟨n.position, .duplicateVariable n.text⟩ :: later)
      else declareVariables (r.declare n.text) ns

end TypeBounds
