import TypeBounds.Expr.Reader
import TypeBounds.Mistake
import TypeBounds.Universe.Builtin

/-! # Looking up the names of an expression

`Any`, `None` and `void` are types by themselves and take no arguments; every other
name is a class of the universe and takes as many as the class says. A name that is
wrong is one mistake, and its arguments are not looked at.
-/

namespace TypeBounds

/-- What expressions are resolved in. -/
structure Scope where
  classes : Universe
  anchors : Anchors

/-- The types that are no classes. -/
def specialType? (name : String) : Option Ty :=
  if name = "Any" then some .dynamic
  else if name = "None" then some .bottom
  else if name = "void" then some .void
  else none

/-- A type together with the mistakes found in making it. -/
structure Resolved where
  type : Ty
  mistakes : List Mistake

/-- Types together with the mistakes found in making them. -/
structure ResolvedList where
  types : List Ty
  mistakes : List Mistake

mutual
/-- The type an expression means. Where there is a mistake the type is of no use. -/
def TypeExpr.resolve (scope : Scope) (place : Placement) : TypeExpr → Resolved
  | .callable _ params result =>
      let params := resolveAll scope place params
      let result := result.resolve scope place
      ⟨.callable params.types result.type scope.anchors.function, params.mistakes ++ result.mistakes⟩
  | .tuple _ items =>
      let items := resolveAll scope place items
      ⟨.tuple items.types scope.anchors.tuple, items.mistakes⟩
  | .named position name args =>
      match specialType? name with
      | some special =>
          ⟨special,
            if args.isEmpty then []
            else [⟨place.locate position, .typeArity name 0 args.length⟩]⟩
      | none =>
          match scope.classes.lookup? name with
          | none => ⟨.error, [⟨place.locate position, .unknownClass name⟩]⟩
          | some c =>
              if (args.length : Int) = c.arity then
                let args := resolveAll scope place args
                ⟨.inst ⟨c, args.types⟩, args.mistakes⟩
              else ⟨.error, [⟨place.locate position, .typeArity name c.arity args.length⟩]⟩

def resolveAll (scope : Scope) (place : Placement) : List TypeExpr → ResolvedList
  | [] => ⟨[], []⟩
  | e :: es =>
      let first := e.resolve scope place
      let others := resolveAll scope place es
      ⟨first.type :: others.types, first.mistakes ++ others.mistakes⟩
end

/-- The mistake of a text that cannot be read. -/
def ReadError.mistake (e : ReadError) (place : Placement) (source : String) : Mistake :=
  ⟨place.locate e.position, .parse source e.message⟩

/-- The type a text means in a scope. -/
def Scope.readType (scope : Scope) (source : String) : Except (List Mistake) Ty :=
  match TypeExpr.read source with
  | .error e => .error [e.mistake .nowhere source]
  | .ok e =>
      let resolved := e.resolve scope .nowhere
      if resolved.mistakes.isEmpty then .ok resolved.type else .error resolved.mistakes

/-- The scope of the builtin classes. -/
def Scope.builtin : Scope := ⟨Universe.builtin, Builtin.anchors⟩

end TypeBounds
