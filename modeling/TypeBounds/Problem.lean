import TypeBounds.Log.Logger
import TypeBounds.Mistake.Attributes
import TypeBounds.Problem.Constraints
import TypeBounds.Problem.Decode

/-! # Problems

A problem is a universe of classes, variables with names, and constraints on them.
It is loaded from a document only if there is no mistake in it; otherwise all
mistakes are reported: those in classes first, then those in variables, then those
in constraints.
-/

namespace TypeBounds

structure Problem where
  classes : Universe
  /-- The variables in the order in which they were declared. -/
  vars : List TypeVar
  /-- The name of each variable, at its number. -/
  names : List String
  constraints : List Constraint

/-- Why no problem is loaded. -/
inductive LoadError where
  | unopened (reason : String)
  | unreadable (reason : String)
  | undecodable (e : DecodeError)
  | mistaken (ms : List Mistake)
  deriving DecidableEq

def LoadError.message : LoadError → String
  | .unopened reason => s!"could not open problem: {reason}"
  | .unreadable reason => s!"could not read problem: {reason}"
  | .undecodable e => e.message
  | .mistaken ms => Mistake.listText ms

namespace Problem

/-- The name a variable was declared with; one that was not goes by its number. -/
def name (p : Problem) (v : TypeVar) : String :=
  if v.id < 0 then v.text else p.names.getD v.id.toNat v.text

/-- A constraint with its variable's name. -/
def constraintText (p : Problem) (c : Constraint) : String := c.textAs (p.name c.var)

def scope (p : Problem) : Scope := .over p.classes

/-- The problem a document states, or all mistakes in it. Without declared variables those
    of the constraints are taken, in the order they appear. -/
def ofDocument (d : Document) : Except (List Mistake) Problem :=
  let (classes, classMistakes) := declareClasses .builtin d.classes
  let (roster, nameMistakes) := declareVariables .empty d.vars
  let errors := (Account.empty.report classMistakes).recordEach nameMistakes
  let draft :=
    d.constraints.foldl (Draft.add (.over classes) d.vars.isEmpty) ⟨roster, [], errors⟩
  if draft.errors.hasMistake then .error draft.mistakes
  else .ok ⟨classes, draft.roster.vars, draft.roster.names, draft.constraints⟩

/-- The problem a text states. -/
def read (source : String) : Except LoadError Problem :=
  match Document.read source with
  | .error e => .error (.undecodable e)
  | .ok d => (ofDocument d).mapError .mistaken

/-- What loading has to say. -/
def loadRecords : Except LoadError Problem → List Log.Record
  | .ok p =>
      [⟨.debug, "loaded problem", [("classes", .int p.classes.size), ("vars", .int p.vars.length),
        ("constraints", .int p.constraints.length)]⟩]
  | .error (.mistaken ms) => [⟨.debug, "problem has errors", [("errors", Mistake.attributes ms)]⟩]
  | .error _ => []

/-- The log entries of loading. -/
def loadEntries (loaded : Except LoadError Problem) : List Log.Entry :=
  (loadRecords loaded).map (⟨Log.Logger.forSection "problem", ·⟩)

end Problem

end TypeBounds
