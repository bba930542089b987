import TypeBounds.Mistake.Ledger
import TypeBounds.Problem.Declare

/-! # The constraints of a document

A constraint is a text. An upper bound that is written without quotes looks like a
mapping of one entry, `T <` to the type, and is put back together with the type at its
own column, so that positions inside it stay exact.
-/

namespace TypeBounds

open Yaml (Node)

/-- A text and where it stands. -/
structure Placed where
  text : String
  placement : Placement
  deriving DecidableEq

namespace Placed

/-- How many blanks keep a value where it stands behind its key and the colon; one if the
    value cannot be kept there. -/
def padding (key value : Node) : Nat :=
  let gap := value.position.column - key.position.column - key.text.utf8ByteSize - 1 +
    (if value.isQuoted then 1 else 0)
  if value.position.line ≠ key.position.line ∨ gap < 1 then 1 else gap.toNat

/-- The mistake of a node that is no constraint. -/
def refused (n : Node) : Mistake :=
  ⟨n.position, .parse ""
    "constraints are written 'T :> type' or 'T <: type', quote them if they contain ': '"⟩

/-- Whether an entry is an upper bound without quotes. -/
def isUpperBound : Node → Node → Bool
  | .scalar _ none .plain key, .scalar _ _ style _ => key.endsWith "<" && !style.isBlock
  | _, _ => false

/-- The text of a constraint node. -/
def ofNode : Node → Except Mistake Placed
  | .scalar position tag style text =>
      .ok ⟨text, (Node.scalar position tag style text).placement⟩
  | .mapping position tag [(key, value)] =>
      if isUpperBound key value then
        .ok ⟨key.text ++ ":" ++ String.ofList (List.replicate (padding key value) ' ') ++ value.text,
          key.placement⟩
      else .error (refused (.mapping position tag [(key, value)]))
  | n => .error (refused n)

end Placed

/-- The variables and constraints of a document as far as they are read, and all mistakes
    that were found. -/
structure Draft where
  roster : Roster
  constraints : List Constraint
  errors : Account

namespace Draft

def mistakes (d : Draft) : List Mistake := d.errors.mistakes

def report (d : Draft) (ms : List Mistake) : Draft := { d with errors := d.errors.report ms }

@[simp]
theorem mistakes_report (d : Draft) (ms : List Mistake) :
    (d.report ms).mistakes = d.mistakes ++ ms := d.errors.mistakes_report ms

/-- Read one more constraint. With `infer` a variable is declared where it is first used,
    also by a constraint that has mistakes. -/
def add (scope : Scope) (infer : Bool) (d : Draft) (n : Node) : Draft :=
  match Placed.ofNode n with
  | .error m => d.report [m]
  | .ok source =>
      match ConstraintExpr.read source.text with
      | .error e => d.report [e.mistake source.placement source.text]
      | .ok e =>
          let target := e.target.resolve scope source.placement
          let d := { d with roster := d.roster.declareUsed infer e.var }
          match d.roster.find? e.var, target.mistakes with
          | some v, [] =>
              { d with constraints := d.constraints ++ [⟨v, e.direction, some target.type⟩] }
          | some _, ms => d.report ms
          | none, ms =>
              d.report (ms ++ [⟨source.placement.locate e.position, .unknownVariable e.var⟩])

end Draft

end TypeBounds
