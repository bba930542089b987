import TypeBounds.Variable.Constraint

/-! # What a variable comes to

A variable is resolved to a type, unconstrained, or unsolvable for a reason. The
result also keeps the bounds that were combined from its constraints.
-/

namespace TypeBounds

/-- The word for how a variable came out, from a code that may be of no known meaning. -/
inductive Outcome where
  | resolved
  | unconstrained
  | unsolvable
  | unknown (code : Int)
  deriving Repr, DecidableEq

namespace Outcome

def ofCode (code : Int) : Outcome :=
  if code = 0 then .resolved
  else if code = 1 then .unconstrained
  else if code = 2 then .unsolvable
  else .unknown code

def text : Outcome → String
  | .resolved => "resolved"
  | .unconstrained => "unconstrained"
  | .unsolvable => "unsolvable"
  | .unknown code => s!"Outcome({code})"

end Outcome

/-- Why a variable is unsolvable. -/
inductive Reason where
  | none
  /-- The lower bound is not below the upper bound. -/
  | boundConflict
  /-- The bounds combine to `error`. -/
  | latticeFailure
  | unknown (code : Int)
  deriving Repr, DecidableEq

namespace Reason

def ofCode (code : Int) : Reason :=
  if code = 0 then .none
  else if code = 1 then .boundConflict
  else if code = 2 then .latticeFailure
  else .unknown code

def text : Reason → String
  | .none => "none"
  | .boundConflict => "bound conflict"
  | .latticeFailure => "lattice failure"
  | .unknown code => s!"Reason({code})"

end Reason

/-- How a variable came out. -/
inductive Verdict where
  | resolved (t : Ty)
  | unconstrained
  | unsolvable (reason : Reason)
  deriving DecidableEq

namespace Verdict

def outcome : Verdict → Outcome
  | .resolved _ => .resolved
  | .unconstrained => .unconstrained
  | .unsolvable _ => .unsolvable

def reason : Verdict → Reason
  | .unsolvable reason => reason
  | _ => .none

/-- The type the variable may be taken for: an unconstrained one is `bottom`. -/
def type? : Verdict → Bound
  | .resolved t => some t
  | .unconstrained => some .bottom
  | .unsolvable _ => none

/-- The verdict without the variable. -/
def text : Verdict → String
  | .resolved t => t.text
  | .unconstrained => Ty.text .bottom ++ " (unconstrained)"
  | .unsolvable reason => s!"<unsolvable: {reason.text}>"

/-- The verdict that codes other than that of a resolved variable stand for. -/
def ofCodes (outcome reason : Int) : Verdict :=
  match Outcome.ofCode outcome with
  | .unconstrained => .unconstrained
  | _ => .unsolvable (.ofCode reason)

end Verdict

/-- The bounds combined so far, absent while there is no constraint on that side. -/
structure Bounds where
  lower : Bound
  upper : Bound
  deriving DecidableEq

def Bounds.none : Bounds := ⟨.none, .none⟩

/-- The resolution of one variable. -/
structure Result where
  var : TypeVar
  verdict : Verdict
  bounds : Bounds
  deriving DecidableEq

def Result.text (r : Result) : String := s!"{r.var.text} = {r.verdict.text}"

end TypeBounds
