import TypeBounds.Variable.Buckets
import TypeBounds.Variable.Result

/-! # Solving variables

Constraints are sorted by variable, and each variable is solved on its own: its lower
bounds are joined, its upper bounds are met, and the tightest type that agrees with both
is taken.
-/

namespace TypeBounds

namespace Bounds

/-- Combine a side with one more target; the first target is taken as it is. -/
def combine (op : Bound → Bound → Except Undefined Bound) (side target : Bound) :
    Except Undefined Bound :=
  match side with
  | .none => .ok target
  | some t => op (some t) target

/-- Take in a constraint. One of unknown direction changes nothing. -/
def add (L : Lattice) (b : Bounds) (c : Constraint) : Except Undefined Bounds :=
  match c.direction with
  | .lower => (combine L.join b.lower c.target).map fun lower => { b with lower }
  | .upper => (combine L.meet b.upper c.target).map fun upper => { b with upper }
  | .unknown _ => .ok b

/-- The bounds of a list of constraints, taken in from the left. -/
def ofConstraints (L : Lattice) (cs : List Constraint) : Except Undefined Bounds :=
  cs.foldlM (add L) Bounds.none

/-- A candidate type is taken unless combining the bounds failed. -/
def settle : Ty → Verdict
  | .error => .unsolvable .latticeFailure
  | t => .resolved t

/-- The tightest type within the bounds: the lower one if there is one. A `dynamic` bound
    settles the matter by itself. -/
def verdict (L : Lattice) (b : Bounds) : Except Undefined Verdict :=
  if b.lower = some .dynamic ∨ b.upper = some .dynamic then .ok (.resolved .dynamic)
  else match b.lower, b.upper with
    | .none, .none => .ok .unconstrained
    | .none, some upper => .ok (settle upper)
    | some lower, .none => .ok (settle lower)
    | some lower, some upper => do
        if ← L.isSubtype (some lower) (some upper) then return settle lower
        else return .unsolvable .boundConflict

end Bounds

/-- Solve one variable under its own constraints. -/
def resolve (L : Lattice) (v : TypeVar) (cs : List Constraint) : Except Undefined Result := do
  let bounds ← Bounds.ofConstraints L cs
  let verdict ← bounds.verdict L
  return ⟨v, verdict, bounds⟩

/-- One result for each variable, in the order of the variables. Constraints on other
    variables are ignored. -/
def solve (L : Lattice) (vars : List TypeVar) (cs : List Constraint) :
    Except Undefined (List Result) :=
  let buckets := Buckets.ofConstraints cs
  vars.mapM fun v => resolve L v (buckets.on v)

theorem solve_eq_mapM (L : Lattice) (vars : List TypeVar) (cs : List Constraint) :
    solve L vars cs = vars.mapM fun v => resolve L v (constraintsOn v cs) := by
  simp only [solve, Buckets.on_ofConstraints]

end TypeBounds
