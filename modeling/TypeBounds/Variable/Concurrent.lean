import TypeBounds.Variable.Pool
import TypeBounds.Variable.Trace

/-! # What happens while solving several variables at a time

The events of a variable are those of solving it alone; they come in the order in
which a pool reports the variables.
-/

namespace TypeBounds

/-- Events and results of a pool; there are no results if it was interrupted. -/
structure PoolTrace where
  events : List Event
  outcome : Except Undefined (Option (List Result))

/-- What solving variables has come to when a pool that hands them out is in this state. -/
def Pool.trace (L : Lattice) (cs : List Constraint) (vars : List TypeVar) (pool : Pool) :
    PoolTrace :=
  let buckets := Buckets.ofConstraints cs
  let work := vars.map fun v => traceResolve L v (buckets.on v)
  let events := pool.reported.flatMap fun i => (work[i]?.map (·.events)).getD []
  match pool.answer? with
  | some (.done reported) =>
      let slots := filledSlots (work.map (·.outcome)) reported
      ⟨events, ((slots.filterMap id).mapM id).map some⟩
  | _ => ⟨events, .ok none⟩

/-- Solve variables with a pool that hands them out to at most `limit` tasks at once. -/
def tracePool (L : Lattice) (cs : List Constraint) (vars : List TypeVar) (limit : Nat)
    (cancelAt : Option Nat) (cancelled : Bool) : PoolTrace :=
  (Pool.run ⟨vars.length, limit, cancelAt⟩ cancelled).trace L cs vars

end TypeBounds
