import TypeBounds.Variable.Solve
import TypeBounds.Order.Clash
import TypeBounds.Universe.Builtin
import TypeBounds.Log.Logger

/-! # What happens while solving

Solving a variable is a sequence of events: bounds are combined and compared,
constraints of unknown direction are passed over, bounds conflict, and in the end
there is a result. The log, the observers and a record of the lattice's work are
all read off this sequence.
-/

namespace TypeBounds

/-- The lattice operation that is asked for. -/
inductive LatticeOp where
  | join
  | meet
  | comparison
  deriving Repr, DecidableEq

inductive Event where
  /-- The lattice is asked to combine or compare two bounds. -/
  | asked (op : LatticeOp) (left right : Bound)
  /-- A constraint of unknown direction is passed over. -/
  | ignored (c : Constraint)
  /-- The bounds of a variable do not agree. -/
  | conflict (v : TypeVar) (bounds : Bounds)
  /-- A variable with so many constraints is solved. -/
  | solved (r : Result) (constraints : Nat)

/-- Events up to the end of a computation or to where it became undefined. -/
structure Traced (α : Type) where
  events : List Event
  outcome : Except Undefined α

namespace Traced

/-- Do one traced computation after another. -/
def andThen {α β : Type} (first : Traced α) (next : α → Traced β) : Traced β :=
  match first.outcome with
  | .error e => ⟨first.events, .error e⟩
  | .ok a =>
      let rest := next a
      ⟨first.events ++ rest.events, rest.outcome⟩

end Traced

namespace Bounds

/-- The events of taking in one constraint. -/
def addEvents (b : Bounds) (c : Constraint) : List Event :=
  match c.direction with
  | .lower => if b.lower.isSome then [.asked .join b.lower c.target] else []
  | .upper => if b.upper.isSome then [.asked .meet b.upper c.target] else []
  | .unknown _ => [.ignored c]

/-- Take in constraints from the left. -/
def traceAll (L : Lattice) : Bounds → List Constraint → Traced Bounds
  | b, [] => ⟨[], .ok b⟩
  | b, c :: cs => Traced.andThen ⟨b.addEvents c, b.add L c⟩ fun next => traceAll L next cs

/-- The events of comparing the bounds, once the verdict on them is known. -/
def verdictEvents (v : TypeVar) (b : Bounds) (verdict : Except Undefined Verdict) : List Event :=
  if b.lower = some .dynamic ∨ b.upper = some .dynamic ∨ b.lower.isNone ∨ b.upper.isNone then []
  else
    .asked .comparison b.lower b.upper ::
      match verdict with
      | .ok (.unsolvable .boundConflict) => [.conflict v b]
      | _ => []

end Bounds

/-- Solve one variable under its own constraints. -/
def traceResolve (L : Lattice) (v : TypeVar) (cs : List Constraint) : Traced Result :=
  (Bounds.none.traceAll L cs).andThen fun bounds =>
    let verdict := bounds.verdict L
    Traced.andThen ⟨bounds.verdictEvents v verdict, verdict⟩ fun verdict =>
      let r : Result := ⟨v, verdict, bounds⟩
      ⟨[.solved r cs.length], .ok r⟩

/-- Solve variables one after another, each under what is in its bucket. -/
def traceEach (L : Lattice) (buckets : Buckets) : List TypeVar → Traced (List Result)
  | [] => ⟨[], .ok []⟩
  | v :: vars =>
      (traceResolve L v (buckets.on v)).andThen fun r =>
        (traceEach L buckets vars).andThen fun rs => ⟨[], .ok (r :: rs)⟩

/-- Solve variables one after another. -/
def traceSolve (L : Lattice) (cs : List Constraint) (vars : List TypeVar) : Traced (List Result) :=
  traceEach L (.ofConstraints cs) vars

namespace Event

def clashRecord (c : Clash) : Log.Record where
  level := .debug
  message := "no common ancestor"
  attrs := [("s", .text c.left.text), ("t", .text c.right.text),
    ("object", .text Builtin.anchors.object.text)]

/-- The log entries of clashes in the order on types. -/
def clashEntries (cs : List Clash) : List Log.Entry :=
  cs.map fun c => ⟨Log.Logger.forSection "lattice", clashRecord c⟩

/-- The clashes in answering a request to the order on types. -/
def clashes : Event → List Clash
  | .asked .join a b => a.joinClashes b
  | .asked .meet a b => a.meetClashes b
  | _ => []

/-- What the solver itself has to say about an event. -/
def records : Event → List Log.Record
  | .asked .. => []
  | .ignored c =>
      [⟨.warn, "ignoring constraint with unknown direction", [("constraint", .text c.text)]⟩]
  | .conflict v b =>
      [⟨.debug, "bounds conflict", [("var", .text v.text), ("lower", .text (Ty.describe b.lower)),
        ("upper", .text (Ty.describe b.upper))]⟩]
  | .solved r constraints =>
      [⟨.debug, "solved type variable", [("var", .text r.var.text), ("constraints", .int constraints),
        ("outcome", .text r.verdict.outcome.text), ("result", .text r.text)]⟩]

/-- The log entries of an event, when the solver writes to `logger`. -/
def entries (logger : Log.Logger) (e : Event) : List Log.Entry :=
  clashEntries e.clashes ++ e.records.map (⟨logger, ·⟩)

/-- The result an observer is told of, with the number of constraints behind it. -/
def observation? : Event → Option (Result × Nat)
  | .solved r constraints => some (r, constraints)
  | _ => none

end Event

end TypeBounds
