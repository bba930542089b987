import TypeBounds.Problem
import TypeBounds.Tally
import TypeBounds.Variable.Concurrent

/-! # Reports

A report is a solved problem. It has a line for each variable, in which the solved
part may be decorated.
-/

namespace TypeBounds

/-- The tally of the variables whose results are among some events. -/
def Tally.ofEvents (events : List Event) : Tally :=
  .ofObservations (events.filterMap fun e =>
    e.observation?.map fun (r, constraints) => r.observation constraints)

/-- A problem and the results of its variables, in their order. -/
structure Report where
  problem : Problem
  results : List Result

/-- Why there is no report. -/
inductive SolveError where
  | interrupted
  /-- A bound could not be combined. -/
  | undefined (u : Undefined)

def SolveError.message : SolveError → String
  | .interrupted => "solving was interrupted: context canceled"
  | .undefined u => u.message

/-- A way to decorate the solved part of a line, by how the variable came out. -/
abbrev Painter := Outcome → String → String

namespace Painter

def plain : Painter := fun _ s => s

/-- The number of a terminal colour. -/
def colorCode : Outcome → Nat
  | .resolved => 32
  | .unconstrained => 33
  | _ => 31

def colored : Painter := fun outcome s => s!"\x1b[{colorCode outcome}m{s}\x1b[0m"

end Painter

/-- The line of a result, with its variable's name. An unsolvable variable comes with its
    bounds. -/
def Result.lineIn (r : Result) (p : Problem) (paint : Painter) : String :=
  let solved := s!"{p.name r.var} = {paint r.verdict.outcome r.verdict.text}"
  match r.verdict with
  | .unsolvable _ =>
      s!"{solved} (lower {Ty.describe r.bounds.lower}, upper {Ty.describe r.bounds.upper})"
  | _ => solved

namespace Report

def linesWith (r : Report) (paint : Painter) : List String :=
  r.results.map (·.lineIn r.problem paint)

def lines (r : Report) : List String := r.linesWith .plain

def text (r : Report) : String := "\n".intercalate r.lines

/-- The results that are no type. -/
def unsolved (r : Report) : List Result :=
  r.results.filter fun result =>
    match result.verdict with
    | .unsolvable _ => true
    | _ => false

/-- A report or why there is none, with what happened on the way. -/
structure Solving where
  events : List Event
  outcome : Except SolveError Report

/-- The report on a problem whose variables were solved by a pool. -/
def ofPoolTrace (p : Problem) (traced : PoolTrace) : Solving where
  events := traced.events
  outcome :=
    match traced.outcome with
    | .ok (some results) => .ok ⟨p, results⟩
    | .ok none => .error .interrupted
    | .error u => .error (.undefined u)

/-- Solve a problem, so many variables at a time. With none or one they are solved in order
    and to the end; a negative number sets no limit. -/
def solving (p : Problem) (concurrency : Int) (cancelled : Bool) : Solving :=
  if concurrency = 0 ∨ concurrency = 1 then
    let traced := traceSolve .nominal p.constraints p.vars
    ⟨traced.events, (traced.outcome.map (Report.mk p)).mapError .undefined⟩
  else
    ofPoolTrace p (tracePool .nominal p.constraints p.vars concurrency.toNat none cancelled)

namespace Solving

/-- The log entries of a run, which has a name of its own. -/
def entries (s : Solving) (run : String) : List Log.Entry :=
  let logger := (Log.Logger.plain.withAttrs [("run", .text run)]).withAttrs [("section", .text "solver")]
  s.events.flatMap (·.entries logger)

/-- The tally of the variables that were solved. -/
def tally (s : Solving) : Tally := .ofEvents s.events

end Solving

end Report

end TypeBounds
