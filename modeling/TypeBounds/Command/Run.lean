import TypeBounds.Command.FileTree
import TypeBounds.Command.Invocation
import TypeBounds.Report

/-! # Running commands

Running a command comes to entries for the log, texts to write one after another, and
perhaps an error in the end. If a text cannot be written, nothing after it is, and
that is the error.
-/

namespace TypeBounds

/-- What a text that is written says. -/
inductive Output where
  /-- A line of a report. -/
  | result (line : String)
  | metric (family : Family)
  /-- The answer of a command about two types. -/
  | answer (line : String)

namespace Output

def text : Output → String
  | .result line => line ++ "\n"
  | .metric family => String.join (family.lines.map (· ++ "\n"))
  | .answer line => line ++ "\n"

/-- The error when the text cannot be written for some reason. -/
def failure (reason : String) : Output → String
  | .result _ => s!"could not write result: {reason}"
  | .metric family => s!"could not write metric {family.name}: {reason}"
  | .answer _ => reason

end Output

/-- What running a command comes to. -/
structure Execution where
  entries : List Log.Entry
  outputs : List Output
  error : Option String

/-- Text that was written, and the error that was met. -/
structure Delivered where
  text : String
  error : Option String
  deriving Repr, DecidableEq

namespace Execution

def failed (entries : List Log.Entry) (error : String) : Execution := ⟨entries, [], some error⟩

/-- Write to where only so many texts fit, and all others fail for a reason. -/
def deliver (x : Execution) (room : Option Nat) (reason : String) : Delivered :=
  let fits := room.elim x.outputs x.outputs.take
  ⟨String.join (fits.map (·.text)),
    match x.outputs.drop fits.length with
    | [] => x.error
    | next :: _ => some (next.failure reason)⟩

end Execution

/-- The error of a problem that cannot be loaded; mistakes come with the file they are in. -/
def LoadError.describe (path : String) : LoadError → String
  | .mistaken ms =>
      s!"{ms.length} errors found in problem:" ++ String.join (ms.map fun m => "\n  " ++ m.textIn path)
  | e => e.message

namespace Command

/-- The problem in a file. -/
def load (read : String → Except FileError String) (path : String) : Except LoadError Problem :=
  match read path with
  | .ok source => Problem.read source
  | .error .isDirectory => .error (.unreadable s!"read {path}: {FileError.isDirectory.reason}")
  | .error e => .error (.unopened s!"open {path}: {e.reason}")

/-- The log entries of a command that solved a problem. -/
def solvedEntries (path run : String) (p : Problem) : List Log.Entry :=
  let logger := Log.Logger.forSection "cli"
  ⟨logger, ⟨.info, "solved problem", [("path", .text path), ("run", .text run),
    ("vars", .int p.vars.length), ("constraints", .int p.constraints.length)]⟩⟩ ::
    p.constraints.map fun c =>
      ⟨logger, ⟨.debug, "constraint", [("run", .text run), ("c", .text (p.constraintText c))]⟩⟩

/-- Solve the problem in a file; no concurrency stands for one without limit. -/
def runSolve (read : String → Except FileError String) (run : String) (paint : Painter)
    (path : String) (concurrency : Int) (metrics strict : Bool) : Execution :=
  let loaded := load read path
  let entries := Problem.loadEntries loaded
  match loaded with
  | .error e => .failed entries (e.describe path)
  | .ok p =>
      let solving := Report.solving p (if concurrency = 0 then -1 else concurrency) false
      let entries := entries ++ solving.entries run
      match solving.outcome with
      | .error e => .failed entries e.message
      | .ok report =>
          let unsolved := report.unsolved.length
          ⟨entries ++ solvedEntries path run p,
            (report.linesWith paint).map .result ++
              (if metrics then solving.tally.families.map .metric else []),
            if strict && unsolved > 0 then
              some s!"{unsolved} of {report.results.length} type variables are unsolvable"
            else none⟩

/-- The answer about two types, and where it fails to be a type. -/
def relation (op : LatticeOp) (a b : Ty) : String × List Clash :=
  match op with
  | .join => ((a.join b).text, a.joinClashes b)
  | .meet => ((a.meet b).text, a.meetClashes b)
  | .comparison => (toString (a.isSubtype b), [])

/-- Combine or compare two types of a scope. -/
def runRelateIn (scope : Scope) (entries : List Log.Entry) (op : LatticeOp) (left right : String) :
    Execution :=
  match scope.readType left with
  | .error ms => .failed entries s!"invalid first type: {Mistake.listText ms}"
  | .ok a =>
      match scope.readType right with
      | .error ms => .failed entries s!"invalid second type: {Mistake.listText ms}"
      | .ok b =>
          let (answer, clashes) := relation op a b
          ⟨entries ++ Event.clashEntries clashes, [.answer answer], none⟩

/-- Combine or compare two types, with the classes of a problem if there is one. -/
def runRelate (read : String → Except FileError String) (op : LatticeOp)
    (classes left right : String) : Execution :=
  if classes.isEmpty then runRelateIn .builtin [] op left right
  else
    let loaded := load read classes
    let entries := Problem.loadEntries loaded
    match loaded with
    | .error e => .failed entries (e.describe classes)
    | .ok p => runRelateIn p.scope entries op left right

/-- How the program is used. -/
def helpLines : List String :=
  ["solve FILE [-j N] [--metrics] [--strict]", "join TYPE TYPE [-c FILE]", "meet TYPE TYPE [-c FILE]",
    "subtype TYPE TYPE [-c FILE]", "every command takes [-l LEVEL]"]

/-- The file that a command reads, if it reads one. -/
def path? : Command → Option String
  | .solve path .. => some path
  | .relate _ classes .. => if classes.isEmpty then none else some classes
  | .help => none

/-- Run a command. Files are read by `read`, and the run goes by the name `run`. -/
def execute (read : String → Except FileError String) (run : String) (paint : Painter) :
    Command → Execution
  | .solve path concurrency metrics strict => runSolve read run paint path concurrency metrics strict
  | .relate op classes left right => runRelate read op classes left right
  | .help => ⟨[], helpLines.map .answer, none⟩

end Command

/-- Run what a command line asks for, and give the lines of its log. -/
def Invocation.execute (read : String → Except FileError String) (run : String) (paint : Painter)
    (args : List String) : List String × Execution :=
  match Invocation.read args with
  | .error e => ([], .failed [] e.message)
  | .ok i =>
      let x := i.command.execute read run paint
      (Log.lines i.level x.entries, x)

end TypeBounds
