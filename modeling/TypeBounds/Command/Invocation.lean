import TypeBounds.Command.Flag
import TypeBounds.Variable.Trace

/-! # What a command line asks for

The first argument that is no flag names a command. Without one, or with one that is
not known, there is only help to give.
-/

namespace TypeBounds

inductive Command where
  /-- Solve the problem in a file. -/
  | solve (path : String) (concurrency : Int) (metrics strict : Bool)
  /-- Combine or compare two types, with the classes of a problem file unless its name is
      empty. -/
  | relate (op : LatticeOp) (classes left right : String)
  | help
  deriving Repr, DecidableEq

/-- A command together with the lowest level to log. -/
structure Invocation where
  command : Command
  level : Int
  deriving Repr, DecidableEq

namespace Command

def levelFlag : Flag := ⟨"log-level", some 'l', .int⟩

def helpFlag : Flag := ⟨"help", some 'h', .bool⟩

/-- The flags that stand before a command. -/
def generalFlags : List Flag := [levelFlag]

def solveFlags : List Flag :=
  [⟨"concurrency", some 'j', .int⟩, ⟨"metrics", none, .bool⟩, ⟨"strict", none, .bool⟩, helpFlag,
    levelFlag]

def relateFlags : List Flag := [⟨"classes", some 'c', .text⟩, helpFlag, levelFlag]

/-- The words that name commands. -/
inductive Verb where
  | solve
  | relate (op : LatticeOp)

def Verb.ofWord? (word : String) : Option Verb :=
  if word = "solve" then some .solve
  else if word = "join" then some (.relate .join)
  else if word = "meet" then some (.relate .meet)
  else if word = "subtype" then some (.relate .comparison)
  else none

/-- Whether an argument is a flag whose value is the next argument, as far as can be told
    before the command is known. -/
def takesNext (arg : String) : Bool :=
  !arg.contains '=' &&
    if arg.startsWith "--" then !((findFlag? generalFlags (arg.drop 2).toString).elim false Flag.isSwitch)
    else arg.utf8ByteSize == 2 && arg.startsWith "-" &&
      !((arg.toList[1]?.bind (findLetter? generalFlags)).elim false Flag.isSwitch)

/-- The word that names the command, and all other arguments. -/
def splitVerb : List String → Option (String × List String)
  | [] => none
  | [arg] =>
      if arg.isEmpty || arg.startsWith "-" then none else some (arg, [])
  | arg :: next :: rest =>
      if arg == "--" then none
      else if takesNext arg then
        if rest.isEmpty then none
        else (splitVerb rest).map fun (word, others) => (word, arg :: next :: others)
      else if arg.isEmpty || arg.startsWith "-" then
        (splitVerb (next :: rest)).map fun (word, others) => (word, arg :: others)
      else some (arg, next :: rest)

/-- Check the number of arguments. -/
def exactly (n : Nat) (g : Given) : Except UsageError Unit :=
  if g.args.length = n then .ok () else .error (.argumentCount n g.args.length)

/-- A command from the arguments behind its word. -/
def ofArgs (verb : Verb) (args : List String) : Except UsageError (Command × Given) := do
  let flags := match verb with
    | .solve => solveFlags
    | .relate _ => relateFlags
  let g ← readArgs flags .empty args
  if g.bool "help" then return (.help, g)
  match verb with
  | .solve =>
      exactly 1 g
      return (.solve (g.args.getD 0 "") (g.int "concurrency" 1) (g.bool "metrics") (g.bool "strict"), g)
  | .relate op =>
      exactly 2 g
      return (.relate op (g.text "classes") (g.args.getD 0 "") (g.args.getD 1 ""), g)

end Command

/-- The level of errors, which is logged if nothing else is asked for. -/
def Invocation.defaultLevel : Int := Log.Level.error

/-- What a command line asks for. -/
def Invocation.read (args : List String) : Except Command.UsageError Invocation := do
  let (command, given) ←
    match (Command.splitVerb args).bind fun (word, rest) => (Command.Verb.ofWord? word).map (·, rest) with
    | some (verb, rest) => Command.ofArgs verb rest
    | none =>
        return ⟨.help, (← Command.readArgs (Command.helpFlag :: Command.generalFlags) .empty args).int
          "log-level" Invocation.defaultLevel⟩
  return ⟨command, given.int "log-level" Invocation.defaultLevel⟩

end TypeBounds
