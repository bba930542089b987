import TypeBounds.Command.Run

/-! # The program -/

namespace TypeBounds

/-- A name for a run that is different each time. -/
def freshRunName : IO String := do
  let digits ← (List.range 32).mapM fun _ => do
    return Nat.digitChar (← IO.rand 0 15)
  return String.ofList digits

/-- The content of a file. -/
def readSource (path : String) : IO (Except FileError String) := do
  try
    return .ok (← IO.FS.readFile path)
  catch
    | .noFileOrDirectory .. => return .error .absent
    | .inappropriateType .. => return .error .isDirectory
    | e => return .error (.other (toString e))

/-- Write texts one after another; the error is that of the first that fails. -/
def writeOutputs (stream : IO.FS.Stream) : List Output → IO (Option String)
  | [] => return none
  | o :: rest => do
      try
        stream.putStr o.text
        stream.flush
      catch e => return some (o.failure (toString e))
      writeOutputs stream rest

/-- Run a command line, and tell whether all went well. -/
def runProgram (args : List String) : IO Bool := do
  let stdout ← IO.getStdout
  let stderr ← IO.getStderr
  let path? := (Invocation.read args).toOption.bind (·.command.path?)
  let source ← path?.elim (pure (.error .absent)) readSource
  let paint := if ← stdout.isTty then Painter.colored else Painter.plain
  let (log, x) := Invocation.execute (fun _ => source) (← freshRunName) paint args
  for line in log do
    stderr.putStrLn line
  let error := (← writeOutputs stdout x.outputs).or x.error
  if let some e := error then
    stderr.putStrLn s!"Error: {e}"
  return error.isNone

end TypeBounds

def main (args : List String) : IO UInt32 := do
  return if ← TypeBounds.runProgram args then 0 else 1
