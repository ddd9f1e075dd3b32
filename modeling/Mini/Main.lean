import Mini.CommandLine

/-!
# The program

Arguments, files and output streams of the system around the command line.
-/

open Mini CommandLine

/-- No run is cut short for want of fuel; calls nest about as deep as the stack of
the system allows. -/
def runBudget : Session.Budget :=
  ⟨1000000000000000000, 1500⟩

/-- The content of a file. Of the reasons why there may be none only the most usual
are told apart. -/
def readContent (name : String) : IO (Except ReadFault (List UInt8)) := do
  try
    return .ok (← IO.FS.readBinFile name).toList
  catch error =>
    match error with
    | .noFileOrDirectory .. => return .error .missing
    | .inappropriateType .. => return .error .isDirectory
    | _ => return .error .notDirectory

def finish : Except Abort Exit → IO UInt32
  | .ok exit => do
      (← IO.getStdout).putStr exit.stdout
      (← IO.getStderr).putStr exit.stderr
      return exit.code.toUInt32
  | .error abort => do
      (← IO.getStderr).putStrLn abort.message
      return 1

def main (args : List String) : IO UInt32 := do
  match plan args with
  | .over exit => finish (.ok exit)
  | .literal text arguments => finish (runSource runBudget arguments ⟨literalName, text⟩)
  | .file name arguments => finish (runFile runBudget arguments name (← readContent name))
