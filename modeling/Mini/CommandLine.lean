import Mini.CommandLine.Arguments
import Mini.Session.Evaluation
import Mini.Text.Utf8
import Mini.Traceback

/-!
# The command line

A program is read from a file, or from the argument itself, and run once. What it
prints goes to the standard output; complaints, faults and tracebacks go to the
standard error output. The exit code is 0 after a run without fault, 1 after any
other, and 2 if the arguments are no good.

Reading the file is not done here: `plan` tells which file is wanted, and the rest
takes its content.
-/

namespace Mini.CommandLine

open Text

/-- How a command ends: its exit code and what it has written. -/
structure Exit where
  code : Nat
  stdout : String
  stderr : String
  deriving DecidableEq, Repr

/-- Faults that no message is written for; they end the command abnormally. -/
inductive Abort
  /-- The file is not UTF-8. -/
  | undecodable (fault : Utf8.Fault)
  /-- A number in the program cannot be read. -/
  | numeral (fault : NumeralFault)
  /-- The file's name holds a null character. -/
  | nullInName
  /-- The run did not end within its budget. -/
  | unfinished
  deriving DecidableEq, Repr

def Abort.message : Abort → String
  | .undecodable fault => fault.message
  | .numeral fault => fault.message
  | .nullInName => "embedded null byte"
  | .unfinished => "out of budget"

/-- Why a file cannot be read. -/
inductive ReadFault
  | missing | notDirectory | isDirectory | nameTooLong
  deriving DecidableEq, Repr

/-- The number and the wording of a reason. -/
def ReadFault.text : ReadFault → String
  | .missing => "[Errno 2] No such file or directory"
  | .notDirectory => "[Errno 20] Not a directory"
  | .isDirectory => "[Errno 21] Is a directory"
  | .nameTooLong => "[Errno 36] File name too long"

/-! ## Texts -/

def commandName : String :=
  "minilang.py"

def usage : String :=
  "usage: " ++ commandName ++ " [-h] [-source] [-verbose] [--traceback-json] [program]\n"

def help : String :=
  usage ++ "
Mini reference interpreter

positional arguments:
  program              Source file path or literal source with -source

options:
  -h, --help           show this help message and exit
  -source, --source    Treat program argument as literal source text
  -verbose, --verbose  Emit env snapshots in tracebacks
  --traceback-json     Also emit JSON traceback
"

/-- Lines, each with its end. -/
def unlines (lines : List String) : String :=
  String.join (lines.map (· ++ "\n"))

/-! ## Running -/

/-- How a command goes on after its arguments have been read: it is over, or it
runs a text, or a file. -/
inductive Plan
  | over (exit : Exit)
  | literal (text : String) (arguments : Arguments)
  | file (name : String) (arguments : Arguments)

/-- Reads the arguments. -/
def plan (args : List String) : Plan :=
  match Arguments.ofList args with
  | .error .help => .over ⟨0, help, ""⟩
  | .error (.complaint message) =>
      .over ⟨2, "", usage ++ unlines [commandName ++ ": error: " ++ message]⟩
  | .ok arguments =>
      match arguments.program with
      | none => .over ⟨1, "", usage ++ unlines ["missing filename argument"]⟩
      | some program =>
          if arguments.source then .literal program arguments else .file program arguments

/-- The lines about a fault: the traceback, and its JSON document if that is wanted. -/
def faultLines (arguments : Arguments) (s : Session) (fault : Fault) : List String :=
  let report := s.report fault
  s.traceText report arguments.verbose ::
    if arguments.traceJson then [(s.traceJson report).render 0] else []

/-- Runs a source. -/
def runSource (budget : Session.Budget) (arguments : Arguments) (source : Source) :
    Except Abort Exit :=
  match (Session.initial arguments.verbose).runSource budget source with
  | (.finished, s) => .ok ⟨0, unlines s.output.toList, ""⟩
  | (.rejected (.lexical faults), _) =>
      .ok ⟨1, "", unlines ["LexError: " ++ "\n".intercalate (faults.map (·.message source.file))]⟩
  | (.rejected (.grammar (.badNumeral fault)), _) => .error (.numeral fault)
  | (.rejected (.grammar rejection), _) =>
      .ok ⟨1, "", unlines ["ParseError: " ++ rejection.message source.file]⟩
  | (.failed fault, s) => .ok ⟨1, unlines s.output.toList, unlines (faultLines arguments s fault)⟩
  | (.unfinished, _) => .error .unfinished

/-- Runs a file, given what is read from it. -/
def runFile (budget : Session.Budget) (arguments : Arguments) (name : String)
    (content : Except ReadFault (List UInt8)) : Except Abort Exit :=
  if '\x00' ∈ name.toList then .error .nullInName
  else
    match content with
    | .error fault =>
        .ok ⟨1, "", unlines
          ["Failed to read " ++ name ++ ": " ++ fault.text ++ ": " ++ quoted name]⟩
    | .ok bytes =>
        match Utf8.decode bytes with
        | .error fault => .error (.undecodable fault)
        | .ok text =>
            runSource budget arguments ⟨name, String.ofList (foldLineEnds text)⟩

/-- The name of a source that is given as an argument. -/
def literalName : String :=
  "<string>"

/-- Runs a command in a file system that gives each name's content. -/
def run (budget : Session.Budget) (read : String → Except ReadFault (List UInt8))
    (args : List String) : Except Abort Exit :=
  match plan args with
  | .over exit => .ok exit
  | .literal text arguments => runSource budget arguments ⟨literalName, text⟩
  | .file name arguments => runFile budget arguments name (read name)

end Mini.CommandLine
