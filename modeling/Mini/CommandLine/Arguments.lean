import Mini.Text.DecimalDigit
import Mini.Text.Quoted

/-!
# Arguments of the command line

One program, and flags in any order around it. A flag may be shortened as long as
it stays the only one; the two dashes alone end the flags. What looks like a
negative number, or has a blank in it, is no flag.

Arguments are read in two passes, since the order of complaints shows: first each
one is understood by itself, then they are taken from left to right, and only at the
end are those reported that had no use.
-/

namespace Mini.CommandLine

open Text

/-- The flags. -/
inductive Flag
  | help | source | verbose | traceJson
  deriving DecidableEq, Repr

namespace Flag

/-- The full spellings of the flags. -/
def spellings : List (String × Flag) :=
  [("-h", help), ("--help", help), ("-source", source), ("--source", source),
    ("-verbose", verbose), ("--verbose", verbose), ("--traceback-json", traceJson)]

/-- All spellings of a flag, as complaints name it. -/
def title (flag : Flag) : String :=
  "/".intercalate ((spellings.filter (·.2 = flag)).map Prod.fst)

end Flag

/-! ## Single arguments -/

/-- What one argument is by itself. A text attached to a flag is what follows an
equals sign, or what directly follows a flag of one letter. -/
inductive Word
  | positional (text : String)
  | flag (flag : Flag) (spelling : String) (attached : Option (List Char))
  | unknown (text : String)
  deriving DecidableEq, Repr

/-- Digits, or a point with digits after it and possibly before it. -/
def isPlainNumber (cs : List Char) : Bool :=
  let isDigit := fun c => (decimalDigit? c).isSome
  match cs.dropWhile isDigit with
  | [] => !cs.isEmpty
  | '.' :: fraction => !fraction.isEmpty && fraction.all isDigit
  | _ => false

/-- A dash and a number, which may be followed by a line feed. -/
def isNegativeNumber : List Char → Bool
  | '-' :: cs => isPlainNumber cs || (cs.getLast? = some '\n' && isPlainNumber cs.dropLast)
  | _ => false

/-- The part of an argument before its first equals sign, and the part behind that
sign if there is one. -/
def splitEquals (cs : List Char) : List Char × Option (List Char) :=
  (cs.takeWhile (· ≠ '='), (cs.dropWhile (· ≠ '=')).tail?)

/-- The flags that an argument may be short for. After two dashes any beginning of a
spelling will do, up to an equals sign. After one dash the whole argument must begin
a spelling, or begin with a spelling of one letter. -/
def candidates (cs : List Char) : List Word :=
  match cs with
  | '-' :: '-' :: _ =>
      let (start, attached) := splitEquals cs
      Flag.spellings.filterMap fun (spelling, flag) =>
        if start.isPrefixOf spelling.toList then some (.flag flag spelling attached) else none
  | _ =>
      Flag.spellings.filterMap fun (spelling, flag) =>
        if spelling.toList = cs.take 2 then some (.flag flag spelling (cs.drop 2))
        else if cs.isPrefixOf spelling.toList then some (.flag flag spelling none)
        else none

/-- The spelling of a flag; nothing for another word. -/
def Word.spelling : Word → String
  | .flag _ spelling _ => spelling
  | .positional _ | .unknown _ => ""

/-- A complaint about an argument that is short for several flags. -/
def ambiguous (text : String) (words : List Word) : String :=
  "ambiguous option: " ++ text ++ " could match " ++ ", ".intercalate (words.map Word.spelling)

/-- Understands one argument, or complains. -/
def Word.ofArgument (text : String) : Except String Word :=
  let cs := text.toList
  let (start, attached) := splitEquals cs
  match Flag.spellings.lookup (String.ofList start) with
  | some found => .ok (.flag found (String.ofList start) attached)
  | none =>
      if cs.head? ≠ some '-' ∨ cs.length = 1 then .ok (.positional text)
      else
        match candidates cs with
        | [word] => .ok word
        | [] =>
            if isNegativeNumber cs ∨ ' ' ∈ cs then .ok (.positional text)
            else .ok (.unknown text)
        | words => .error (ambiguous text words)

/-! ## All arguments -/

/-- What the arguments ask for. -/
structure Arguments where
  program : Option String
  source : Bool
  verbose : Bool
  traceJson : Bool
  deriving DecidableEq, Repr

/-- Why the arguments ask for no run: help is wanted, or there is a complaint. -/
inductive Stop
  | help
  | complaint (message : String)
  deriving DecidableEq, Repr

/-- The arguments taken so far; whether the last of them was taken as the program;
those that had no use. -/
structure Taken where
  arguments : Arguments
  programLast : Bool
  extras : List String

namespace Taken

/-- Nothing taken. -/
def nothing : Taken :=
  ⟨⟨none, false, false, false⟩, false, []⟩

/-- Takes a flag that stands alone. Help ends everything. -/
def flag (t : Taken) : Flag → Except Stop Taken
  | .help => .error .help
  | .source => .ok ⟨{ t.arguments with source := true }, false, t.extras⟩
  | .verbose => .ok ⟨{ t.arguments with verbose := true }, false, t.extras⟩
  | .traceJson => .ok ⟨{ t.arguments with traceJson := true }, false, t.extras⟩

/-- Keeps an argument that has no use. -/
def extra (t : Taken) (text : String) : Taken :=
  ⟨t.arguments, false, t.extras ++ [text]⟩

/-- Takes an argument that is no flag: the first one is the program. -/
def positional (t : Taken) (text : String) : Taken :=
  match t.arguments.program with
  | none => ⟨{ t.arguments with program := text }, true, t.extras⟩
  | some _ => t.extra text

end Taken

/-- A complaint about a text attached to a flag that takes none. -/
def ignored (flag : Flag) (text : List Char) : Stop :=
  .complaint
    ("argument " ++ flag.title ++ ": ignored explicit argument " ++ quoted (String.ofList text))

/-- A flag and those that the letters attached to it stand for, each a flag of one
letter. The first letter that stands for none is complained about with all that
follows it, to the flag before it. -/
def spread (flag : Flag) : List Char → Except Stop (List Flag)
  | [] => .ok [flag]
  | c :: rest =>
      match Flag.spellings.lookup (String.ofList ['-', c]) with
      | none => .error (ignored flag (c :: rest))
      | some next => do return flag :: (← spread next rest)

/-- The flags that one argument gives. Only a spelling with one dash may have
letters attached, and it needs one behind an equals sign. -/
def given (flag : Flag) (spelling : String) : Option (List Char) → Except Stop (List Flag)
  | none => .ok [flag]
  | some text =>
      if ['-', '-'].isPrefixOf spelling.toList ∨ text = [] then .error (ignored flag text)
      else spread flag text

/-- Takes one argument. All its flags are understood before the first is taken. -/
def Taken.word (t : Taken) : Word → Except Stop Taken
  | .positional text => .ok (t.positional text)
  | .unknown text => .ok (t.extra text)
  | .flag flag spelling attached => do (← given flag spelling attached).foldlM Taken.flag t

/-- Takes the arguments behind two dashes alone. The first is the program if there
is none. The dashes themselves have no use if the program came before them, unless
directly. -/
def Taken.rest (t : Taken) (texts : List String) : Taken :=
  match t.arguments.program, texts with
  | none, [] => t
  | none, text :: texts => texts.foldl Taken.extra (t.positional text)
  | some _, texts =>
      if t.programLast then texts.foldl Taken.extra t
      else texts.foldl Taken.extra (t.extra "--")

/-- Reads the arguments. -/
def Arguments.ofList (args : List String) : Except Stop Arguments := do
  let words ←
    ((args.takeWhile (· ≠ "--")).mapM Word.ofArgument).mapError Stop.complaint
  let taken ← words.foldlM Taken.word Taken.nothing
  let taken :=
    match args.dropWhile (· ≠ "--") with
    | [] => taken
    | _ :: texts => taken.rest texts
  if taken.extras = [] then return taken.arguments
  else .error (.complaint ("unrecognized arguments: " ++ " ".intercalate taken.extras))

end Mini.CommandLine
