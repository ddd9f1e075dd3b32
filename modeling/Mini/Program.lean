import Mini.Syntax.Grammar
import Mini.Token.Lexer

/-!
# From a source text to a program

The two stages of reading joined: a source is a program, or faulty as text, or
faulty as a list of tokens. The name of the source only shows in locations and
messages.
-/

namespace Mini

open Text

/-- A named source text. -/
structure Source where
  file : String
  text : String
  deriving DecidableEq, Repr, Inhabited

/-- Why a source is not a program. -/
inductive SourceFault
  | lexical (faults : List LexicalFault)
  | grammar (rejection : Rejection)
  deriving DecidableEq, Repr

/-- The lines of a source, under its name. -/
def Source.listing (source : Source) : Listing :=
  .ofText source.file source.text

/-- Reads a source as a program. -/
def Program.ofSource (source : Source) : Except SourceFault Program :=
  match Token.ofSource source.text with
  | .error faults => .error (.lexical faults)
  | .ok tokens =>
      match Program.ofTokens source.listing.locate tokens with
      | .error rejection => .error (.grammar rejection)
      | .ok program => .ok program

/-- A source is a program exactly if its text is one of tokens that are the program. -/
theorem Program.ofSource_eq_ok_iff {source : Source} {p : Program} :
    Program.ofSource source = .ok p ↔
      ∃ tokens, Token.ofSource source.text = .ok tokens ∧
        Program.ofTokens source.listing.locate tokens = .ok p := by
  unfold Program.ofSource
  constructor
  · intro accepted
    split at accepted
    · cases accepted
    · rename_i tokens lexed
      split at accepted
      · cases accepted
      · rename_i program parsed
        cases accepted
        exact ⟨tokens, lexed, parsed⟩
  · rintro ⟨tokens, lexed, parsed⟩
    simp only [lexed, parsed]

/-! ## Wording -/

/-- The wording of a numeral's fault. A malformed text is shown up to two hundred
characters of its quoted form. -/
def Text.NumeralFault.message : NumeralFault → String
  | .tooLong digits =>
      "Exceeds the limit (" ++ natText digitLimit ++
        " digits) for integer string conversion: value has " ++ natText digits ++
        " digits; use sys.set_int_max_str_digits() to increase the limit"
  | .malformed text =>
      "invalid literal for int() with base 10: " ++
        String.ofList ((quoted text).toList.take 200)

/-- The wording of a rejection in the named file. -/
def Rejection.message (file : String) : Rejection → String
  | .unexpected expected found _ =>
      let place := (expected.named found).start
      file ++ ":" ++ integerText place.line ++ ":" ++ integerText place.column ++ ": " ++
        expected.text
  | .badNumeral fault => fault.message
  | .outOfTokens => "list index out of range"
  | .outOfFuel => "out of budget"

/-- The wordings of a fault in the named file: one for each lexical fault. -/
def SourceFault.messages (file : String) : SourceFault → List String
  | .lexical faults => faults.map (·.message file)
  | .grammar rejection => [rejection.message file]

end Mini
