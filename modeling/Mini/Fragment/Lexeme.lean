import Mini.StringLiteral
import Mini.Text.Letter
import Mini.Text.Digit
import Mini.Text.Numeric

/-!
# Lexemes

What stands at the head of a text, by longest match: a gap (a blank or a
comment), which leaves no fragment, or a string literal, a number, a word or a
single character, which does. A lexeme tells how many characters it takes, so
that a scanner can go on behind it, and at which of them something is wrong.

A number takes in letters and underscores that touch it. So a faulty numeral is
one fragment and one complaint, not several.
-/

namespace Mini

open Text

/-- What can be wrong with a source text before it is a list of tokens. -/
inductive LexicalCause
  | openComment
  | openString
  | badEscape
  | invalidToken (text : String)
  deriving DecidableEq, Repr

/-- The stretch of text at the head of a text: its number of characters, whether
it is kept as a fragment, and what is wrong at which of its characters. -/
structure Lexeme where
  length : Nat
  kept : Bool
  causes : List (Nat × LexicalCause)
  deriving DecidableEq, Repr

namespace Lexeme

/-- The blanks between tokens. -/
def isGap (c : Char) : Bool :=
  c = ' ' || c = '\t' || c = '\r' || c = '\n'

/-- A letter or an underscore: the first character of a word. -/
def beginsWord (c : Char) : Bool :=
  isLetter c || c = '_'

/-- A letter, a character with a numeric value, or an underscore. -/
def continuesWord (c : Char) : Bool :=
  isLetter c || isNumeric c || c = '_'

/-! ## Comments and strings -/

/-- The number of characters up to the end of a block comment, if it ends. -/
def closing? : List Char → Option Nat
  | [] => none
  | '*' :: '/' :: _ => some 2
  | _ :: cs => (closing? cs).map (· + 1)

/-- A comment, given what follows its opening slash and asterisk. -/
def blockComment (cs : List Char) : Lexeme :=
  match closing? cs with
  | some n => ⟨n + 2, false, []⟩
  | none => ⟨cs.length + 2, false, [(0, .openComment)]⟩

/-- A string literal, given what follows its opening quote. Escapes are complained
about where their backslash stands, an open literal where its quote stands. -/
def stringLiteral (cs : List Char) : Lexeme :=
  let rest := StringLiteral.rest cs
  let bad := rest.badEscapes.map fun n => (n + 1, LexicalCause.badEscape)
  if rest.closed then ⟨rest.length + 1, true, bad⟩
  else ⟨rest.length + 1, false, bad ++ [(0, .openString)]⟩

/-! ## Numbers -/

/-- A point and the digits after it. -/
def fraction : List Char → List Char
  | '.' :: cs => '.' :: cs.takeWhile isDigit
  | _ => []

/-- A sign. -/
def sign : List Char → List Char
  | '+' :: _ => ['+']
  | '-' :: _ => ['-']
  | _ => []

/-- An exponent: its letter, a sign, digits. -/
def exponent : List Char → List Char
  | c :: cs =>
      if c = 'e' ∨ c = 'E' then
        let s := sign cs
        c :: s ++ (cs.drop s.length).takeWhile isDigit
      else []
  | [] => []

/-- A number: digits, a fraction, an exponent, and whatever continues a word. -/
def numeral (cs : List Char) : List Char :=
  let whole := cs.takeWhile isDigit
  let cs := cs.drop whole.length
  let fractional := fraction cs
  let cs := cs.drop fractional.length
  let power := exponent cs
  let cs := cs.drop power.length
  whole ++ fractional ++ power ++ cs.takeWhile continuesWord

/-- Whether a number begins here: at a digit, or at a point before one. -/
def beginsNumber (c : Char) (cs : List Char) : Bool :=
  isDigit c || c = '.' && (cs.head?.map isDigit).getD false

/-! ## The lexeme at the head of a text -/

/-- The lexeme of a text that begins with `c`. -/
def ofChars (c : Char) (cs : List Char) : Lexeme :=
  if isGap c then ⟨1, false, []⟩
  else if c = '/' ∧ cs.head? = some '/' then
    ⟨(cs.takeWhile (· ≠ '\n')).length + 1, false, []⟩
  else if c = '/' ∧ cs.head? = some '*' then blockComment cs.tail
  else if c = '\"' then stringLiteral cs
  else if beginsNumber c cs then ⟨(numeral (c :: cs)).length, true, []⟩
  else if beginsWord c then ⟨(cs.takeWhile continuesWord).length + 1, true, []⟩
  else ⟨1, true, []⟩

end Lexeme

end Mini
