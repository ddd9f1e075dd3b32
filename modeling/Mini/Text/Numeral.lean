import Mini.Text.Blank
import Mini.Text.DecimalDigit

/-!
# Numerals

Integers and their decimal text. Both directions stop at the same number of
digits, so that no conversion takes quadratic time on a number of any size: a
longer numeral is not read, and a longer number is not written.
-/

namespace Mini.Text

/-- The most digits that a numeral may have, in either direction. -/
def digitLimit : Nat := 4300

/-! ## Writing -/

/-- The decimal digits of a natural number. -/
def digitsOf (n : Nat) : List Char :=
  Nat.toDigits 10 n

/-- The decimal text of a natural number. -/
def natText (n : Nat) : String :=
  String.ofList (digitsOf n)

/-- The decimal text of a natural number, filled up with zeros to `width`. -/
def paddedText (width n : Nat) : String :=
  let digits := digitsOf n
  String.ofList (List.replicate (width - digits.length) '0' ++ digits)

/-- The decimal text of an integer; the sign does not count as a digit. -/
def integerText (n : Int) : String :=
  if n < 0 then "-" ++ natText n.natAbs else natText n.natAbs

/-- Whether an integer has no more digits than are written. -/
def writable (n : Int) : Bool :=
  n.natAbs < Nat.pow 10 digitLimit

/-! ## Reading -/

/-- Why a text is not a numeral. -/
inductive NumeralFault
  /-- It has more digits than are read. -/
  | tooLong (digits : Nat)
  /-- It is not digits with an optional sign. -/
  | malformed (text : String)
  deriving DecidableEq, Repr

/-- The blanks that may stand around a numeral. The information separators are
blank elsewhere, but not here. -/
def isNumeralBlank (c : Char) : Bool :=
  isBlank c && !('\x1c' ≤ c && c ≤ '\x1f')

/-- A sign in front of a numeral, and what follows. -/
def splitSign : List Char → Bool × List Char
  | '-' :: rest => (true, rest)
  | '+' :: rest => (false, rest)
  | cs => (false, cs)

/-- Whether underscores stand singly and between digits only. `afterDigit` says
that a digit came just before. -/
def groupsWell (afterDigit : Bool) : List Char → Bool
  | [] => afterDigit
  | '_' :: rest => afterDigit && rest ≠ [] && groupsWell false rest
  | _ :: rest => groupsWell true rest

/-- The number that a list of digit values stands for. -/
def ofDigits (digits : List Nat) : Nat :=
  digits.foldl (fun n d => 10 * n + d) 0

/-- Reads an integer: blanks, a sign, digits of any script with single
underscores between them, blanks. Of two faults the earlier part of the text
decides, and too many digits come before anything that follows them. -/
def readInteger (text : String) : Except NumeralFault Int :=
  let (negative, body) := splitSign (text.toList.dropWhile isNumeralBlank)
  let isBody := fun c => (decimalDigit? c).isSome || c = '_'
  let numeral := body.takeWhile isBody
  let digits := numeral.filterMap decimalDigit?
  if !numeral.isEmpty && !groupsWell false numeral then .error (.malformed text)
  else if digitLimit < digits.length then .error (.tooLong digits.length)
  else if numeral.isEmpty || !(body.dropWhile isBody).all isNumeralBlank then
    .error (.malformed text)
  else .ok (if negative then -(ofDigits digits : Int) else ofDigits digits)

end Mini.Text
