import Mini.Fragment
import Mini.Fragment.Lexeme

/-!
# Cutting a text into fragments

A scan goes through the text character by character. At the first character of
each lexeme it notes the fragment and the faults; the other characters of the
lexeme only move the position. So positions are right by construction, and the
scan ends where the text does.
-/

namespace Mini

/-- Something wrong with a source text, and where. -/
structure LexicalFault where
  position : Position
  cause : LexicalCause
  deriving DecidableEq, Repr

/-- The fragments and the faults of a text, and the position of its end. -/
structure Scan where
  fragments : List Fragment
  faults : List LexicalFault
  finish : Position
  deriving DecidableEq, Repr

namespace Scan

/-- Puts the lexeme that makes up the head of `cs`, at position `p`, in front of
what comes after it. -/
def prepend (p : Position) (cs : List Char) (lexeme : Lexeme) (later : Scan) : Scan where
  fragments :=
    if lexeme.kept then ⟨String.ofList (cs.take lexeme.length), p⟩ :: later.fragments
    else later.fragments
  faults := lexeme.causes.map (fun (n, cause) => ⟨p.advance (cs.take n), cause⟩) ++ later.faults
  finish := later.finish

/-- The scan of a text from position `p` on, of which the first `owed` characters
belong to a lexeme that has been noted. -/
def fromPosition (owed : Nat) (p : Position) : List Char → Scan
  | [] => ⟨[], [], p⟩
  | c :: cs =>
      match owed with
      | owed + 1 => fromPosition owed (p.next c) cs
      | 0 =>
          let lexeme := Lexeme.ofChars c cs
          prepend p (c :: cs) lexeme (fromPosition (lexeme.length - 1) (p.next c) cs)

/-- The scan of a source text. -/
def ofText (source : String) : Scan :=
  fromPosition 0 .start source.toList

/-- Characters that belong to a lexeme already noted only move the position. -/
theorem fromPosition_length (p : Position) (cs ds : List Char) :
    fromPosition cs.length p (cs ++ ds) = fromPosition 0 (p.advance cs) ds := by
  induction cs generalizing p with
  | nil => rfl
  | cons c cs ih =>
      show fromPosition cs.length (p.next c) (cs ++ ds) = _
      rw [ih, Position.advance_cons]

end Scan

end Mini
