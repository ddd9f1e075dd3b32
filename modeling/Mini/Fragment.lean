import Mini.Position

/-!
# Fragments

A fragment is a stretch of source text that is read as one: a word, a number, a
string literal or a single character. Operators of two characters are not
recognised while the text is cut up; they are joined afterwards, from pairs of
fragments that touch.
-/

namespace Mini

/-- A stretch of source text and the position of its first character. -/
structure Fragment where
  text : String
  start : Position
  deriving DecidableEq, Repr

namespace Fragment

/-- The text that makes an operator of two characters when it follows `text`. -/
def partner? (text : String) : Option String :=
  if text = "=" ∨ text = "!" ∨ text = "<" ∨ text = ">" then some "="
  else if text = "&" then some "&"
  else if text = "|" then some "|"
  else none

/-- Whether `b` completes `a` to an operator: it is the partner of `a` and stands
right behind it. -/
def joins (a b : Fragment) : Bool :=
  partner? a.text = some b.text && b.start.offset = a.start.offset + 1

/-- The operator of two characters. -/
def join (a b : Fragment) : Fragment :=
  ⟨a.text ++ b.text, a.start⟩

/-- Joins pairs from the left. A joined fragment is not joined again. -/
def merge : List Fragment → List Fragment
  | [] => []
  | [a] => [a]
  | a :: b :: rest => if a.joins b then a.join b :: merge rest else a :: merge (b :: rest)

end Fragment

end Mini
