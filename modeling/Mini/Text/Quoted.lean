import Mini.Text.Hex
import Mini.Text.Printable

/-!
# Quoted text

A text as it is shown inside a message: between quotes, with everything that
could be mistaken or that does not print written as an escape. Apostrophes are
the usual quotes; a text that holds an apostrophe and no double quote stands
between double quotes, so that neither needs an escape.
-/

namespace Mini.Text.Quoted

/-- The quote that stands around a text. -/
def mark (cs : List Char) : Char :=
  if '\'' ∈ cs ∧ '\"' ∉ cs then '\"' else '\''

/-- One character between the quotes `q`: an escape for the quote itself, the
backslash and the usual controls; a printable character as it is; any other by
its code point, in as few of two, four or eight digits as hold it. -/
def escape (q c : Char) : List Char :=
  if c = q ∨ c = '\\' then ['\\', c]
  else if c = '\n' then ['\\', 'n']
  else if c = '\r' then ['\\', 'r']
  else if c = '\t' then ['\\', 't']
  else if isPrintable c then [c]
  else if c.toNat < 0x100 then '\\' :: 'x' :: hex 2 c.toNat
  else if c.toNat < 0x10000 then '\\' :: 'u' :: hex 4 c.toNat
  else '\\' :: 'U' :: hex 8 c.toNat

/-- The characters of a quoted text, quotes included. -/
def chars (cs : List Char) : List Char :=
  mark cs :: cs.flatMap (escape (mark cs)) ++ [mark cs]

end Quoted

/-- A text between quotes. -/
def quoted (s : String) : String :=
  String.ofList (Quoted.chars s.toList)

example : quoted "it's" = "\"it's\"" := by decide +kernel

example : quoted "a\n\x7f" = "'a\\n\\x7f'" := by decide +kernel

end Mini.Text
