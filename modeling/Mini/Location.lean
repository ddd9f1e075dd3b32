import Mini.Position
import Mini.Text.Lines
import Mini.Text.Numeral

/-!
# Locations

A location is what a message says about a place: the file, the line, the column,
and the text of that line. The line is looked up in a listing of the source.
-/

namespace Mini

open Text

/-- A place in a named file, with the line that stands there. -/
structure Location where
  file : String
  line : Int
  column : Int
  statement : String
  deriving DecidableEq, Repr, Inhabited

/-- File, line and column, separated by colons. -/
def Location.place (l : Location) : String :=
  l.file ++ ":" ++ integerText l.line ++ ":" ++ integerText l.column

/-- A named source text as its trimmed lines. -/
structure Listing where
  file : String
  lines : Array String

namespace Listing

/-- The listing of given lines. -/
def ofLines (file : String) (lines : List String) : Listing :=
  ⟨file, (lines.map fun line => String.ofList (trim line.toList)).toArray⟩

/-- The listing of a source text. -/
def ofText (file source : String) : Listing :=
  ⟨file, ((Text.lines source.toList).map fun line => String.ofList (trim line)).toArray⟩

/-- The text of a line, counted from one; nothing for a line that is not there. -/
def line (listing : Listing) (n : Int) : String :=
  if n < 1 then "" else listing.lines[n.toNat - 1]?.getD ""

/-- The location of a position. -/
def locate (listing : Listing) (p : Position) : Location :=
  ⟨listing.file, p.line, p.column, listing.line p.line⟩

end Listing

end Mini
