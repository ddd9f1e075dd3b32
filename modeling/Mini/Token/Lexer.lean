import Mini.Fragment.Scan
import Mini.Text.Numeral
import Mini.Text.Quoted
import Mini.Token

/-!
# From a source text to its tokens

A text is cut into fragments, operators of two characters are joined, and each
fragment is given a kind. Faults of the cutting hide everything that comes
later; otherwise all fragments without a kind are reported together.
-/

namespace Mini

open Text

namespace TokenKind

/-- The kind of a fragment's text. A word counts as a name only if it begins with
a letter, and a number only if it is made of ASCII digits. -/
def ofText? (text : String) : Option TokenKind :=
  match symbols.lookup text <|> keywords.lookup text with
  | some kind => some kind
  | none =>
      match text.toList with
      | [] => none
      | c :: cs =>
          if (c :: cs).all Char.isDigit then some number
          else if c = '\"' then some string
          else if isLetter c then some ident
          else none

end TokenKind

namespace Token

/-- The tokens of the fragments that have a kind. -/
def ofFragments (fragments : List Fragment) : List Token :=
  fragments.filterMap fun f => (TokenKind.ofText? f.text).map (⟨·, f.text, f.start⟩)

/-- One fault for each fragment without a kind. -/
def invalid (fragments : List Fragment) : List LexicalFault :=
  fragments.filterMap fun f =>
    if (TokenKind.ofText? f.text).isNone then some ⟨f.start, .invalidToken f.text⟩ else none

/-- The tokens of a source text, closed by one that marks its end. -/
def ofSource (source : String) : Except (List LexicalFault) (List Token) :=
  let scan := Scan.ofText source
  let fragments := Fragment.merge scan.fragments
  if scan.faults ≠ [] then .error scan.faults
  else if invalid fragments ≠ [] then .error (invalid fragments)
  else .ok (ofFragments fragments ++ [⟨.endOfText, "", scan.finish⟩])

end Token

/-! ## Wording -/

/-- The wording of a cause. -/
def LexicalCause.text : LexicalCause → String
  | .openComment => "comment not terminated"
  | .openString => "literal not terminated"
  | .badEscape => "invalid char escape"
  | .invalidToken text => "invalid token " ++ quoted text

/-- The wording of a fault in the named file. -/
def LexicalFault.message (file : String) (f : LexicalFault) : String :=
  file ++ ":" ++ integerText f.position.line ++ ":" ++ integerText f.position.column ++ ": " ++
    f.cause.text

end Mini
