import Mini.Token.Lexer

/-!
# What a source text is made of

The lexical grammar as rules, apart from any way of reading it. A text is divided into gaps,
tokens and scraps; a scrap is a stretch that is cut off like a token, but has no kind. Each
rule says what makes up a piece and what may not follow it, so that a piece is always the
longest one at its place. A text with an open comment, an open string literal or a forbidden
escape has no division.
-/

namespace Mini.Lexical

open Text Lexeme

/-! ## Runs of characters -/

/-- The text does not begin with such a character. -/
def Stops (p : Char → Bool) : List Char → Prop
  | [] => True
  | c :: _ => p c = false

/-- The longest run of such characters in front of what follows. -/
structure IsRun (p : Char → Bool) (run following : List Char) : Prop where
  all : ∀ c ∈ run, p c = true
  stops : Stops p following

/-! ## Gaps -/

/-- What may stand between tokens: a blank, a comment up to the end of its line, or a comment
up to the first asterisk and slash. -/
inductive IsGap : List Char → List Char → Prop
  | blank {c : Char} {following : List Char} : isGap c = true → IsGap [c] following
  | lineComment {cs following : List Char} :
      IsRun (· ≠ '\n') cs following → IsGap ('/' :: '/' :: cs) following
  | blockComment {cs following : List Char} :
      ¬['*', '/'] <:+: cs → IsGap ('/' :: '*' :: (cs ++ ['*', '/'])) following

/-! ## Tokens -/

/-- What may stand between the quotes of a string literal. -/
inductive IsBody : List Char → Prop
  | nil : IsBody []
  | plain {c : Char} {cs : List Char} :
      c ≠ '\"' → c ≠ '\\' → c ≠ '\n' → IsBody cs → IsBody (c :: cs)
  | escape {c : Char} {cs : List Char} :
      (StringLiteral.escapeValue? c).isSome = true → IsBody cs → IsBody ('\\' :: c :: cs)

/-- The texts of each kind of token. -/
inductive IsText : TokenKind → String → Prop
  | symbol {kind : TokenKind} {text : String} : (text, kind) ∈ TokenKind.symbols → IsText kind text
  | keyword {kind : TokenKind} {text : String} :
      (text, kind) ∈ TokenKind.keywords → IsText kind text
  | number {text : String} {c : Char} {cs : List Char} :
      text.toList = c :: cs → (∀ d ∈ c :: cs, d.isDigit = true) → IsText .number text
  | name {text : String} {c : Char} {cs : List Char} :
      text.toList = c :: cs → isLetter c = true → (∀ d ∈ cs, continuesWord d = true) →
      (∀ kind, (text, kind) ∉ TokenKind.keywords) → IsText .ident text
  | string {text : String} {body : List Char} :
      text.toList = '\"' :: (body ++ ['\"']) → IsBody body → IsText .string text

/-- The characters that carry a token of a kind on, or make something else of it. -/
def continues : TokenKind → Char → Bool
  | .assign | .not | .less | .greater => fun c => c = '='
  | .slash => fun c => c = '/' || c = '*'
  | .period => isDigit
  | .ident | .ifWord | .elseWord | .funcWord | .returnWord | .whileWord => continuesWord
  | .number => fun c => c = '.' || continuesWord c
  | _ => fun _ => false

/-! ## Scraps -/

/-- A point and the digits behind it, if there is a point. -/
inductive IsFraction : List Char → List Char → Prop
  | absent {following : List Char} : Stops (· = '.') following → IsFraction [] following
  | present {digits following : List Char} :
      IsRun isDigit digits following → IsFraction ('.' :: digits) following

/-- The letter of an exponent with a sign and digits, if there is one. -/
inductive IsExponent : List Char → List Char → Prop
  | absent {following : List Char} :
      Stops (fun c => c = 'e' || c = 'E') following → IsExponent [] following
  | unsigned {c : Char} {digits following : List Char} :
      (c = 'e' ∨ c = 'E') → IsRun isDigit digits following →
      Stops (fun c => c = '+' || c = '-') (digits ++ following) → IsExponent (c :: digits) following
  | signed {c sign : Char} {digits following : List Char} :
      (c = 'e' ∨ c = 'E') → (sign = '+' ∨ sign = '-') → IsRun isDigit digits following →
      IsExponent (c :: sign :: digits) following

/-- Digits, a fraction, an exponent, and whatever continues a word. -/
inductive IsNumeral : List Char → List Char → Prop
  | parts {whole fraction exponent tail following : List Char} :
      IsRun isDigit whole (fraction ++ (exponent ++ (tail ++ following))) →
      IsFraction fraction (exponent ++ (tail ++ following)) →
      IsExponent exponent (tail ++ following) → IsRun continuesWord tail following →
      IsNumeral (whole ++ (fraction ++ (exponent ++ tail))) following

/-- What is cut off without being a token: a numeral that is not made of ASCII digits only, a
word that begins with an underscore, or a character that no other piece begins with. -/
inductive IsScrap : List Char → List Char → Prop
  | numeral {c : Char} {cs following : List Char} :
      IsNumeral (c :: cs) following → beginsNumber c cs = true →
      (∃ d ∈ c :: cs, d.isDigit = false) → IsScrap (c :: cs) following
  | word {cs following : List Char} : IsRun continuesWord cs following → IsScrap ('_' :: cs) following
  | character {c : Char} {following : List Char} :
      isGap c = false → c ≠ '\"' → isDigit c = false → beginsWord c = false →
      (∀ kind, (String.ofList [c], kind) ∉ TokenKind.symbols) →
      (c = '&' ∨ c = '|' → Stops (· = c) following) → IsScrap [c] following

/-! ## Divisions -/

/-- A stretch of a text that is no gap. -/
inductive Piece
  | token (t : Token)
  | scrap (f : Fragment)

/-- The text, read from a position on, consists of these pieces and of gaps. -/
inductive Divided : Position → List Char → List Piece → Prop
  | nil {p : Position} : Divided p [] []
  | gap {p : Position} {gap following : List Char} {pieces : List Piece} :
      IsGap gap following → Divided (p.advance gap) following pieces →
      Divided p (gap ++ following) pieces
  | token {p : Position} {kind : TokenKind} {text : String} {following : List Char}
      {pieces : List Piece} :
      IsText kind text → Stops (continues kind) following →
      Divided (p.advance text.toList) following pieces →
      Divided p (text.toList ++ following) (.token ⟨kind, text, p⟩ :: pieces)
  | scrap {p : Position} {text : String} {following : List Char} {pieces : List Piece} :
      IsScrap text.toList following → Divided (p.advance text.toList) following pieces →
      Divided p (text.toList ++ following) (.scrap ⟨text, p⟩ :: pieces)

/-- The tokens among some pieces, in order. -/
def tokens (pieces : List Piece) : List Token :=
  pieces.filterMap fun
    | .token t => some t
    | .scrap _ => none

/-- The scraps among some pieces, in order. -/
def scraps (pieces : List Piece) : List Fragment :=
  pieces.filterMap fun
    | .token _ => none
    | .scrap f => some f

/-- What the lexer has to say about a scrap. -/
def fault (f : Fragment) : LexicalFault :=
  ⟨f.start, .invalidToken f.text⟩

end Mini.Lexical
