import Mini.Position

/-!
# Tokens

The words of the language. A token's kind is what the grammar looks at; its text
matters only for numbers, strings and names, and for messages about operators.
-/

namespace Mini

/-- The kinds of tokens. No text is read as one of `other`; such a kind only has
a name, and the grammar has no use for it. -/
inductive TokenKind
  | plus | minus | star | slash | percent
  | assign | and | or | equal | notEqual | less | greater | atMost | atLeast | not
  | openParen | closeParen | openBracket | closeBracket | openBrace | closeBrace
  | comma | period | semicolon | colon
  | ifWord | elseWord | funcWord | returnWord | whileWord
  | number | string | ident
  | endOfText
  | other (name : String)
  deriving DecidableEq, Repr, Inhabited

namespace TokenKind

/-- The kinds that have a symbol for their text. -/
def symbols : List (String × TokenKind) :=
  [("+", plus), ("-", minus), ("*", star), ("/", slash), ("%", percent), ("=", assign),
    ("&&", and), ("||", or), ("==", equal), ("<", less), (">", greater), ("!", not),
    ("!=", notEqual), ("<=", atMost), (">=", atLeast), ("(", openParen), ("[", openBracket),
    ("\x7b", openBrace), (",", comma), (".", period), (")", closeParen), ("]", closeBracket),
    ("\x7d", closeBrace), (";", semicolon), (":", colon)]

/-- The kinds that have a word for their text. -/
def keywords : List (String × TokenKind) :=
  [("if", ifWord), ("else", elseWord), ("func", funcWord), ("return", returnWord),
    ("while", whileWord)]

/-- The name of a kind, as messages and records show it. -/
def name : TokenKind → String
  | plus => "PLUS"
  | minus => "MINUS"
  | star => "STAR"
  | slash => "SLASH"
  | percent => "PERCENT"
  | assign => "ASSIGN"
  | and => "LAND"
  | or => "LOR"
  | equal => "EQL"
  | notEqual => "NEQ"
  | less => "LSS"
  | greater => "GTR"
  | atMost => "LEQ"
  | atLeast => "GEQ"
  | not => "NOT"
  | openParen => "LPAREN"
  | closeParen => "RPAREN"
  | openBracket => "LBRACKET"
  | closeBracket => "RBRACKET"
  | openBrace => "LBRACE"
  | closeBrace => "RBRACE"
  | comma => "COMMA"
  | period => "PERIOD"
  | semicolon => "SEMICOLON"
  | colon => "COLON"
  | ifWord => "IF"
  | elseWord => "ELSE"
  | funcWord => "FUNC"
  | returnWord => "RETURN"
  | whileWord => "WHILE"
  | number => "NUMBER"
  | string => "STRING"
  | ident => "IDENT"
  | endOfText => "EOF"
  | other name => name

/-- The kinds with a name of their own. -/
def named : List TokenKind :=
  symbols.map Prod.snd ++ keywords.map Prod.snd ++ [number, string, ident, endOfText]

/-- The kind with a given name. -/
def ofName (s : String) : TokenKind :=
  (named.find? (·.name = s)).getD (other s)

theorem name_ofName (s : String) : (ofName s).name = s := by
  unfold ofName
  cases h : named.find? (·.name = s) with
  | none => rfl
  | some kind => simpa using List.find?_some h

end TokenKind

/-- A word of the language: its kind, its text and where it begins. -/
structure Token where
  kind : TokenKind
  text : String
  start : Position
  deriving DecidableEq, Repr, Inhabited

end Mini
