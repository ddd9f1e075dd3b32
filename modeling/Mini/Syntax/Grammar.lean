import Mini.StringLiteral
import Mini.Syntax
import Mini.Text.Numeral

/-!
# The grammar

Tokens are read from left to right by one function for each part of the grammar.
A function gets the tokens that are left and returns a tree and the tokens behind
it; it looks no further ahead than one token.

A rejection keeps the tokens from the offending one on, so it says how far the
reading got. It does not mention files: locations of nodes come from a function
on positions that the caller supplies.

Functions call each other at most five deep before a token is consumed. So a
budget of five calls for each token, and five more, is enough; `Program.ofTokens`
supplies it, and no caller sees it.
-/

namespace Mini

open Text

/-- What the grammar asks for at a token that it rejects. -/
inductive Expected
  | statement
  | ifBody
  | whileBody
  | elseBody
  | blockEnd
  | terminator
  | operand
  /-- The bracket that closes the given opening one. -/
  | closing (opening : Token)
  | selector
  | indexEnd
  | callEnd
  | arrayEnd
  | parameterStart
  | parameterEnd
  | parameter
  | functionBody
  deriving DecidableEq, Repr

/-- Why a list of tokens is not a program. -/
inductive Rejection
  /-- The token found is not what is expected; `rest` comes after it. -/
  | unexpected (expected : Expected) (found : Token) (rest : List Token)
  /-- A number's text cannot be read. -/
  | badNumeral (fault : NumeralFault)
  /-- The list ends before its end-of-text token. -/
  | outOfTokens
  /-- The budget of calls is used up. -/
  | outOfFuel
  deriving DecidableEq, Repr

/-- The outcome of reading tokens. -/
abbrev Reading := Except Rejection

/-- How tightly an operator binds its operands; zero for everything else. -/
def TokenKind.precedence : TokenKind → Nat
  | .or => 1
  | .and => 2
  | .equal | .notEqual | .less | .atMost | .greater | .atLeast => 3
  | .plus | .minus => 4
  | .star | .slash | .percent => 5
  | _ => 0

/-- The operators that stand before their operand. -/
def TokenKind.isUnary : TokenKind → Bool
  | .plus | .minus | .not => true
  | _ => false

namespace Grammar

/-! ## Single tokens -/

/-- A token of the given kind. -/
def token (kind : TokenKind) (expected : Expected) : List Token → Reading (Token × List Token)
  | [] => .error .outOfTokens
  | t :: ts => if t.kind = kind then .ok (t, ts) else .error (.unexpected expected t ts)

/-- A semicolon. Before a closing parenthesis or bracket none is needed. -/
def terminator : List Token → Reading (List Token)
  | [] => .error .outOfTokens
  | t :: ts =>
      match t.kind with
      | .closeParen | .closeBracket => .ok (t :: ts)
      | .semicolon => .ok ts
      | _ => .error (.unexpected .terminator t ts)

/-- A comma, if there is one. -/
def comma : List Token → Reading (List Token)
  | [] => .error .outOfTokens
  | t :: ts => .ok (if t.kind = .comma then ts else t :: ts)

variable (locate : Position → Location)

/-- A name. -/
def identifier (expected : Expected) (ts : List Token) : Reading (Identifier × List Token) := do
  let (t, ts) ← token .ident expected ts
  return (⟨locate t.start, t.text⟩, ts)

/-- Parameters up to and with the closing parenthesis, given a budget of calls. -/
def parameters : Nat → List Token → Reading (List Identifier × List Token)
  | 0, _ => .error .outOfFuel
  | _ + 1, [] => .error .outOfTokens
  | fuel + 1, t :: ts =>
      match t.kind with
      | .closeParen => .ok ([], ts)
      | .endOfText => .error (.unexpected .parameterEnd t ts)
      | _ => do
          let (param, ts) ← identifier locate .parameter (t :: ts)
          let ts ← comma ts
          let (params, ts) ← parameters fuel ts
          return (param :: params, ts)

/-! ## Expressions and statements -/

mutual

/-- An expression whose operators bind at least as tightly as `level`. -/
def binary : Nat → Nat → List Token → Reading (Expr × List Token)
  | 0, _, _ => .error .outOfFuel
  | fuel + 1, level, ts => do
      let (left, ts) ← unary fuel ts
      operators fuel level left ts

/-- Operators behind `left` that bind at least as tightly as `level`, with their
right operands. Operators of one precedence group to the left. -/
def operators : Nat → Nat → Expr → List Token → Reading (Expr × List Token)
  | 0, _, _, _ => .error .outOfFuel
  | _ + 1, _, _, [] => .error .outOfTokens
  | fuel + 1, level, left, op :: ts =>
      let precedence := op.kind.precedence
      if precedence < level then .ok (left, op :: ts)
      else do
        let (right, ts) ← binary fuel (precedence + 1) ts
        operators fuel level (.binary left.location op left right) ts

/-- An operand with the operators before it. -/
def unary : Nat → List Token → Reading (Expr × List Token)
  | 0, _ => .error .outOfFuel
  | _ + 1, [] => .error .outOfTokens
  | fuel + 1, op :: ts =>
      if op.kind.isUnary then do
        let (inner, ts) ← unary fuel ts
        return (.unary (locate op.start) op inner, ts)
      else do
        let (base, ts) ← operand fuel (op :: ts)
        suffixes fuel base ts

/-- Selectors, indexes and calls behind `base`. -/
def suffixes : Nat → Expr → List Token → Reading (Expr × List Token)
  | 0, _, _ => .error .outOfFuel
  | _ + 1, _, [] => .error .outOfTokens
  | fuel + 1, base, t :: ts =>
      match t.kind with
      | .period => do
          let (selector, ts) ← identifier locate .selector ts
          suffixes fuel (.select (locate t.start) base selector) ts
      | .openBracket => do
          let (key, ts) ← binary fuel 1 ts
          let (_, ts) ← token .closeBracket .indexEnd ts
          suffixes fuel (.index (locate t.start) base key) ts
      | .openParen => do
          let (args, ts) ← arguments fuel ts
          suffixes fuel (.call (locate t.start) base args) ts
      | _ => .ok (base, t :: ts)

/-- A name, a literal or an expression in parentheses. -/
def operand : Nat → List Token → Reading (Expr × List Token)
  | 0, _ => .error .outOfFuel
  | _ + 1, [] => .error .outOfTokens
  | fuel + 1, t :: ts =>
      match t.kind with
      | .ident => .ok (.ident ⟨locate t.start, t.text⟩, ts)
      | .number =>
          match readInteger t.text with
          | .ok value => .ok (.number (locate t.start) value, ts)
          | .error fault => .error (.badNumeral fault)
      | .string => .ok (.text (locate t.start) (StringLiteral.decode t.text), ts)
      | .openParen => do
          let (inner, ts) ← binary fuel 1 ts
          let (_, ts) ← token .closeParen (.closing t) ts
          return (.paren (locate t.start) inner, ts)
      | .openBracket => do
          let (elements, ts) ← elements fuel ts
          return (.array (locate t.start) elements, ts)
      | .funcWord => do
          let (_, ts) ← token .openParen .parameterStart ts
          let (params, ts) ← parameters locate fuel ts
          let (body, ts) ← block fuel .functionBody ts
          return (.func (locate t.start) params body, ts)
      | _ => .error (.unexpected .operand t ts)

/-- Arguments up to and with the closing parenthesis. -/
def arguments : Nat → List Token → Reading (List Expr × List Token)
  | 0, _ => .error .outOfFuel
  | _ + 1, [] => .error .outOfTokens
  | fuel + 1, t :: ts =>
      match t.kind with
      | .closeParen => .ok ([], ts)
      | .endOfText => .error (.unexpected .callEnd t ts)
      | _ => do
          let (arg, ts) ← binary fuel 1 (t :: ts)
          let ts ← comma ts
          let (args, ts) ← arguments fuel ts
          return (arg :: args, ts)

/-- Elements up to and with the closing bracket. -/
def elements : Nat → List Token → Reading (List Element × List Token)
  | 0, _ => .error .outOfFuel
  | _ + 1, [] => .error .outOfTokens
  | fuel + 1, t :: ts =>
      match t.kind with
      | .closeBracket => .ok ([], ts)
      | .endOfText => .error (.unexpected .arrayEnd t ts)
      | _ => do
          let (element, ts) ← element fuel (locate t.start) (t :: ts)
          let ts ← comma ts
          let (elements, ts) ← elements fuel ts
          return (element :: elements, ts)

/-- One element, which begins at `location`: a value, or a key, a colon and a
value. -/
def element : Nat → Location → List Token → Reading (Element × List Token)
  | 0, _, _ => .error .outOfFuel
  | fuel + 1, location, ts => do
      let (first, ts) ← binary fuel 1 ts
      match ts with
      | [] => .error .outOfTokens
      | t :: rest =>
          if t.kind = .colon then do
            let (value, ts) ← binary fuel 1 rest
            return (.keyed location first value, ts)
          else return (.plain first, t :: rest)

/-- A block in braces. -/
def block : Nat → Expected → List Token → Reading (Block × List Token)
  | 0, _, _ => .error .outOfFuel
  | fuel + 1, expected, ts => do
      let (opening, ts) ← token .openBrace expected ts
      let (body, ts) ← statements fuel true ts
      return (.mk (locate opening.start) body, ts)

/-- Statements: inside a block up to and with its closing brace, outside up to the
end of the text. -/
def statements : Nat → Bool → List Token → Reading (List Stmt × List Token)
  | 0, _, _ => .error .outOfFuel
  | _ + 1, _, [] => .error .outOfTokens
  | fuel + 1, inBlock, t :: ts =>
      if t.kind = .endOfText then
        if inBlock then .error (.unexpected .blockEnd t ts) else .ok ([], t :: ts)
      else if t.kind = .closeBrace ∧ inBlock then .ok ([], ts)
      else do
        let (first, ts) ← statement fuel (t :: ts)
        let (others, ts) ← statements fuel inBlock ts
        return (first :: others, ts)

/-- One statement. An expression is followed by nothing; an assignment, a block
and a `return` need a terminator. -/
def statement : Nat → List Token → Reading (Stmt × List Token)
  | 0, _ => .error .outOfFuel
  | _ + 1, [] => .error .outOfTokens
  | fuel + 1, t :: ts =>
      match t.kind with
      | .openBrace => do
          let (body, ts) ← block fuel .statement (t :: ts)
          let ts ← terminator ts
          return (.block body, ts)
      | .ifWord => do
          let (branch, ts) ← branch fuel (locate t.start) ts
          return (.cond branch, ts)
      | .semicolon => .ok (.empty (locate t.start), ts)
      | .whileWord => do
          let (test, ts) ← binary fuel 1 ts
          let (body, ts) ← block fuel .whileBody ts
          return (.loop (locate t.start) test body, ts)
      | .returnWord => do
          let (value, ts) ← returned fuel ts
          let ts ← terminator ts
          return (.ret (locate t.start) value, ts)
      | .ident | .openBracket | .openParen => do
          let (first, ts) ← binary fuel 1 (t :: ts)
          match ts with
          | [] => .error .outOfTokens
          | next :: rest =>
              if next.kind = .assign then do
                let (value, ts) ← binary fuel 1 rest
                let ts ← terminator ts
                return (.assign (locate t.start) first value, ts)
              else return (.expr (locate t.start) first, next :: rest)
      | _ => .error (.unexpected .statement t ts)

/-- The value behind a `return`, if one stands there. -/
def returned : Nat → List Token → Reading (Option Expr × List Token)
  | 0, _ => .error .outOfFuel
  | _ + 1, [] => .error .outOfTokens
  | fuel + 1, t :: ts =>
      match t.kind with
      | .semicolon | .closeBrace => .ok (none, t :: ts)
      | _ => do
          let (value, ts) ← binary fuel 1 (t :: ts)
          return (some value, ts)

/-- What follows the word `if`, which stands at `location`. -/
def branch : Nat → Location → List Token → Reading (Branch × List Token)
  | 0, _, _ => .error .outOfFuel
  | fuel + 1, location, ts => do
      let (test, ts) ← binary fuel 1 ts
      let (body, ts) ← block fuel .ifBody ts
      match ts with
      | [] => .error .outOfTokens
      | t :: rest =>
          if t.kind = .elseWord then do
            let (otherwise, ts) ← otherwise fuel rest
            return (.mk location test body otherwise, ts)
          else do
            let ts ← terminator (t :: rest)
            return (.mk location test body .nothing, ts)

/-- What follows the word `else`. -/
def otherwise : Nat → List Token → Reading (Otherwise × List Token)
  | 0, _ => .error .outOfFuel
  | _ + 1, [] => .error .outOfTokens
  | fuel + 1, t :: ts =>
      if t.kind = .ifWord then do
        let (next, ts) ← branch fuel (locate t.start) ts
        return (.branch next, ts)
      else do
        let (body, ts) ← block fuel .elseBody (t :: ts)
        let ts ← terminator ts
        return (.block body, ts)

end

end Grammar

/-- The program that a list of tokens makes up to its first end-of-text token. -/
def Program.ofTokens (locate : Position → Location) (tokens : List Token) :
    Reading Program := do
  let (statements, _) ← Grammar.statements locate (5 * tokens.length + 5) false tokens
  return ⟨statements⟩

/-! ## Wording -/

/-- The wording of what is expected. -/
def Expected.text : Expected → String
  | .statement => "invalid statement"
  | .ifBody => "if statement missing body"
  | .whileBody => "while statement missing body"
  | .elseBody => "else must be followed by if statement or block"
  | .blockEnd => "expected \x7d at end of block"
  | .terminator => "expected ;"
  | .operand => "bad expression"
  | .closing _ => "expected ) following ("
  | .selector => "expected selector"
  | .indexEnd => "expected ] in index expression"
  | .callEnd => "expected ) at end of call"
  | .arrayEnd => "expected ] at end of array"
  | .parameterStart => "expected ( at beginning of parameter list"
  | .parameterEnd => "expected ) at end of parameter list"
  | .parameter => "expected identifier"
  | .functionBody => "expected \x7b at beginning of function body"

/-- The token that a message names: the offending one, or the parenthesis that is
not closed. -/
def Expected.named (found : Token) : Expected → Token
  | .closing opening => opening
  | _ => found

end Mini
