import Mini.Proofs.Grammar.Derivation
import Mini.Proofs.Token.Spaced

/-!
# Canonical texts

A program printed from its tree: every word with a space behind it, a comma behind each item of
a list but the last, a semicolon where the form of a statement demands one. There are no
parentheses but those that the tree has nodes for, so the text is right only because operators
stand in a tree as their precedence has it.

What a text cannot say again is where its words stood. `bare` takes that away from a tree.
-/

namespace Mini

open Text

/-! ## Literals -/

namespace StringLiteral

/-- A character as it stands in a literal: quotes, backslashes and line feeds are escaped. -/
def escape (c : Char) : List Char :=
  if c = '\\' then ['\\', '\\']
  else if c = '\"' then ['\\', '\"']
  else if c = '\n' then ['\\', 'n']
  else [c]

/-- The literal with a given value. -/
def encode (value : String) : String :=
  String.ofList ('\"' :: (value.toList.flatMap escape ++ ['\"']))

end StringLiteral

/-! ## Words of a tree -/

/-- The items of a list, with a comma behind each but the last. -/
def listed : List (List Word) → List Word
  | [] => []
  | [item] => item
  | item :: next :: items => item ++ (.comma, ",") :: listed (next :: items)

def Identifier.word (id : Identifier) : Word :=
  (.ident, id.name)

mutual

/-- The words of an expression. -/
def Expr.words : Expr → List Word
  | .number _ n => [(.number, integerText n)]
  | .text _ value => [(.string, StringLiteral.encode value)]
  | .ident id => [id.word]
  | .func _ params body =>
      (.funcWord, "func") :: (.openParen, "(") ::
        (listed (params.map fun param => [param.word]) ++ (.closeParen, ")") :: body.words)
  | .array _ elements =>
      (.openBracket, "[") :: (listed (Element.listWords elements) ++ [(.closeBracket, "]")])
  | .unary _ op operand => op.word :: operand.words
  | .binary _ op left right => left.words ++ op.word :: right.words
  | .index _ base key =>
      base.words ++ (.openBracket, "[") :: (key.words ++ [(.closeBracket, "]")])
  | .select _ base selector => base.words ++ [(.period, "."), selector.word]
  | .paren _ inner => (.openParen, "(") :: (inner.words ++ [(.closeParen, ")")])
  | .call _ callee args =>
      callee.words ++ (.openParen, "(") :: (listed (Expr.listWords args) ++ [(.closeParen, ")")])

/-- The words of each of some expressions. -/
def Expr.listWords : List Expr → List (List Word)
  | [] => []
  | e :: es => e.words :: Expr.listWords es

/-- The words of an element. -/
def Element.words : Element → List Word
  | .plain value => value.words
  | .keyed _ key value => key.words ++ (.colon, ":") :: value.words

/-- The words of each of some elements. -/
def Element.listWords : List Element → List (List Word)
  | [] => []
  | element :: elements => element.words :: Element.listWords elements

/-- The words of a statement. An expression and a loop have no semicolon behind them. -/
def Stmt.words : Stmt → List Word
  | .block body => body.words ++ [(.semicolon, ";")]
  | .assign _ target value =>
      target.words ++ (.assign, "=") :: (value.words ++ [(.semicolon, ";")])
  | .cond branch => (.ifWord, "if") :: branch.words
  | .empty _ => [(.semicolon, ";")]
  | .expr _ value => value.words
  | .loop _ test body => (.whileWord, "while") :: (test.words ++ body.words)
  | .ret _ none => [(.returnWord, "return"), (.semicolon, ";")]
  | .ret _ (some value) => (.returnWord, "return") :: (value.words ++ [(.semicolon, ";")])

/-- The words of some statements. -/
def Stmt.listWords : List Stmt → List Word
  | [] => []
  | statement :: statements => statement.words ++ Stmt.listWords statements

/-- The words of a block. -/
def Block.words : Block → List Word
  | .mk _ statements => (.openBrace, "\x7b") :: (Stmt.listWords statements ++ [(.closeBrace, "\x7d")])

/-- The words behind an `if`. -/
def Branch.words : Branch → List Word
  | .mk _ test body otherwise => test.words ++ (body.words ++ otherwise.words)

/-- What ends an `if`: a semicolon, or an `else` and what ends that. -/
def Otherwise.words : Otherwise → List Word
  | .nothing => [(.semicolon, ";")]
  | .block body => (.elseWord, "else") :: (body.words ++ [(.semicolon, ";")])
  | .branch next => (.elseWord, "else") :: (.ifWord, "if") :: next.words

end

/-- The words of a program. -/
def Program.words (p : Program) : List Word :=
  Stmt.listWords p.statements

/-- **The canonical text of a program.** -/
def Program.text (p : Program) : String :=
  Lexical.spaced p.words

/-! ## Trees without places -/

def Token.bare (t : Token) : Token :=
  ⟨t.kind, t.text, default⟩

def Identifier.bare (id : Identifier) : Identifier :=
  ⟨default, id.name⟩

mutual

/-- An expression without the places of its nodes and operators. -/
def Expr.bare : Expr → Expr
  | .number _ n => .number default n
  | .text _ value => .text default value
  | .ident id => .ident id.bare
  | .func _ params body => .func default (params.map Identifier.bare) body.bare
  | .array _ elements => .array default (Element.listBare elements)
  | .unary _ op operand => .unary default op.bare operand.bare
  | .binary _ op left right => .binary default op.bare left.bare right.bare
  | .index _ base key => .index default base.bare key.bare
  | .select _ base selector => .select default base.bare selector.bare
  | .paren _ inner => .paren default inner.bare
  | .call _ callee args => .call default callee.bare (Expr.listBare args)

def Expr.listBare : List Expr → List Expr
  | [] => []
  | e :: es => e.bare :: Expr.listBare es

/-- An element without places. -/
def Element.bare : Element → Element
  | .plain value => .plain value.bare
  | .keyed _ key value => .keyed default key.bare value.bare

def Element.listBare : List Element → List Element
  | [] => []
  | element :: elements => element.bare :: Element.listBare elements

/-- A statement without places. -/
def Stmt.bare : Stmt → Stmt
  | .block body => .block body.bare
  | .assign _ target value => .assign default target.bare value.bare
  | .cond branch => .cond branch.bare
  | .empty _ => .empty default
  | .expr _ value => .expr default value.bare
  | .loop _ test body => .loop default test.bare body.bare
  | .ret _ none => .ret default none
  | .ret _ (some value) => .ret default (some value.bare)

def Stmt.listBare : List Stmt → List Stmt
  | [] => []
  | statement :: statements => statement.bare :: Stmt.listBare statements

/-- A block without places. -/
def Block.bare : Block → Block
  | .mk _ statements => .mk default (Stmt.listBare statements)

/-- A branch without places. -/
def Branch.bare : Branch → Branch
  | .mk _ test body otherwise => .mk default test.bare body.bare otherwise.bare

def Otherwise.bare : Otherwise → Otherwise
  | .nothing => .nothing
  | .block body => .block body.bare
  | .branch next => .branch next.bare

end

/-- **A program up to places**: what two programs have in common that differ only in where
their nodes and operators stand. -/
def Program.bare (p : Program) : Program :=
  ⟨Stmt.listBare p.statements⟩

/-! ### Nothing is left to take away -/

theorem Identifier.listBare_listBare (params : List Identifier) :
    (params.map Identifier.bare).map Identifier.bare = params.map Identifier.bare := by
  rw [List.map_map]
  rfl

mutual

theorem Expr.bare_bare (e : Expr) : e.bare.bare = e.bare := by
  match e with
  | .number .. | .text .. | .ident _ => rfl
  | .func _ params body =>
      simp only [Expr.bare, Identifier.listBare_listBare, Block.bare_bare body]
  | .array _ elements => simp only [Expr.bare, Element.listBare_listBare elements]
  | .unary _ op operand => simp only [Expr.bare, Token.bare, Expr.bare_bare operand]
  | .binary _ op left right =>
      simp only [Expr.bare, Token.bare, Expr.bare_bare left, Expr.bare_bare right]
  | .index _ base key => simp only [Expr.bare, Expr.bare_bare base, Expr.bare_bare key]
  | .select _ base selector => simp only [Expr.bare, Identifier.bare, Expr.bare_bare base]
  | .paren _ inner => simp only [Expr.bare, Expr.bare_bare inner]
  | .call _ callee args =>
      simp only [Expr.bare, Expr.bare_bare callee, Expr.listBare_listBare args]

theorem Expr.listBare_listBare (es : List Expr) :
    Expr.listBare (Expr.listBare es) = Expr.listBare es := by
  match es with
  | [] => rfl
  | e :: es => simp only [Expr.listBare, Expr.bare_bare e, Expr.listBare_listBare es]

theorem Element.bare_bare (element : Element) : element.bare.bare = element.bare := by
  match element with
  | .plain value => simp only [Element.bare, Expr.bare_bare value]
  | .keyed _ key value => simp only [Element.bare, Expr.bare_bare key, Expr.bare_bare value]

theorem Element.listBare_listBare (elements : List Element) :
    Element.listBare (Element.listBare elements) = Element.listBare elements := by
  match elements with
  | [] => rfl
  | element :: elements =>
      simp only [Element.listBare, Element.bare_bare element, Element.listBare_listBare elements]

theorem Stmt.bare_bare (statement : Stmt) : statement.bare.bare = statement.bare := by
  match statement with
  | .block body => simp only [Stmt.bare, Block.bare_bare body]
  | .assign _ target value => simp only [Stmt.bare, Expr.bare_bare target, Expr.bare_bare value]
  | .cond branch => simp only [Stmt.bare, Branch.bare_bare branch]
  | .empty _ | .ret _ none => rfl
  | .expr _ value => simp only [Stmt.bare, Expr.bare_bare value]
  | .loop _ test body => simp only [Stmt.bare, Expr.bare_bare test, Block.bare_bare body]
  | .ret _ (some value) => simp only [Stmt.bare, Expr.bare_bare value]

theorem Stmt.listBare_listBare (statements : List Stmt) :
    Stmt.listBare (Stmt.listBare statements) = Stmt.listBare statements := by
  match statements with
  | [] => rfl
  | statement :: statements =>
      simp only [Stmt.listBare, Stmt.bare_bare statement, Stmt.listBare_listBare statements]

theorem Block.bare_bare (body : Block) : body.bare.bare = body.bare := by
  match body with
  | .mk _ statements => simp only [Block.bare, Stmt.listBare_listBare statements]

theorem Branch.bare_bare (branch : Branch) : branch.bare.bare = branch.bare := by
  match branch with
  | .mk _ test body otherwise =>
      simp only [Branch.bare, Expr.bare_bare test, Block.bare_bare body,
        Otherwise.bare_bare otherwise]

theorem Otherwise.bare_bare (otherwise : Otherwise) : otherwise.bare.bare = otherwise.bare := by
  match otherwise with
  | .nothing => rfl
  | .block body => simp only [Otherwise.bare, Block.bare_bare body]
  | .branch next => simp only [Otherwise.bare, Branch.bare_bare next]

end

/-! ## Rows of operands -/

namespace Expr

/-- The words of the operators and operands behind the first operand. -/
def othersWords (others : List (Token × Expr)) : List Word :=
  others.flatMap fun other => other.1.word :: other.2.words

theorem othersWords_cons (op : Token) (e : Expr) (others : List (Token × Expr)) :
    othersWords ((op, e) :: others) = op.word :: (e.words ++ othersWords others) :=
  rfl

theorem words_attach (left : Expr) (op : Token) (right : Expr) :
    (left.attach op right).words = left.words ++ op.word :: right.words := by
  fun_induction attach left op right with
  | case1 location inner l r tighter ih =>
      simp only [words, ih, List.append_assoc, List.cons_append]
  | case2 => simp only [words]
  | case3 => simp only [words]

/-- Whatever tree becomes of a row, its words are those of the row. -/
theorem words_join (first : Expr) (others : List (Token × Expr)) :
    (first.join others).words = first.words ++ othersWords others := by
  induction others generalizing first with
  | nil => exact (List.append_nil _).symm
  | cons other others ih =>
      rw [join_cons, ih, words_attach, othersWords_cons, List.append_assoc, List.cons_append]

/-- The operators and operands behind the first operand, without places. -/
def othersBare (others : List (Token × Expr)) : List (Token × Expr) :=
  others.map fun other => (other.1.bare, other.2.bare)

theorem bare_attach (left : Expr) (op : Token) (right : Expr) :
    (left.attach op right).bare = left.bare.attach op.bare right.bare := by
  fun_induction attach left op right with
  | case1 location inner l r tighter ih =>
      have tighter : inner.bare.kind.precedence < op.bare.kind.precedence := tighter
      rw [bare, bare, attach, if_pos tighter, ih]
  | case2 location inner l r looser =>
      have looser : ¬inner.bare.kind.precedence < op.bare.kind.precedence := looser
      rw [bare, bare, attach, if_neg looser]
  | case3 left noRow =>
      cases left with
      | binary => exact absurd rfl (noRow _ _ _ _)
      | number | text | ident | func | array | unary | index | select | paren | call =>
          simp only [bare, attach]
          rfl

theorem bare_join (first : Expr) (others : List (Token × Expr)) :
    (first.join others).bare = first.bare.join (othersBare others) := by
  induction others generalizing first with
  | nil => rfl
  | cons other others ih =>
      rw [join_cons, ih, bare_attach]
      rfl

end Expr

end Mini
