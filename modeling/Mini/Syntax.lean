import Mini.Location
import Mini.Token

/-!
# Syntax trees

Programs as trees. Every node carries the location that messages about it name.
An `else` is followed by a block or by another `if`, and keyed elements stand in
array literals only; both are built into the types.
-/

namespace Mini

/-- A name where it is written. -/
structure Identifier where
  location : Location
  name : String
  deriving DecidableEq, Repr, Inhabited

mutual

/-- Expressions. -/
inductive Expr
  | number (location : Location) (value : Int)
  | text (location : Location) (value : String)
  | ident (id : Identifier)
  | func (location : Location) (params : List Identifier) (body : Block)
  | array (location : Location) (elements : List Element)
  | unary (location : Location) (op : Token) (operand : Expr)
  | binary (location : Location) (op : Token) (left right : Expr)
  | index (location : Location) (base key : Expr)
  | select (location : Location) (base : Expr) (selector : Identifier)
  | paren (location : Location) (inner : Expr)
  | call (location : Location) (callee : Expr) (args : List Expr)

/-- The elements of an array literal, with or without a key. -/
inductive Element
  | plain (value : Expr)
  | keyed (location : Location) (key value : Expr)

/-- Statements. -/
inductive Stmt
  | block (body : Block)
  | assign (location : Location) (target value : Expr)
  | cond (branch : Branch)
  | empty (location : Location)
  | expr (location : Location) (value : Expr)
  | loop (location : Location) (test : Expr) (body : Block)
  | ret (location : Location) (value : Option Expr)

/-- A block of statements, located at its opening brace. -/
inductive Block
  | mk (location : Location) (statements : List Stmt)

/-- An `if` with its condition, its block and what follows an `else`. -/
inductive Branch
  | mk (location : Location) (test : Expr) (body : Block) (otherwise : Otherwise)

/-- What an `if` does when its condition is not true. -/
inductive Otherwise
  | nothing
  | block (body : Block)
  | branch (next : Branch)

end

/-- A program is its statements. -/
structure Program where
  statements : List Stmt

/-! ## Parts of nodes -/

def Block.location : Block → Location
  | .mk location _ => location

def Block.statements : Block → List Stmt
  | .mk _ statements => statements

def Branch.location : Branch → Location
  | .mk location _ _ _ => location

def Expr.location : Expr → Location
  | .number location _ | .text location _ | .func location _ _ | .array location _
  | .unary location _ _ | .binary location _ _ _ | .index location _ _ | .select location _ _
  | .paren location _ | .call location _ _ => location
  | .ident id => id.location

def Stmt.location : Stmt → Location
  | .block body => body.location
  | .cond branch => branch.location
  | .assign location _ _ | .empty location | .expr location _ | .loop location _ _
  | .ret location _ => location

/-- The name of an expression's kind, as messages give it. -/
def Expr.kindName : Expr → String
  | .number .. => "NumberLiteral"
  | .text .. => "StringLiteral"
  | .ident .. => "Identifier"
  | .func .. => "FuncLiteral"
  | .array .. => "ArrayLiteral"
  | .unary .. => "UnaryExpression"
  | .binary .. => "BinaryExpression"
  | .index .. => "IndexExpression"
  | .select .. => "SelectorExpression"
  | .paren .. => "ParenExpression"
  | .call .. => "CallExpression"

/-- The name of a statement's kind, as the step log gives it. -/
def Stmt.kindName : Stmt → String
  | .block .. => "Block"
  | .assign .. => "Assignment"
  | .cond .. => "IfStatement"
  | .empty .. => "EmptyStatement"
  | .expr .. => "ExpressionStatement"
  | .loop .. => "WhileStatement"
  | .ret .. => "ReturnStatement"

end Mini
