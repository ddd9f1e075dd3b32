import Mini.Proofs.Syntax.Leaves

/-!
# The shape of a tree

Operators stand in a tree as their precedence and their grouping to the left have it. On the left
of an operator is nothing that binds more loosely, on its right only what binds more tightly; a
sign before an operand and a suffix behind one reach no further than the operand. Only
parentheses, which have a node of their own, can put anything else there.

Rows are what this is about: `Expr.join` puts an operator below those on the right edge that bind
less tightly, and that keeps the shape.
-/

namespace Mini

open Grammar

/-- An operator between two operands. -/
def Expr.isBinary : Expr → Bool
  | .binary .. => true
  | _ => false

/-- An operator with its operand or operands. -/
def Expr.isOperation : Expr → Bool
  | .unary .. | .binary .. => true
  | _ => false

mutual

/-- Every operator of an expression stands between operands that it may have there, and before
or behind no more than an operand. -/
def Expr.Shaped : Expr → Prop
  | .number .. | .text .. | .ident _ => True
  | .func _ _ body => body.Shaped
  | .array _ elements => Element.ListShaped elements
  | .unary _ op operand => op.kind.isUnary = true ∧ operand.isBinary = false ∧ operand.Shaped
  | .binary _ op left right =>
      op.kind.isBinary = true ∧ left.Fits op.kind.precedence ∧
        right.Fits (op.kind.precedence + 1) ∧ left.Shaped ∧ right.Shaped
  | .index _ base key => base.isOperation = false ∧ base.Shaped ∧ key.Shaped
  | .select _ base _ => base.isOperation = false ∧ base.Shaped
  | .paren _ inner => inner.Shaped
  | .call _ callee args => callee.isOperation = false ∧ callee.Shaped ∧ Expr.ListShaped args

def Expr.ListShaped : List Expr → Prop
  | [] => True
  | e :: es => e.Shaped ∧ Expr.ListShaped es

/-- An element of an array literal, the only place where a key stands. -/
def Element.Shaped : Element → Prop
  | .plain value => value.Shaped
  | .keyed _ key value => key.Shaped ∧ value.Shaped

def Element.ListShaped : List Element → Prop
  | [] => True
  | element :: elements => element.Shaped ∧ Element.ListShaped elements

/-- All expressions of a statement are shaped. -/
def Stmt.Shaped : Stmt → Prop
  | .block body => body.Shaped
  | .assign _ target value => target.Shaped ∧ value.Shaped
  | .cond branch => branch.Shaped
  | .empty _ | .ret _ none => True
  | .expr _ value | .ret _ (some value) => value.Shaped
  | .loop _ test body => test.Shaped ∧ body.Shaped

def Stmt.ListShaped : List Stmt → Prop
  | [] => True
  | statement :: statements => statement.Shaped ∧ Stmt.ListShaped statements

/-- All expressions of a block are shaped. -/
def Block.Shaped : Block → Prop
  | .mk _ statements => Stmt.ListShaped statements

/-- All expressions of a branch are shaped. -/
def Branch.Shaped : Branch → Prop
  | .mk _ test body otherwise => test.Shaped ∧ body.Shaped ∧ otherwise.Shaped

/-- All expressions behind an `else` are shaped. -/
def Otherwise.Shaped : Otherwise → Prop
  | .nothing => True
  | .block body => body.Shaped
  | .branch next => next.Shaped

end

/-- All expressions of a program are shaped. -/
def Program.Shaped (p : Program) : Prop :=
  Stmt.ListShaped p.statements

/-! ## Rows of operators -/

namespace Expr

theorem fits_of_not_binary {e : Expr} (noBinary : e.isBinary = false) (precedence : Nat) :
    e.Fits precedence := by
  rintro location op l r rfl
  cases noBinary

/-- What is attached goes below operators that bind less tightly, and so stands no lower than
what was there and the new operator itself. -/
theorem fits_attach {left right : Expr} {op : Token} {precedence : Nat}
    (fits : left.Fits precedence) (le : precedence ≤ op.kind.precedence) :
    (left.attach op right).Fits precedence := by
  intro location op' l' r' same
  unfold attach at same
  split at same
  · split at same <;> cases same
    · exact fits _ _ _ _ rfl
    · exact le
  · cases same
    exact le

theorem shaped_attach {left right : Expr} {op : Token} (isBinary : op.kind.isBinary = true)
    (isLeft : left.Shaped) (isRight : right.Shaped) (noBinary : right.isBinary = false) :
    (left.attach op right).Shaped := by
  have fits := fits_of_not_binary noBinary (op.kind.precedence + 1)
  fun_induction attach left op right with
  | case1 location inner l r tighter ih =>
      obtain ⟨isInner, fitsLeft, fitsRight, shapedLeft, shapedRight⟩ := isLeft
      exact ⟨isInner, fitsLeft, fits_attach fitsRight tighter, shapedLeft,
        ih shapedRight⟩
  | case2 location inner l r looser =>
      refine ⟨isBinary, ?_, fits, isLeft, isRight⟩
      intro _ _ _ _ same
      cases same
      exact Nat.le_of_not_lt looser
  | case3 left noRow =>
      refine ⟨isBinary, ?_, fits, isLeft, isRight⟩
      intro location inner l r same
      exact absurd same (noRow location inner l r)

/-- A row of operands that are no rows themselves. -/
def OthersShaped (others : List (Token × Expr)) : Prop :=
  ∀ other ∈ others, other.1.kind.isBinary = true ∧ other.2.Shaped ∧ other.2.isBinary = false

theorem shaped_join {first : Expr} {others : List (Token × Expr)} (isFirst : first.Shaped)
    (isOthers : OthersShaped others) : (first.join others).Shaped := by
  induction others generalizing first with
  | nil => exact isFirst
  | cons other others ih =>
      obtain ⟨isBinary, isRight, noBinary⟩ := isOthers other List.mem_cons_self
      refine ih (shaped_attach isBinary isFirst isRight noBinary) fun next mem => ?_
      exact isOthers next (List.mem_cons_of_mem _ mem)

end Expr

/-! ## Derived trees -/

namespace Grammar

variable {locate : Position → Location}

theorem IsOperand.noOperation {ts rest : List Token} {e : Expr} (h : IsOperand locate ts e rest) :
    e.isOperation = false := by
  cases h <;> rfl

theorem isBinary_of_not_operation {e : Expr} (h : e.isOperation = false) : e.isBinary = false := by
  cases e with
  | unary | binary => cases h
  | number | text | ident | func | array | index | select | paren | call => rfl

theorem IsSuffixed.noOperation : ∀ {base e : Expr} {ts rest : List Token},
    IsSuffixed locate base ts e rest → base.isOperation = false → e.isOperation = false
  | _, _, _, _, .nil, noOperation => noOperation
  | _, _, _, _, .select _ _ later, _ | _, _, _, _, .index _ _ _ later, _
  | _, _, _, _, .call _ _ later, _ => later.noOperation rfl

theorem IsPrefixed.noBinary {ts rest : List Token} {e : Expr} (h : IsPrefixed locate ts e rest) :
    e.isBinary = false := by
  cases h with
  | unary => rfl
  | operand base behind => exact isBinary_of_not_operation (behind.noOperation base.noOperation)

mutual

theorem IsExpr.shaped {ts rest : List Token} {e : Expr} (h : IsExpr locate ts e rest) :
    e.Shaped := by
  match h with
  | .join first behind _ => exact Expr.shaped_join first.shaped behind.shaped
termination_by structural h

theorem IsOthers.shaped {ts rest : List Token} {others : List (Token × Expr)}
    (h : IsOthers locate ts others rest) : Expr.OthersShaped others := by
  match h with
  | .nil => exact fun _ mem => absurd mem List.not_mem_nil
  | .cons isBinary operand behind =>
      have isOperand := operand.shaped
      have isOthers := behind.shaped
      intro other mem
      rcases List.mem_cons.mp mem with rfl | mem
      · exact ⟨isBinary, isOperand, operand.noBinary⟩
      · exact isOthers other mem
termination_by structural h

theorem IsPrefixed.shaped {ts rest : List Token} {e : Expr} (h : IsPrefixed locate ts e rest) :
    e.Shaped := by
  match h with
  | .unary isUnary inner => exact ⟨isUnary, inner.noBinary, inner.shaped⟩
  | .operand base behind => exact behind.shaped base.noOperation base.shaped
termination_by structural h

theorem IsSuffixed.shaped {base e : Expr} {ts rest : List Token}
    (h : IsSuffixed locate base ts e rest) (noOperation : base.isOperation = false)
    (isBase : base.Shaped) : e.Shaped := by
  match h with
  | .nil => exact isBase
  | .select _ _ later => exact later.shaped rfl ⟨noOperation, isBase⟩
  | .index _ key _ later => exact later.shaped rfl ⟨noOperation, isBase, key.shaped⟩
  | .call _ args later => exact later.shaped rfl ⟨noOperation, isBase, args.shaped⟩
termination_by structural h

theorem IsOperand.shaped {ts rest : List Token} {e : Expr} (h : IsOperand locate ts e rest) :
    e.Shaped := by
  match h with
  | .ident _ | .number _ _ | .text _ => trivial
  | .paren _ inner _ => exact inner.shaped
  | .array _ elements => exact elements.shaped
  | .func _ _ _ body => exact body.shaped
termination_by structural h

theorem IsArguments.shaped {ts rest : List Token} {args : List Expr}
    (h : IsArguments locate ts args rest) : Expr.ListShaped args := by
  match h with
  | .close _ => trivial
  | .item first _ later => exact ⟨first.shaped, later.shaped⟩
termination_by structural h

theorem IsElements.shaped {ts rest : List Token} {elements : List Element}
    (h : IsElements locate ts elements rest) : Element.ListShaped elements := by
  match h with
  | .close _ => trivial
  | .item first _ later => exact ⟨first.shaped, later.shaped⟩
termination_by structural h

theorem IsElement.shaped {ts rest : List Token} {element : Element}
    (h : IsElement locate ts element rest) : element.Shaped := by
  match h with
  | .plain value => exact value.shaped
  | .keyed key _ value => exact ⟨key.shaped, value.shaped⟩
termination_by structural h

theorem IsBlock.shaped {ts rest : List Token} {body : Block} (h : IsBlock locate ts body rest) :
    body.Shaped := by
  match h with
  | .braces _ inside _ => exact inside.shaped
termination_by structural h

theorem IsStmts.shaped {ts rest : List Token} {items : List Stmt}
    (h : IsStmts locate ts items rest) : Stmt.ListShaped items := by
  match h with
  | .nil => trivial
  | .cons first later => exact ⟨first.shaped, later.shaped⟩
termination_by structural h

theorem IsStmt.shaped {ts rest : List Token} {item : Stmt} (h : IsStmt locate ts item rest) :
    item.Shaped := by
  match h with
  | .empty _ | .ret _ _ => trivial
  | .block body _ => exact body.shaped
  | .cond _ branch => exact branch.shaped
  | .loop _ test body => exact ⟨test.shaped, body.shaped⟩
  | .retValue _ value _ => exact value.shaped
  | .assign _ target _ value _ => exact ⟨target.shaped, value.shaped⟩
  | .expr _ value => exact value.shaped
termination_by structural h

theorem IsBranch.shaped {location : Location} {ts rest : List Token} {item : Branch}
    (h : IsBranch locate location ts item rest) : item.Shaped := by
  match h with
  | .single test body _ => exact ⟨test.shaped, body.shaped, trivial⟩
  | .block test body _ other _ => exact ⟨test.shaped, body.shaped, other.shaped⟩
  | .branch test body _ _ next => exact ⟨test.shaped, body.shaped, next.shaped⟩
termination_by structural h

end

end Grammar

/-- **A tree is faithful to its tokens and to the precedence of operators.** Read from left to
right it is the tokens up to the first end of the text, without the commas: none is lost, doubled
or out of order. And its operators have the operands that precedence and grouping to the left give
them. That keys stand in array literals only is in the types of trees. -/
theorem Program.faithful_ofTokens {locate : Position → Location} {ts : List Token} {p : Program}
    (accepted : ofTokens locate ts = .ok p) :
    p.leaves = Token.leaves (ts.takeWhile (·.kind ≠ .endOfText)) ∧ p.Shaped := by
  obtain ⟨t, us, derives, -⟩ := derivation_of_ofTokens accepted
  exact ⟨leaves_ofTokens accepted, derives.shaped⟩

/-- The words of `x = a - b * c - (d - e);`, with two commas and a word behind the end. -/
def mixedRow : List Token :=
  [(.ident, "x"), (.assign, "="), (.ident, "a"), (.minus, "-"), (.ident, "f"), (.openParen, "("),
    (.ident, "b"), (.comma, ","), (.ident, "c"), (.comma, ","), (.closeParen, ")"), (.star, "*"),
    (.number, "07"), (.minus, "-"), (.openParen, "("), (.ident, "d"), (.minus, "-"), (.ident, "e"),
    (.closeParen, ")"), (.semicolon, ";"), (.endOfText, ""), (.elseWord, "else")].map fun word =>
      ⟨word.1, word.2, Position.start⟩

/-- What `mixedRow` derives as. -/
def mixedRowTree : Program :=
  ⟨[.assign default (.ident ⟨default, "x"⟩)
    (.binary default ⟨.minus, "-", Position.start⟩
      (.binary default ⟨.minus, "-", Position.start⟩ (.ident ⟨default, "a"⟩)
        (.binary default ⟨.star, "*", Position.start⟩
          (.call default (.ident ⟨default, "f"⟩) [.ident ⟨default, "b"⟩, .ident ⟨default, "c"⟩])
          (.number default 7)))
      (.paren default (.binary default ⟨.minus, "-", Position.start⟩ (.ident ⟨default, "d"⟩)
        (.ident ⟨default, "e"⟩))))]⟩

theorem Program.faithful_ofTokens_mixedRow :
    ofTokens (fun _ => default) mixedRow = .ok mixedRowTree ∧
      mixedRowTree.leaves = Token.leaves (mixedRow.takeWhile (·.kind ≠ .endOfText)) ∧
      mixedRowTree.Shaped := by
  have accepted : ofTokens (fun _ => default) mixedRow = .ok mixedRowTree := rfl
  exact ⟨accepted, faithful_ofTokens accepted⟩

end Mini
