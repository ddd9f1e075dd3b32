import Mini.Proofs.Grammar.Acceptance
import Mini.Proofs.Syntax.Canonical

/-!
# The leaves of a tree

A tree read from left to right: its keywords, brackets and operators, the semicolons that its
statements carry, its names and the values of its literals. These are the tokens that it was
derived from, in their order, but for the commas, which leave no trace in a tree.

Unlike the canonical words of a tree, leaves are what the reading made of the tokens: the number
and not its digits, the string and not its literal, the operator's whole token.
-/

namespace Mini

open Grammar Text

/-- What a token, or a node of a tree, has to say. -/
inductive Leaf
  | number (value : Int)
  | text (value : String)
  | name (name : String)
  | operator (op : Token)
  | mark (kind : TokenKind)
  deriving DecidableEq, Repr

/-- The kinds of tokens of which nothing but the kind is kept: keywords, brackets, periods,
colons, semicolons and the sign of an assignment. -/
def TokenKind.isMark (kind : TokenKind) : Bool :=
  match kind with
  | .number | .string | .ident | .comma | .endOfText => false
  | _ => !(kind.isUnary || kind.isBinary)

/-- What the reading makes of a token. A number that cannot be read has no value. -/
def Token.leaf (t : Token) : Leaf :=
  match t.kind with
  | .number => ((readInteger t.text).toOption.map .number).getD (.mark .number)
  | .string => .text (StringLiteral.decode t.text)
  | .ident => .name t.text
  | kind => if kind.isUnary || kind.isBinary then .operator t else .mark kind

/-- What the reading makes of some tokens: nothing of the commas. -/
def Token.leaves (ts : List Token) : List Leaf :=
  (ts.filter (·.kind ≠ .comma)).map Token.leaf

/-! ## Leaves of a tree -/

mutual

/-- The leaves of an expression. -/
def Expr.leaves : Expr → List Leaf
  | .number _ n => [.number n]
  | .text _ value => [.text value]
  | .ident id => [.name id.name]
  | .func _ params body =>
      .mark .funcWord :: .mark .openParen ::
        (params.map (.name ·.name) ++ .mark .closeParen :: body.leaves)
  | .array _ elements => .mark .openBracket :: (Element.listLeaves elements ++ [.mark .closeBracket])
  | .unary _ op operand => .operator op :: operand.leaves
  | .binary _ op left right => left.leaves ++ .operator op :: right.leaves
  | .index _ base key =>
      base.leaves ++ .mark .openBracket :: (key.leaves ++ [.mark .closeBracket])
  | .select _ base selector => base.leaves ++ [.mark .period, .name selector.name]
  | .paren _ inner => .mark .openParen :: (inner.leaves ++ [.mark .closeParen])
  | .call _ callee args =>
      callee.leaves ++ .mark .openParen :: (Expr.listLeaves args ++ [.mark .closeParen])

def Expr.listLeaves : List Expr → List Leaf
  | [] => []
  | e :: es => e.leaves ++ Expr.listLeaves es

/-- The leaves of an element. -/
def Element.leaves : Element → List Leaf
  | .plain value => value.leaves
  | .keyed _ key value => key.leaves ++ .mark .colon :: value.leaves

def Element.listLeaves : List Element → List Leaf
  | [] => []
  | element :: elements => element.leaves ++ Element.listLeaves elements

/-- The leaves of a statement. An expression and a loop carry no semicolon. -/
def Stmt.leaves : Stmt → List Leaf
  | .block body => body.leaves ++ [.mark .semicolon]
  | .assign _ target value =>
      target.leaves ++ .mark .assign :: (value.leaves ++ [.mark .semicolon])
  | .cond branch => .mark .ifWord :: branch.leaves
  | .empty _ => [.mark .semicolon]
  | .expr _ value => value.leaves
  | .loop _ test body => .mark .whileWord :: (test.leaves ++ body.leaves)
  | .ret _ none => [.mark .returnWord, .mark .semicolon]
  | .ret _ (some value) => .mark .returnWord :: (value.leaves ++ [.mark .semicolon])

def Stmt.listLeaves : List Stmt → List Leaf
  | [] => []
  | statement :: statements => statement.leaves ++ Stmt.listLeaves statements

/-- The leaves of a block. -/
def Block.leaves : Block → List Leaf
  | .mk _ statements => .mark .openBrace :: (Stmt.listLeaves statements ++ [.mark .closeBrace])

/-- The leaves behind an `if`. -/
def Branch.leaves : Branch → List Leaf
  | .mk _ test body otherwise => test.leaves ++ (body.leaves ++ otherwise.leaves)

/-- The leaves of what ends an `if`. -/
def Otherwise.leaves : Otherwise → List Leaf
  | .nothing => [.mark .semicolon]
  | .block body => .mark .elseWord :: (body.leaves ++ [.mark .semicolon])
  | .branch next => .mark .elseWord :: .mark .ifWord :: next.leaves

end

/-- The leaves of a program. -/
def Program.leaves (p : Program) : List Leaf :=
  Stmt.listLeaves p.statements

namespace Expr

/-- The leaves of the operators and operands behind the first operand. -/
def othersLeaves (others : List (Token × Expr)) : List Leaf :=
  others.flatMap fun other => .operator other.1 :: other.2.leaves

theorem leaves_attach (left : Expr) (op : Token) (right : Expr) :
    (left.attach op right).leaves = left.leaves ++ .operator op :: right.leaves := by
  fun_induction attach left op right with
  | case1 location inner l r tighter ih =>
      simp only [leaves, ih, List.append_assoc, List.cons_append]
  | case2 => simp only [leaves]
  | case3 => simp only [leaves]

/-- A row keeps its order, whatever tree becomes of it. -/
theorem leaves_join (first : Expr) (others : List (Token × Expr)) :
    (first.join others).leaves = first.leaves ++ othersLeaves others := by
  induction others generalizing first with
  | nil => exact (List.append_nil _).symm
  | cons other others ih =>
      rw [join_cons, ih, leaves_attach, List.append_assoc, List.cons_append]
      rfl

end Expr

/-! ## Tokens with given leaves -/

namespace Grammar

/-- In front of `rest` stand tokens with these leaves, and no end of the text. -/
def Spells (ts : List Token) (leaves : List Leaf) (rest : List Token) : Prop :=
  ∃ front, ts = front ++ rest ∧ (∀ t ∈ front, t.kind ≠ .endOfText) ∧ Token.leaves front = leaves

namespace Spells

variable {t : Token} {ts us rest : List Token} {leaves more : List Leaf}

theorem none (ts : List Token) : Spells ts [] ts :=
  ⟨[], rfl, fun _ mem => absurd mem List.not_mem_nil, rfl⟩

theorem append (first : Spells ts leaves us) (later : Spells us more rest) :
    Spells ts (leaves ++ more) rest := by
  obtain ⟨front, rfl, only, rfl⟩ := first
  obtain ⟨front', rfl, only', rfl⟩ := later
  refine ⟨front ++ front', (List.append_assoc ..).symm, ?_, ?_⟩
  · intro s mem
    rcases List.mem_append.mp mem with mem | mem
    · exact only s mem
    · exact only' s mem
  · rw [Token.leaves, List.filter_append, List.map_append]
    rfl

theorem cons (inText : t.kind ≠ .endOfText) (noComma : t.kind ≠ .comma)
    (later : Spells ts leaves rest) : Spells (t :: ts) (t.leaf :: leaves) rest := by
  obtain ⟨front, rfl, only, rfl⟩ := later
  refine ⟨t :: front, rfl, ?_, ?_⟩
  · intro s mem
    rcases List.mem_cons.mp mem with rfl | mem
    · exact inText
    · exact only s mem
  · rw [Token.leaves, List.filter_cons_of_pos (by simpa using noComma)]
    rfl

/-- A token of which only the kind is kept. -/
theorem mark {kind : TokenKind} (same : t.kind = kind) (later : Spells ts leaves rest)
    (isMark : kind.isMark = true := by rfl) : Spells (t :: ts) (.mark kind :: leaves) rest := by
  subst same
  have leaf : t.leaf = .mark t.kind := by
    unfold TokenKind.isMark at isMark
    unfold Token.leaf
    split at isMark <;> simp_all
  rw [← leaf]
  refine .cons (fun kind => ?_) (fun kind => ?_) later
  all_goals
    rw [kind] at isMark
    cases isMark

/-- An operator is kept as it stands. -/
theorem operator (isOperator : (t.kind.isUnary || t.kind.isBinary) = true)
    (later : Spells ts leaves rest) : Spells (t :: ts) (.operator t :: leaves) rest := by
  have leaf : t.leaf = .operator t := by
    unfold Token.leaf
    split
    -- numbers, strings and names are no operators
    iterate 3
      rename_i kind
      rw [kind] at isOperator
      cases isOperator
    rw [if_pos isOperator]
  rw [← leaf]
  refine .cons (fun kind => ?_) (fun kind => ?_) later
  all_goals
    rw [kind] at isOperator
    cases isOperator

theorem name (kind : t.kind = .ident) (later : Spells ts leaves rest) :
    Spells (t :: ts) (.name t.text :: leaves) rest := by
  have leaf : t.leaf = .name t.text := by rw [Token.leaf, kind]
  rw [← leaf]
  exact .cons (by simp [kind]) (by simp [kind]) later

/-- A comma leaves nothing. -/
theorem comma (between : OptionalComma ts us) (later : Spells us leaves rest) :
    Spells ts leaves rest := by
  cases between with
  | absent => exact later
  | present kind =>
      obtain ⟨front, rfl, only, rfl⟩ := later
      refine ⟨_ :: front, rfl, ?_, ?_⟩
      · intro s mem
        rcases List.mem_cons.mp mem with rfl | mem
        · simp [kind]
        · exact only s mem
      · rw [Token.leaves, List.filter_cons_of_neg (by simp [kind])]
        rfl

end Spells

/-! ## Derived trees -/

variable {locate : Position → Location}

theorem IsParameters.leaves {ts rest : List Token} {params : List Identifier}
    (h : IsParameters locate ts params rest) :
    Spells ts (params.map (.name ·.name) ++ [.mark .closeParen]) rest := by
  induction h with
  | close kind => exact .mark kind (.none _)
  | item kind between _ ih => exact .name kind (.comma between ih)

mutual

theorem IsExpr.leaves {ts rest : List Token} {e : Expr} (h : IsExpr locate ts e rest) :
    Spells ts e.leaves rest := by
  match h with
  | .join first behind _ =>
      rw [Expr.leaves_join]
      exact first.leaves.append behind.leaves
termination_by structural h

theorem IsOthers.leaves {ts rest : List Token} {others : List (Token × Expr)}
    (h : IsOthers locate ts others rest) : Spells ts (Expr.othersLeaves others) rest := by
  match h with
  | .nil => exact .none _
  | .cons isBinary operand behind =>
      exact .operator (Bool.or_eq_true_iff.mpr (Or.inr isBinary))
        (operand.leaves.append behind.leaves)
termination_by structural h

theorem IsPrefixed.leaves {ts rest : List Token} {e : Expr} (h : IsPrefixed locate ts e rest) :
    Spells ts e.leaves rest := by
  match h with
  | .unary isUnary inner =>
      exact .operator (Bool.or_eq_true_iff.mpr (Or.inl isUnary)) inner.leaves
  | .operand base behind =>
      obtain ⟨more, same, behind⟩ := behind.leaves
      rw [same]
      exact base.leaves.append behind
termination_by structural h

/-- What stands behind a base comes behind its leaves. -/
theorem IsSuffixed.leaves {base e : Expr} {ts rest : List Token}
    (h : IsSuffixed locate base ts e rest) :
    ∃ more, e.leaves = base.leaves ++ more ∧ Spells ts more rest := by
  match h with
  | .nil => exact ⟨[], (List.append_nil _).symm, .none _⟩
  | .select kind isName later =>
      obtain ⟨more, same, later⟩ := later.leaves
      rw [same, Expr.leaves, List.append_assoc]
      exact ⟨_, rfl, .mark kind (.name isName later)⟩
  | .index kind key isClose later =>
      obtain ⟨more, same, later⟩ := later.leaves
      rw [same, Expr.leaves, List.append_assoc, List.cons_append, List.append_assoc]
      exact ⟨_, rfl, .mark kind (key.leaves.append (.mark isClose later))⟩
  | .call kind args later =>
      obtain ⟨more, same, later⟩ := later.leaves
      rw [same, Expr.leaves, List.append_assoc, List.cons_append]
      exact ⟨_, rfl, .mark kind (args.leaves.append later)⟩
termination_by structural h

theorem IsOperand.leaves {ts rest : List Token} {e : Expr} (h : IsOperand locate ts e rest) :
    Spells ts e.leaves rest := by
  match h with
  | .ident kind => exact .name kind (.none _)
  | @IsOperand.number _ t _ n kind read =>
      have leaf : t.leaf = .number n := by rw [Token.leaf, kind, read]; rfl
      rw [Expr.leaves, ← leaf]
      exact .cons (by simp [kind]) (by simp [kind]) (.none _)
  | @IsOperand.text _ t _ kind =>
      have leaf : t.leaf = .text (StringLiteral.decode t.text) := by rw [Token.leaf, kind]
      rw [Expr.leaves, ← leaf]
      exact .cons (by simp [kind]) (by simp [kind]) (.none _)
  | .paren kind inner isClose =>
      exact .mark kind (inner.leaves.append (.mark isClose (.none _)))
  | .array kind elements => exact .mark kind elements.leaves
  | .func kind isOpening params body =>
      have params := params.leaves.append body.leaves
      rw [List.append_assoc] at params
      exact .mark kind (.mark isOpening params)
termination_by structural h

theorem IsArguments.leaves {ts rest : List Token} {args : List Expr}
    (h : IsArguments locate ts args rest) :
    Spells ts (Expr.listLeaves args ++ [.mark .closeParen]) rest := by
  match h with
  | .close kind => exact .mark kind (.none _)
  | .item first between later =>
      rw [Expr.listLeaves, List.append_assoc]
      exact first.leaves.append (.comma between later.leaves)
termination_by structural h

theorem IsElements.leaves {ts rest : List Token} {elements : List Element}
    (h : IsElements locate ts elements rest) :
    Spells ts (Element.listLeaves elements ++ [.mark .closeBracket]) rest := by
  match h with
  | .close kind => exact .mark kind (.none _)
  | .item first between later =>
      rw [Element.listLeaves, List.append_assoc]
      exact first.leaves.append (.comma between later.leaves)
termination_by structural h

theorem IsElement.leaves {ts rest : List Token} {element : Element}
    (h : IsElement locate ts element rest) : Spells ts element.leaves rest := by
  match h with
  | .plain value => exact value.leaves
  | .keyed key isColon value => exact key.leaves.append (.mark isColon value.leaves)
termination_by structural h

theorem IsBlock.leaves {ts rest : List Token} {body : Block} (h : IsBlock locate ts body rest) :
    Spells ts body.leaves rest := by
  match h with
  | .braces kind inside isClose =>
      exact .mark kind (inside.leaves.append (.mark isClose (.none _)))
termination_by structural h

theorem IsStmts.leaves {ts rest : List Token} {items : List Stmt}
    (h : IsStmts locate ts items rest) : Spells ts (Stmt.listLeaves items) rest := by
  match h with
  | .nil => exact .none _
  | .cons first later => exact first.leaves.append later.leaves
termination_by structural h

theorem IsStmt.leaves {ts rest : List Token} {item : Stmt} (h : IsStmt locate ts item rest) :
    Spells ts item.leaves rest := by
  match h with
  | .empty kind => exact .mark kind (.none _)
  | .block body isClose => exact body.leaves.append (.mark isClose (.none _))
  | .cond kind branch => exact .mark kind branch.leaves
  | .loop kind test body => exact .mark kind (test.leaves.append body.leaves)
  | .ret kind isClose => exact .mark kind (.mark isClose (.none _))
  | .retValue kind value isClose =>
      exact .mark kind (value.leaves.append (.mark isClose (.none _)))
  | .assign _ target isAssign value isClose =>
      have value := value.leaves.append (.mark isClose (.none _))
      exact target.leaves.append (.mark isAssign value)
  | .expr _ value => exact value.leaves
termination_by structural h

theorem IsBranch.leaves {location : Location} {ts rest : List Token} {item : Branch}
    (h : IsBranch locate location ts item rest) : Spells ts item.leaves rest := by
  match h with
  | .single test body isClose =>
      exact test.leaves.append (body.leaves.append (.mark isClose (.none _)))
  | .block test body isElse other isClose =>
      have other := other.leaves.append (.mark isClose (.none _))
      exact test.leaves.append (body.leaves.append (.mark isElse other))
  | .branch test body isElse isIf next =>
      exact test.leaves.append (body.leaves.append (.mark isElse (.mark isIf next.leaves)))
termination_by structural h

end

end Grammar

/-- A program has the leaves of its tokens up to the first end of the text, in their order. -/
theorem Program.leaves_ofTokens {locate : Position → Location} {ts : List Token} {p : Program}
    (accepted : ofTokens locate ts = .ok p) :
    p.leaves = Token.leaves (ts.takeWhile (·.kind ≠ .endOfText)) := by
  obtain ⟨t, us, derives, kind⟩ := derivation_of_ofTokens accepted
  obtain ⟨front, rfl, only, same⟩ := derives.leaves
  have taken : (front ++ t :: us).takeWhile (·.kind ≠ .endOfText) = front := by
    rw [List.takeWhile_append_of_pos fun s mem => decide_eq_true (only s mem),
      List.takeWhile_cons_of_neg (by simp [kind]), List.append_nil]
  rw [taken, same]
  rfl

end Mini
