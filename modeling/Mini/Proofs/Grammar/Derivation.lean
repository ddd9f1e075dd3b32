import Mini.Syntax.Grammar

/-!
# Derivations

The grammar as rules, apart from any way of reading it. A rule says of which tokens a
part of the grammar is made and which tree stands for them; the tokens that come after
the part are given too, since an expression takes in all that can carry it on.

Operators are left out of the rules. An expression is a row of operands with operators
between them, and `Expr.join` makes a tree of it, from left to right: a new operator
goes below the ones on the right edge that bind less tightly.
-/

namespace Mini

/-- The operators that stand between two operands. -/
def TokenKind.isBinary (kind : TokenKind) : Bool :=
  kind.precedence ≠ 0

/-- The tokens that carry an operand on: a selector, an index or a call begins there. -/
def TokenKind.beginsSuffix : TokenKind → Bool
  | .period | .openBracket | .openParen => true
  | _ => false

/-- The tokens with which an assignment or a statement of an expression begins. -/
def TokenKind.beginsTarget : TokenKind → Bool
  | .ident | .openBracket | .openParen => true
  | _ => false

/-- The tokens with which an expression begins. -/
def TokenKind.beginsExpr (kind : TokenKind) : Bool :=
  kind.isUnary ||
    match kind with
    | .ident | .number | .string | .openParen | .openBracket | .funcWord => true
    | _ => false

/-- The tokens with which a statement begins. -/
def TokenKind.beginsStmt (kind : TokenKind) : Bool :=
  kind.beginsTarget ||
    match kind with
    | .openBrace | .ifWord | .semicolon | .whileWord | .returnWord => true
    | _ => false

namespace Expr

/-- Adds an operator and an operand on the right of an expression. -/
def attach (left : Expr) (op : Token) (right : Expr) : Expr :=
  match left with
  | .binary location inner l r =>
      if inner.kind.precedence < op.kind.precedence then .binary location inner l (attach r op right)
      else .binary location op left right
  | _ => .binary left.location op left right

/-- The tree of a row of operands with operators between them. -/
def join (first : Expr) (others : List (Token × Expr)) : Expr :=
  others.foldl (fun left other => left.attach other.1 other.2) first

theorem join_cons (first : Expr) (op : Token) (e : Expr) (others : List (Token × Expr)) :
    first.join ((op, e) :: others) = (first.attach op e).join others :=
  rfl

theorem join_append (first : Expr) (others more : List (Token × Expr)) :
    first.join (others ++ more) = (first.join others).join more :=
  List.foldl_append

/-- An expression that an operator of the given precedence takes as a whole for its left
operand. -/
def Fits (left : Expr) (precedence : Nat) : Prop :=
  ∀ location op l r, left = .binary location op l r → precedence ≤ op.kind.precedence

theorem attach_of_fits {left : Expr} {op : Token} (fits : left.Fits op.kind.precedence)
    (right : Expr) : left.attach op right = .binary left.location op left right := by
  cases left with
  | binary location inner l r =>
      have le := fits location inner l r rfl
      rw [attach, if_neg (Nat.not_lt_of_le le)]
      rfl
  | number | text | ident | func | array | unary | index | select | paren | call => rfl

/-- Operators that bind more tightly go below one that is there. -/
theorem join_tighter (location : Location) (op : Token) (l r : Expr)
    {others : List (Token × Expr)}
    (tighter : ∀ other ∈ others, op.kind.precedence < other.1.kind.precedence) :
    (Expr.binary location op l r).join others = .binary location op l (r.join others) := by
  induction others generalizing r with
  | nil => rfl
  | cons other others ih =>
      obtain ⟨next, e⟩ := other
      have lt := tighter (next, e) List.mem_cons_self
      have below : (Expr.binary location op l r).attach next e =
          .binary location op l (r.attach next e) := by
        rw [attach, if_pos lt]
      rw [join_cons, join_cons, below]
      exact ih _ fun other mem => tighter other (List.mem_cons_of_mem _ mem)

end Expr

namespace Grammar

/-- The tokens that may follow an expression: there are some, and the first one neither
carries an operand on nor stands between operands. -/
def EndsExpr : List Token → Prop
  | [] => False
  | t :: _ => t.kind.beginsSuffix = false ∧ t.kind.isBinary = false

/-- A comma that may be there or not. -/
inductive OptionalComma : List Token → List Token → Prop
  | absent {ts : List Token} : OptionalComma ts ts
  | present {t : Token} {ts : List Token} : t.kind = .comma → OptionalComma (t :: ts) ts

variable (locate : Position → Location)

/-- Parameters and the closing parenthesis. -/
inductive IsParameters : List Token → List Identifier → List Token → Prop
  | close {t : Token} {rest : List Token} : t.kind = .closeParen → IsParameters (t :: rest) [] rest
  | item {t : Token} {ts us rest : List Token} {params : List Identifier} :
      t.kind = .ident → OptionalComma ts us → IsParameters us params rest →
      IsParameters (t :: ts) (⟨locate t.start, t.text⟩ :: params) rest

mutual

/-- An expression. -/
inductive IsExpr : List Token → Expr → List Token → Prop
  | join {ts us rest : List Token} {first : Expr} {others : List (Token × Expr)} :
      IsPrefixed ts first us → IsOthers us others rest → EndsExpr rest →
      IsExpr ts (first.join others) rest

/-- The operators and operands behind the first operand of an expression. -/
inductive IsOthers : List Token → List (Token × Expr) → List Token → Prop
  | nil {rest : List Token} : IsOthers rest [] rest
  | cons {op : Token} {ts us rest : List Token} {e : Expr} {others : List (Token × Expr)} :
      op.kind.isBinary = true → IsPrefixed ts e us → IsOthers us others rest →
      IsOthers (op :: ts) ((op, e) :: others) rest

/-- An operand with the operators before it and all that is behind it. -/
inductive IsPrefixed : List Token → Expr → List Token → Prop
  | unary {op : Token} {ts rest : List Token} {inner : Expr} :
      op.kind.isUnary = true → IsPrefixed ts inner rest →
      IsPrefixed (op :: ts) (.unary (locate op.start) op inner) rest
  | operand {ts us rest : List Token} {base e : Expr} :
      IsOperand ts base us → IsSuffixed base us e rest → IsPrefixed ts e rest

/-- Selectors, indexes and calls behind a base. -/
inductive IsSuffixed : Expr → List Token → Expr → List Token → Prop
  | nil {base : Expr} {rest : List Token} : IsSuffixed base rest base rest
  | select {base e : Expr} {t name : Token} {ts rest : List Token} :
      t.kind = .period → name.kind = .ident →
      IsSuffixed (.select (locate t.start) base ⟨locate name.start, name.text⟩) ts e rest →
      IsSuffixed base (t :: name :: ts) e rest
  | index {base key e : Expr} {t close : Token} {ts us rest : List Token} :
      t.kind = .openBracket → IsExpr ts key (close :: us) → close.kind = .closeBracket →
      IsSuffixed (.index (locate t.start) base key) us e rest → IsSuffixed base (t :: ts) e rest
  | call {base e : Expr} {args : List Expr} {t : Token} {ts us rest : List Token} :
      t.kind = .openParen → IsArguments ts args us →
      IsSuffixed (.call (locate t.start) base args) us e rest → IsSuffixed base (t :: ts) e rest

/-- A name, a literal or an expression in parentheses. -/
inductive IsOperand : List Token → Expr → List Token → Prop
  | ident {t : Token} {rest : List Token} :
      t.kind = .ident → IsOperand (t :: rest) (.ident ⟨locate t.start, t.text⟩) rest
  | number {t : Token} {rest : List Token} {n : Int} :
      t.kind = .number → Text.readInteger t.text = .ok n →
      IsOperand (t :: rest) (.number (locate t.start) n) rest
  | text {t : Token} {rest : List Token} :
      t.kind = .string →
      IsOperand (t :: rest) (.text (locate t.start) (StringLiteral.decode t.text)) rest
  | paren {t close : Token} {ts rest : List Token} {inner : Expr} :
      t.kind = .openParen → IsExpr ts inner (close :: rest) → close.kind = .closeParen →
      IsOperand (t :: ts) (.paren (locate t.start) inner) rest
  | array {t : Token} {ts rest : List Token} {elements : List Element} :
      t.kind = .openBracket → IsElements ts elements rest →
      IsOperand (t :: ts) (.array (locate t.start) elements) rest
  | func {t opening : Token} {ts us rest : List Token} {params : List Identifier} {body : Block} :
      t.kind = .funcWord → opening.kind = .openParen → IsParameters locate ts params us →
      IsBlock us body rest →
      IsOperand (t :: opening :: ts) (.func (locate t.start) params body) rest

/-- Arguments and the closing parenthesis. -/
inductive IsArguments : List Token → List Expr → List Token → Prop
  | close {t : Token} {rest : List Token} : t.kind = .closeParen → IsArguments (t :: rest) [] rest
  | item {ts us vs rest : List Token} {arg : Expr} {args : List Expr} :
      IsExpr ts arg us → OptionalComma us vs → IsArguments vs args rest →
      IsArguments ts (arg :: args) rest

/-- Elements and the closing bracket. -/
inductive IsElements : List Token → List Element → List Token → Prop
  | close {t : Token} {rest : List Token} : t.kind = .closeBracket → IsElements (t :: rest) [] rest
  | item {ts us vs rest : List Token} {element : Element} {elements : List Element} :
      IsElement ts element us → OptionalComma us vs → IsElements vs elements rest →
      IsElements ts (element :: elements) rest

/-- A value, or a key, a colon and a value. -/
inductive IsElement : List Token → Element → List Token → Prop
  | plain {ts rest : List Token} {value : Expr} :
      IsExpr ts value rest → IsElement ts (.plain value) rest
  | keyed {t colon : Token} {ts us rest : List Token} {key value : Expr} :
      IsExpr (t :: ts) key (colon :: us) → colon.kind = .colon → IsExpr us value rest →
      IsElement (t :: ts) (.keyed (locate t.start) key value) rest

/-- Statements in braces. -/
inductive IsBlock : List Token → Block → List Token → Prop
  | braces {t close : Token} {ts rest : List Token} {statements : List Stmt} :
      t.kind = .openBrace → IsStmts ts statements (close :: rest) → close.kind = .closeBrace →
      IsBlock (t :: ts) (.mk (locate t.start) statements) rest

/-- Any number of statements. -/
inductive IsStmts : List Token → List Stmt → List Token → Prop
  | nil {rest : List Token} : IsStmts rest [] rest
  | cons {ts us rest : List Token} {statement : Stmt} {statements : List Stmt} :
      IsStmt ts statement us → IsStmts us statements rest →
      IsStmts ts (statement :: statements) rest

/-- One statement. -/
inductive IsStmt : List Token → Stmt → List Token → Prop
  | empty {t : Token} {rest : List Token} :
      t.kind = .semicolon → IsStmt (t :: rest) (.empty (locate t.start)) rest
  | block {ts rest : List Token} {body : Block} {close : Token} :
      IsBlock ts body (close :: rest) → close.kind = .semicolon → IsStmt ts (.block body) rest
  | cond {t : Token} {ts rest : List Token} {branch : Branch} :
      t.kind = .ifWord → IsBranch (locate t.start) ts branch rest →
      IsStmt (t :: ts) (.cond branch) rest
  | loop {t : Token} {ts us rest : List Token} {test : Expr} {body : Block} :
      t.kind = .whileWord → IsExpr ts test us → IsBlock us body rest →
      IsStmt (t :: ts) (.loop (locate t.start) test body) rest
  | ret {t close : Token} {rest : List Token} :
      t.kind = .returnWord → close.kind = .semicolon →
      IsStmt (t :: close :: rest) (.ret (locate t.start) none) rest
  | retValue {t close : Token} {ts rest : List Token} {value : Expr} :
      t.kind = .returnWord → IsExpr ts value (close :: rest) → close.kind = .semicolon →
      IsStmt (t :: ts) (.ret (locate t.start) (some value)) rest
  | assign {t eq close : Token} {ts us rest : List Token} {target value : Expr} :
      t.kind.beginsTarget = true → IsExpr (t :: ts) target (eq :: us) → eq.kind = .assign →
      IsExpr us value (close :: rest) → close.kind = .semicolon →
      IsStmt (t :: ts) (.assign (locate t.start) target value) rest
  | expr {t : Token} {ts rest : List Token} {value : Expr} :
      t.kind.beginsTarget = true → IsExpr (t :: ts) value rest →
      IsStmt (t :: ts) (.expr (locate t.start) value) rest

/-- What follows the word `if`, which stands at the given location. -/
inductive IsBranch : Location → List Token → Branch → List Token → Prop
  | single {location : Location} {ts us rest : List Token} {test : Expr} {body : Block}
      {close : Token} :
      IsExpr ts test us → IsBlock us body (close :: rest) → close.kind = .semicolon →
      IsBranch location ts (.mk location test body .nothing) rest
  | block {location : Location} {ts us vs rest : List Token} {test : Expr} {body other : Block}
      {word close : Token} :
      IsExpr ts test us → IsBlock us body (word :: vs) → word.kind = .elseWord →
      IsBlock vs other (close :: rest) → close.kind = .semicolon →
      IsBranch location ts (.mk location test body (.block other)) rest
  | branch {location : Location} {ts us vs rest : List Token} {test : Expr} {body : Block}
      {next : Branch} {word again : Token} :
      IsExpr ts test us → IsBlock us body (word :: again :: vs) → word.kind = .elseWord →
      again.kind = .ifWord → IsBranch (locate again.start) vs next rest →
      IsBranch location ts (.mk location test body (.branch next)) rest

end

/-! ## First tokens -/

variable {locate}

theorem IsOperand.begins {ts rest : List Token} {e : Expr} (h : IsOperand locate ts e rest) :
    ∃ t us, ts = t :: us ∧ t.kind.isUnary = false ∧ t.kind.beginsExpr = true := by
  cases h with
  | ident kind | number kind _ | text kind | paren kind _ _ | array kind _ | func kind _ _ _ =>
      exact ⟨_, _, rfl, by rw [kind]; rfl, by rw [kind]; rfl⟩

theorem IsPrefixed.begins {ts rest : List Token} {e : Expr} (h : IsPrefixed locate ts e rest) :
    ∃ t us, ts = t :: us ∧ t.kind.beginsExpr = true := by
  cases h with
  | @unary op us _ _ isUnary _ => exact ⟨op, us, rfl, Bool.or_eq_true_iff.mpr (Or.inl isUnary)⟩
  | operand base _ =>
      obtain ⟨t, us, begins, -, kind⟩ := base.begins
      exact ⟨t, us, begins, kind⟩

theorem IsExpr.begins {ts rest : List Token} {e : Expr} (h : IsExpr locate ts e rest) :
    ∃ t us, ts = t :: us ∧ t.kind.beginsExpr = true := by
  cases h with
  | join first _ _ => exact first.begins

theorem IsElement.begins {ts rest : List Token} {element : Element}
    (h : IsElement locate ts element rest) :
    ∃ t us, ts = t :: us ∧ t.kind.beginsExpr = true := by
  cases h with
  | plain value => exact value.begins
  | keyed key _ _ => exact key.begins

theorem IsBlock.begins {ts rest : List Token} {body : Block} (h : IsBlock locate ts body rest) :
    ∃ t us, ts = t :: us ∧ t.kind = .openBrace := by
  cases h with
  | braces kind _ _ => exact ⟨_, _, rfl, kind⟩

theorem IsStmt.begins {ts rest : List Token} {statement : Stmt}
    (h : IsStmt locate ts statement rest) :
    ∃ t us, ts = t :: us ∧ t.kind.beginsStmt = true := by
  cases h with
  | empty kind | cond kind _ | loop kind _ _ | ret kind _ | retValue kind _ _ =>
      exact ⟨_, _, rfl, by rw [kind]; rfl⟩
  | block body _ =>
      obtain ⟨t, us, begins, kind⟩ := body.begins
      exact ⟨t, us, begins, by rw [kind]; rfl⟩
  | assign kind _ _ _ _ | expr kind _ =>
      exact ⟨_, _, rfl, Bool.or_eq_true_iff.mpr (Or.inl kind)⟩

/-! ## Operands are taken as a whole -/

theorem IsOperand.fits {ts rest : List Token} {e : Expr} (h : IsOperand locate ts e rest)
    (precedence : Nat) : e.Fits precedence := by
  cases h <;> exact fun _ _ _ _ same => Expr.noConfusion same

theorem IsSuffixed.fits {precedence : Nat} : ∀ {base e : Expr} {ts rest : List Token},
    IsSuffixed locate base ts e rest → base.Fits precedence → e.Fits precedence
  | _, _, _, _, .nil, fits => fits
  | _, _, _, _, .select _ _ later, _ => later.fits fun _ _ _ _ same => Expr.noConfusion same
  | _, _, _, _, .index _ _ _ later, _ => later.fits fun _ _ _ _ same => Expr.noConfusion same
  | _, _, _, _, .call _ _ later, _ => later.fits fun _ _ _ _ same => Expr.noConfusion same

theorem IsPrefixed.fits {ts rest : List Token} {e : Expr} (h : IsPrefixed locate ts e rest)
    (precedence : Nat) : e.Fits precedence := by
  cases h with
  | unary _ _ => exact fun _ _ _ _ same => Expr.noConfusion same
  | operand base behind => exact behind.fits (base.fits precedence)

end Grammar

end Mini
