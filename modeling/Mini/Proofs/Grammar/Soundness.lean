import Mini.Proofs.Grammar.Budget
import Mini.Proofs.Grammar.Derivation

/-!
# What is read is derived

Every reading that succeeds is a derivation. Operators come back as a row: a reading at
some level takes in the operators that bind at least as tightly, and its tree is the
row's.

Only terminators are read more freely than they are derived. A statement may also end
without one before a closing parenthesis or bracket. No statement begins there, so the
reading of the statements around it is lost.
-/

namespace Mini.Grammar

variable {α β : Type}

/-- A composition succeeds only by way of its first part. -/
theorem bind_ok {r : Reading α} {f : α → Reading β} {b : β} (h : r >>= f = .ok b) :
    ∃ a, r = .ok a ∧ f a = .ok b := by
  cases r with
  | ok a => exact ⟨a, rfl, h⟩
  | error e => cases h

/-! ## Single tokens -/

theorem token_ok {kind : TokenKind} {expected : Expected} {ts rest : List Token} {t : Token}
    (h : token kind expected ts = .ok (t, rest)) : ts = t :: rest ∧ t.kind = kind := by
  cases ts with
  | nil => cases h
  | cons u us =>
      rw [token] at h
      split at h
      · cases h
        exact ⟨rfl, by assumption⟩
      · cases h

theorem comma_ok {ts rest : List Token} (h : comma ts = .ok rest) : OptionalComma ts rest := by
  cases ts with
  | nil => cases h
  | cons t ts =>
      rw [comma] at h
      split at h
      · cases h
        exact .present (by assumption)
      · cases h
        exact .absent

/-- Tokens at which the reading of statements cannot go on. -/
def Stuck : List Token → Prop
  | [] => False
  | t :: _ => t.kind = .closeParen ∨ t.kind = .closeBracket

theorem terminator_ok {ts rest : List Token} (h : terminator ts = .ok rest) :
    (∃ close, ts = close :: rest ∧ close.kind = .semicolon) ∨ Stuck rest := by
  cases ts with
  | nil => cases h
  | cons t ts =>
      rw [terminator] at h
      split at h
      · cases h
        exact Or.inr (Or.inl (by assumption))
      · cases h
        exact Or.inr (Or.inr (by assumption))
      · cases h
        exact Or.inl ⟨t, rfl, by assumption⟩
      · cases h

variable {locate : Position → Location}

theorem identifier_ok {expected : Expected} {ts rest : List Token} {id : Identifier}
    (h : identifier locate expected ts = .ok (id, rest)) :
    ∃ t, ts = t :: rest ∧ t.kind = .ident ∧ id = ⟨locate t.start, t.text⟩ := by
  obtain ⟨⟨t, us⟩, read, h⟩ := bind_ok h
  cases h
  obtain ⟨rfl, kind⟩ := token_ok read
  exact ⟨t, rfl, kind, rfl⟩

theorem parameters_ok {n : Nat} {ts rest : List Token} {params : List Identifier}
    (h : parameters locate n ts = .ok (params, rest)) : IsParameters locate ts params rest := by
  induction n generalizing ts params with
  | zero => cases h
  | succ n ih =>
      cases ts with
      | nil => cases h
      | cons t ts =>
          rw [parameters] at h
          split at h
          · cases h
            exact .close (by assumption)
          · cases h
          · obtain ⟨⟨param, us⟩, first, h⟩ := bind_ok h
            obtain ⟨vs, between, h⟩ := bind_ok h
            obtain ⟨⟨others, ws⟩, later, h⟩ := bind_ok h
            cases h
            obtain ⟨t', same, kind, rfl⟩ := identifier_ok first
            cases same
            exact .item kind (comma_ok between) (ih later)

/-! ## Rows of operators -/

/-- Tokens that do not carry an operand on. -/
def EndsOperand : List Token → Prop
  | [] => False
  | t :: _ => t.kind.beginsSuffix = false

/-- Tokens at which a reading of operators at some level stops. -/
def EndsLevel (level : Nat) : List Token → Prop
  | [] => False
  | t :: _ => t.kind.beginsSuffix = false ∧ t.kind.precedence < level

theorem EndsLevel.endsOperand {level : Nat} {ts : List Token} (h : EndsLevel level ts) :
    EndsOperand ts := by
  cases ts with
  | nil => exact h
  | cons t ts => exact h.1

theorem EndsLevel.endsExpr {ts : List Token} (h : EndsLevel 1 ts) : EndsExpr ts := by
  cases ts with
  | nil => exact h
  | cons t ts =>
      obtain ⟨suffix, lt⟩ := h
      refine ⟨suffix, ?_⟩
      have none : t.kind.precedence = 0 := by omega
      rw [TokenKind.isBinary, none]
      rfl

theorem IsOthers.append {ts us rest : List Token} {others more : List (Token × Expr)}
    (first : IsOthers locate ts others us) (later : IsOthers locate us more rest) :
    IsOthers locate ts (others ++ more) rest := by
  match first with
  | .nil => exact later
  | .cons binary operand behind => exact .cons binary operand (behind.append later)

/-- The operators in front of some tokens bind no more tightly than the outermost one of
an expression. -/
def FitsBefore (left : Expr) : List Token → Prop
  | [] => True
  | t :: _ => left.Fits t.kind.precedence

theorem fitsBefore_of_fits {left : Expr} (fits : ∀ precedence, left.Fits precedence)
    (ts : List Token) : FitsBefore left ts := by
  cases ts with
  | nil => trivial
  | cons t ts => exact fits _

/-- What the right operand of an operator leaves does not bind more tightly than the
operator. -/
theorem EndsLevel.fitsBefore {op : Token} {ts : List Token}
    (h : EndsLevel (op.kind.precedence + 1) ts) (location : Location) (left right : Expr) :
    FitsBefore (.binary location op left right) ts := by
  cases ts with
  | nil => trivial
  | cons t ts =>
      intro location op' l r same
      cases same
      exact Nat.le_of_lt_succ h.2

/-- The tree of a row whose first operator binds more loosely than those right behind it. -/
theorem join_right {left first : Expr} {op : Token} {inner outer : List (Token × Expr)}
    (fits : left.Fits op.kind.precedence)
    (tighter : ∀ other ∈ inner, op.kind.precedence < other.1.kind.precedence) :
    left.join ((op, first) :: inner ++ outer) =
      (Expr.binary left.location op left (first.join inner)).join outer := by
  rw [Expr.join_append, Expr.join_cons, Expr.attach_of_fits fits,
    Expr.join_tighter _ _ _ _ tighter]

/-- An expression read at some level: a row of operators that bind at least as tightly. -/
structure ReadAtLevel (locate : Position → Location) (level : Nat) (ts : List Token) (e : Expr)
    (rest : List Token) : Prop where
  row : ∃ first others us, IsPrefixed locate ts first us ∧ IsOthers locate us others rest ∧
    (∀ other ∈ others, level ≤ other.1.kind.precedence) ∧ e = first.join others
  ends : EndsLevel level rest

theorem ReadAtLevel.isExpr {ts rest : List Token} {e : Expr}
    (h : ReadAtLevel locate 1 ts e rest) : IsExpr locate ts e rest := by
  obtain ⟨⟨first, others, us, operand, behind, -, rfl⟩, ends⟩ := h
  exact .join operand behind ends.endsExpr

/-! ## All parts of the grammar -/

/-- What the readings with a budget of `n` calls give is derived. -/
structure SoundAt (locate : Position → Location) (n : Nat) : Prop where
  binary {level ts e rest} : 1 ≤ level → binary locate n level ts = .ok (e, rest) →
    ReadAtLevel locate level ts e rest
  operators {level left ts e rest} : 1 ≤ level → EndsOperand ts → FitsBefore left ts →
    operators locate n level left ts = .ok (e, rest) →
    EndsLevel level rest ∧ ∃ others, IsOthers locate ts others rest ∧
      (∀ other ∈ others, level ≤ other.1.kind.precedence) ∧ e = left.join others
  unary {ts e rest} : unary locate n ts = .ok (e, rest) →
    IsPrefixed locate ts e rest ∧ EndsOperand rest
  suffixes {base ts e rest} : suffixes locate n base ts = .ok (e, rest) →
    IsSuffixed locate base ts e rest ∧ EndsOperand rest
  operand {ts e rest} : operand locate n ts = .ok (e, rest) → IsOperand locate ts e rest
  arguments {ts args rest} : arguments locate n ts = .ok (args, rest) →
    IsArguments locate ts args rest
  elements {ts elements' rest} : elements locate n ts = .ok (elements', rest) →
    IsElements locate ts elements' rest
  element {t ts element' rest} : element locate n (locate t.start) (t :: ts) = .ok (element', rest) →
    IsElement locate (t :: ts) element' rest
  block {expected ts body rest} : block locate n expected ts = .ok (body, rest) →
    IsBlock locate ts body rest
  body {ts statements' rest} : statements locate n true ts = .ok (statements', rest) →
    ∃ close, IsStmts locate ts statements' (close :: rest) ∧ close.kind = .closeBrace
  program {ts statements' rest} : statements locate n false ts = .ok (statements', rest) →
    IsStmts locate ts statements' rest ∧ ∃ t us, rest = t :: us ∧ t.kind = .endOfText
  statement {ts statement' rest} : statement locate n ts = .ok (statement', rest) →
    IsStmt locate ts statement' rest ∨ Stuck rest
  returned {ts value rest} : returned locate n ts = .ok (value, rest) →
    (value = none ∧ rest = ts) ∨ ∃ e, value = some e ∧ IsExpr locate ts e rest
  branch {location ts branch' rest} : branch locate n location ts = .ok (branch', rest) →
    IsBranch locate location ts branch' rest ∨ Stuck rest
  otherwise {ts otherwise' rest} : otherwise locate n ts = .ok (otherwise', rest) →
    (∃ other close, otherwise' = .block other ∧ IsBlock locate ts other (close :: rest) ∧
        close.kind = .semicolon) ∨
      (∃ again us next, ts = again :: us ∧ again.kind = .ifWord ∧ otherwise' = .branch next ∧
        IsBranch locate (locate again.start) us next rest) ∨ Stuck rest

/-- No statements are read where the reading is stuck. -/
theorem statements_stuck {n : Nat} {inBlock : Bool} {ts rest : List Token} {statements' : List Stmt}
    (stuck : Stuck ts) (h : statements locate n inBlock ts = .ok (statements', rest)) : False := by
  cases n with
  | zero => cases h
  | succ n =>
      cases ts with
      | nil => cases h
      | cons t ts =>
          have begins : t.kind ≠ .endOfText ∧ t.kind ≠ .closeBrace := by
            rcases stuck with kind | kind <;> rw [kind] <;> exact ⟨by decide, by decide⟩
          rw [statements, if_neg begins.1, if_neg fun both => begins.2 both.1] at h
          obtain ⟨⟨first, us⟩, read, -⟩ := bind_ok h
          cases n with
          | zero => cases read
          | succ n =>
              rw [statement] at read
              rcases stuck with kind | kind <;> rw [kind] at read <;> cases read

section Step

variable {n : Nat} (ih : SoundAt locate n)
include ih

theorem sound_expr {ts rest : List Token} {e : Expr} (h : binary locate n 1 ts = .ok (e, rest)) :
    IsExpr locate ts e rest :=
  (ih.binary (Nat.le_refl 1) h).isExpr

theorem sound_binary {level : Nat} {ts rest : List Token} {e : Expr} (positive : 1 ≤ level)
    (h : binary locate (n + 1) level ts = .ok (e, rest)) : ReadAtLevel locate level ts e rest := by
  rw [binary] at h
  obtain ⟨⟨left, us⟩, first, h⟩ := bind_ok h
  obtain ⟨operand, ends⟩ := ih.unary first
  have fits := fitsBefore_of_fits operand.fits us
  obtain ⟨endsLevel, others, behind, tight, rfl⟩ := ih.operators positive ends fits h
  exact ⟨⟨left, others, us, operand, behind, tight, rfl⟩, endsLevel⟩

theorem sound_operators {level : Nat} {left e : Expr} {ts rest : List Token} (positive : 1 ≤ level)
    (ends : EndsOperand ts) (fits : FitsBefore left ts)
    (h : operators locate (n + 1) level left ts = .ok (e, rest)) :
    EndsLevel level rest ∧ ∃ others, IsOthers locate ts others rest ∧
      (∀ other ∈ others, level ≤ other.1.kind.precedence) ∧ e = left.join others := by
  cases ts with
  | nil => cases h
  | cons op ts =>
      rw [operators] at h
      dsimp only at h
      split at h
      · cases h
        refine ⟨⟨ends, by assumption⟩, [], .nil, ?_, rfl⟩
        intro other mem
        cases mem
      · rename_i tight
        obtain ⟨⟨right, us⟩, read, h⟩ := bind_ok h
        have operand := ih.binary (Nat.le_add_left 1 _) read
        -- the right operand is a row of its own, and the rest of this row comes behind it
        obtain ⟨⟨first, inner, vs, isFirst, isInner, tighter, rfl⟩, stops⟩ := operand
        obtain ⟨endsLevel, outer, isOuter, tight', rfl⟩ :=
          ih.operators positive stops.endsOperand
            (stops.fitsBefore left.location left (first.join inner)) h
        refine ⟨endsLevel, ((op, first) :: inner) ++ outer, ?_, ?_, ?_⟩
        · have isBinary : op.kind.isBinary = true := by
            unfold TokenKind.isBinary
            rw [decide_eq_true_eq]
            omega
          exact .append (.cons isBinary isFirst isInner) isOuter
        · intro other mem
          rcases List.mem_append.mp mem with mem | mem
          · rcases List.mem_cons.mp mem with rfl | mem
            · exact Nat.le_of_not_lt tight
            · have := tighter other mem
              omega
          · exact tight' other mem
        · exact (join_right fits tighter).symm

theorem sound_unary {ts rest : List Token} {e : Expr}
    (h : unary locate (n + 1) ts = .ok (e, rest)) :
    IsPrefixed locate ts e rest ∧ EndsOperand rest := by
  cases ts with
  | nil => cases h
  | cons op ts =>
      rw [unary] at h
      split at h
      · rename_i isUnary
        obtain ⟨⟨inner, us⟩, read, h⟩ := bind_ok h
        cases h
        obtain ⟨isPrefixed, ends⟩ := ih.unary read
        exact ⟨.unary isUnary isPrefixed, ends⟩
      · obtain ⟨⟨base, us⟩, read, h⟩ := bind_ok h
        obtain ⟨behind, ends⟩ := ih.suffixes h
        exact ⟨.operand (ih.operand read) behind, ends⟩

theorem sound_suffixes {base e : Expr} {ts rest : List Token}
    (h : suffixes locate (n + 1) base ts = .ok (e, rest)) :
    IsSuffixed locate base ts e rest ∧ EndsOperand rest := by
  cases ts with
  | nil => cases h
  | cons t ts =>
      rw [suffixes] at h
      split at h
      · rename_i kind
        obtain ⟨⟨selector, us⟩, read, h⟩ := bind_ok h
        obtain ⟨behind, ends⟩ := ih.suffixes h
        obtain ⟨name, rfl, isName, rfl⟩ := identifier_ok read
        exact ⟨.select kind isName behind, ends⟩
      · rename_i kind
        obtain ⟨⟨key, us⟩, read, h⟩ := bind_ok h
        obtain ⟨⟨close, vs⟩, closed, h⟩ := bind_ok h
        obtain ⟨behind, ends⟩ := ih.suffixes h
        obtain ⟨rfl, isClose⟩ := token_ok closed
        exact ⟨.index kind (sound_expr ih read) isClose behind, ends⟩
      · rename_i kind
        obtain ⟨⟨args, us⟩, read, h⟩ := bind_ok h
        obtain ⟨behind, ends⟩ := ih.suffixes h
        exact ⟨.call kind (ih.arguments read) behind, ends⟩
      · rename_i period bracket paren
        cases h
        refine ⟨.nil, ?_⟩
        show t.kind.beginsSuffix = false
        unfold TokenKind.beginsSuffix
        split
        · exact absurd (by assumption) period
        · exact absurd (by assumption) bracket
        · exact absurd (by assumption) paren
        · rfl

theorem sound_operand {ts rest : List Token} {e : Expr}
    (h : operand locate (n + 1) ts = .ok (e, rest)) : IsOperand locate ts e rest := by
  cases ts with
  | nil => cases h
  | cons t ts =>
      rw [operand] at h
      split at h
      · cases h
        exact .ident (by assumption)
      · rename_i kind
        cases readable : Text.readInteger t.text with
        | error fault => rw [readable] at h; cases h
        | ok value =>
            rw [readable] at h
            cases h
            exact .number kind readable
      · cases h
        exact .text (by assumption)
      · rename_i kind
        obtain ⟨⟨inner, us⟩, read, h⟩ := bind_ok h
        obtain ⟨⟨close, vs⟩, closed, h⟩ := bind_ok h
        cases h
        obtain ⟨rfl, isClose⟩ := token_ok closed
        exact .paren kind (sound_expr ih read) isClose
      · rename_i kind
        obtain ⟨⟨elements, us⟩, read, h⟩ := bind_ok h
        cases h
        exact .array kind (ih.elements read)
      · rename_i kind
        obtain ⟨⟨opening, us⟩, opened, h⟩ := bind_ok h
        obtain ⟨⟨params, vs⟩, read, h⟩ := bind_ok h
        obtain ⟨⟨body, ws⟩, done, h⟩ := bind_ok h
        cases h
        obtain ⟨rfl, isOpening⟩ := token_ok opened
        exact .func kind isOpening (parameters_ok read) (ih.block done)
      · cases h

theorem sound_arguments {ts rest : List Token} {args : List Expr}
    (h : arguments locate (n + 1) ts = .ok (args, rest)) : IsArguments locate ts args rest := by
  cases ts with
  | nil => cases h
  | cons t ts =>
      rw [arguments] at h
      split at h
      · cases h
        exact .close (by assumption)
      · cases h
      · obtain ⟨⟨arg, us⟩, first, h⟩ := bind_ok h
        obtain ⟨vs, between, h⟩ := bind_ok h
        obtain ⟨⟨others, ws⟩, later, h⟩ := bind_ok h
        cases h
        exact .item (sound_expr ih first) (comma_ok between) (ih.arguments later)

theorem sound_elements {ts rest : List Token} {elements' : List Element}
    (h : elements locate (n + 1) ts = .ok (elements', rest)) :
    IsElements locate ts elements' rest := by
  cases ts with
  | nil => cases h
  | cons t ts =>
      rw [elements] at h
      split at h
      · cases h
        exact .close (by assumption)
      · cases h
      · obtain ⟨⟨element, us⟩, first, h⟩ := bind_ok h
        obtain ⟨vs, between, h⟩ := bind_ok h
        obtain ⟨⟨others, ws⟩, later, h⟩ := bind_ok h
        cases h
        exact .item (ih.element first) (comma_ok between) (ih.elements later)

theorem sound_element {t : Token} {ts rest : List Token} {element' : Element}
    (h : element locate (n + 1) (locate t.start) (t :: ts) = .ok (element', rest)) :
    IsElement locate (t :: ts) element' rest := by
  rw [element] at h
  obtain ⟨⟨first, us⟩, read, h⟩ := bind_ok h
  have key := sound_expr ih read
  cases us with
  | nil => cases h
  | cons next us =>
      dsimp only at h
      split at h
      · rename_i colon
        obtain ⟨⟨value, vs⟩, read', h⟩ := bind_ok h
        cases h
        exact .keyed key colon (sound_expr ih read')
      · cases h
        exact .plain key

theorem sound_block {expected : Expected} {ts rest : List Token} {body : Block}
    (h : block locate (n + 1) expected ts = .ok (body, rest)) : IsBlock locate ts body rest := by
  rw [block] at h
  obtain ⟨⟨opening, us⟩, opened, h⟩ := bind_ok h
  obtain ⟨⟨statements, vs⟩, read, h⟩ := bind_ok h
  cases h
  obtain ⟨rfl, isOpening⟩ := token_ok opened
  obtain ⟨close, inside, isClose⟩ := ih.body read
  exact .braces isOpening inside isClose

theorem sound_body {ts rest : List Token} {statements' : List Stmt}
    (h : statements locate (n + 1) true ts = .ok (statements', rest)) :
    ∃ close, IsStmts locate ts statements' (close :: rest) ∧ close.kind = .closeBrace := by
  cases ts with
  | nil => cases h
  | cons t ts =>
      rw [statements] at h
      split at h
      · cases h
      · split at h
        · rename_i both
          cases h
          exact ⟨t, .nil, both.1⟩
        · obtain ⟨⟨first, us⟩, read, h⟩ := bind_ok h
          obtain ⟨⟨others, vs⟩, later, h⟩ := bind_ok h
          cases h
          obtain ⟨close, isOthers, isClose⟩ := ih.body later
          rcases ih.statement read with isFirst | stuck
          · exact ⟨close, .cons isFirst isOthers, isClose⟩
          · exact (statements_stuck stuck later).elim

theorem sound_program {ts rest : List Token} {statements' : List Stmt}
    (h : statements locate (n + 1) false ts = .ok (statements', rest)) :
    IsStmts locate ts statements' rest ∧ ∃ t us, rest = t :: us ∧ t.kind = .endOfText := by
  cases ts with
  | nil => cases h
  | cons t ts =>
      rw [statements] at h
      split at h
      · rename_i kind
        cases h
        exact ⟨.nil, t, ts, rfl, kind⟩
      · split at h
        · rename_i both
          exact absurd both.2 (by decide)
        · obtain ⟨⟨first, us⟩, read, h⟩ := bind_ok h
          obtain ⟨⟨others, vs⟩, later, h⟩ := bind_ok h
          cases h
          obtain ⟨isOthers, ends⟩ := ih.program later
          rcases ih.statement read with isFirst | stuck
          · exact ⟨.cons isFirst isOthers, ends⟩
          · exact (statements_stuck stuck later).elim

theorem sound_sentence {t : Token} {ts rest : List Token} {statement' : Stmt}
    (begins : t.kind.beginsTarget = true)
    (h : sentence locate n t ts = .ok (statement', rest)) :
    IsStmt locate (t :: ts) statement' rest ∨ Stuck rest := by
  unfold sentence at h
  obtain ⟨⟨first, us⟩, read, h⟩ := bind_ok h
  have target := sound_expr ih read
  cases us with
  | nil => cases h
  | cons next us =>
      dsimp only at h
      split at h
      · rename_i isAssign
        obtain ⟨⟨value, vs⟩, read', h⟩ := bind_ok h
        obtain ⟨ws, ended, h⟩ := bind_ok h
        cases h
        rcases terminator_ok ended with ⟨close, same, isClose⟩ | stuck
        · have same : vs = close :: rest := same
          subst same
          exact Or.inl (.assign begins target isAssign (sound_expr ih read') isClose)
        · exact Or.inr stuck
      · cases h
        exact Or.inl (.expr begins target)

theorem sound_statement {ts rest : List Token} {statement' : Stmt}
    (h : statement locate (n + 1) ts = .ok (statement', rest)) :
    IsStmt locate ts statement' rest ∨ Stuck rest := by
  cases ts with
  | nil => cases h
  | cons t ts =>
      have expression : t.kind.beginsTarget = true →
          sentence locate n t ts = .ok (statement', rest) →
          IsStmt locate (t :: ts) statement' rest ∨ Stuck rest := sound_sentence ih
      rw [statement] at h
      split at h
      · obtain ⟨⟨body, us⟩, read, h⟩ := bind_ok h
        obtain ⟨vs, ended, h⟩ := bind_ok h
        cases h
        rcases terminator_ok ended with ⟨close, same, isClose⟩ | stuck
        · have same : us = close :: rest := same
          subst same
          exact Or.inl (.block (ih.block read) isClose)
        · exact Or.inr stuck
      · rename_i kind
        obtain ⟨⟨branch, us⟩, read, h⟩ := bind_ok h
        cases h
        rcases ih.branch read with isBranch | stuck
        · exact Or.inl (.cond kind isBranch)
        · exact Or.inr stuck
      · cases h
        exact Or.inl (.empty (by assumption))
      · rename_i kind
        obtain ⟨⟨test, us⟩, read, h⟩ := bind_ok h
        obtain ⟨⟨body, vs⟩, done, h⟩ := bind_ok h
        cases h
        exact Or.inl (.loop kind (sound_expr ih read) (ih.block done))
      · rename_i kind
        obtain ⟨⟨value, us⟩, read, h⟩ := bind_ok h
        obtain ⟨vs, ended, h⟩ := bind_ok h
        cases h
        rcases terminator_ok ended with ⟨close, same, isClose⟩ | stuck
        · have same : us = close :: rest := same
          subst same
          rcases ih.returned read with ⟨rfl, rfl⟩ | ⟨e, rfl, isExpr⟩
          · exact Or.inl (.ret kind isClose)
          · exact Or.inl (.retValue kind isExpr isClose)
        · exact Or.inr stuck
      · rename_i kind
        exact expression (by rw [kind]; rfl) h
      · rename_i kind
        exact expression (by rw [kind]; rfl) h
      · rename_i kind
        exact expression (by rw [kind]; rfl) h
      · cases h

theorem sound_returned {ts rest : List Token} {value : Option Expr}
    (h : returned locate (n + 1) ts = .ok (value, rest)) :
    (value = none ∧ rest = ts) ∨ ∃ e, value = some e ∧ IsExpr locate ts e rest := by
  cases ts with
  | nil => cases h
  | cons t ts =>
      rw [returned] at h
      split at h
      · cases h
        exact Or.inl ⟨rfl, rfl⟩
      · cases h
        exact Or.inl ⟨rfl, rfl⟩
      · obtain ⟨⟨e, us⟩, read, h⟩ := bind_ok h
        cases h
        exact Or.inr ⟨e, rfl, sound_expr ih read⟩

theorem sound_branch {location : Location} {ts rest : List Token} {branch' : Branch}
    (h : branch locate (n + 1) location ts = .ok (branch', rest)) :
    IsBranch locate location ts branch' rest ∨ Stuck rest := by
  rw [branch] at h
  obtain ⟨⟨test, us⟩, read, h⟩ := bind_ok h
  obtain ⟨⟨body, vs⟩, done, h⟩ := bind_ok h
  have isTest := sound_expr ih read
  have isBody := ih.block done
  cases vs with
  | nil => cases h
  | cons t vs =>
      dsimp only at h isBody
      split at h
      · rename_i isElse
        obtain ⟨⟨otherwise, ws⟩, read', h⟩ := bind_ok h
        cases h
        rcases ih.otherwise read' with ⟨other, close, rfl, isOther, isClose⟩ | other | stuck
        · exact Or.inl (.block isTest isBody isElse isOther isClose)
        · obtain ⟨again, us', next, rfl, isIf, rfl, isNext⟩ := other
          exact Or.inl (.branch isTest isBody isElse isIf isNext)
        · exact Or.inr stuck
      · obtain ⟨ws, ended, h⟩ := bind_ok h
        cases h
        rcases terminator_ok ended with ⟨close, same, isClose⟩ | stuck
        · cases same
          exact Or.inl (.single isTest isBody isClose)
        · exact Or.inr stuck

theorem sound_otherwise {ts rest : List Token} {otherwise' : Otherwise}
    (h : otherwise locate (n + 1) ts = .ok (otherwise', rest)) :
    (∃ other close, otherwise' = .block other ∧ IsBlock locate ts other (close :: rest) ∧
        close.kind = .semicolon) ∨
      (∃ again us next, ts = again :: us ∧ again.kind = .ifWord ∧ otherwise' = .branch next ∧
        IsBranch locate (locate again.start) us next rest) ∨ Stuck rest := by
  cases ts with
  | nil => cases h
  | cons t ts =>
      rw [otherwise] at h
      split at h
      · rename_i isIf
        obtain ⟨⟨next, us⟩, read, h⟩ := bind_ok h
        cases h
        rcases ih.branch read with isNext | stuck
        · exact Or.inr (Or.inl ⟨t, ts, next, rfl, isIf, rfl, isNext⟩)
        · exact Or.inr (Or.inr stuck)
      · obtain ⟨⟨body, us⟩, read, h⟩ := bind_ok h
        obtain ⟨vs, ended, h⟩ := bind_ok h
        cases h
        rcases terminator_ok ended with ⟨close, same, isClose⟩ | stuck
        · have same : us = close :: rest := same
          subst same
          exact Or.inl ⟨body, close, rfl, ih.block read, isClose⟩
        · exact Or.inr (Or.inr stuck)

end Step

theorem soundAt (n : Nat) : SoundAt locate n := by
  induction n with
  | zero => constructor <;> intros <;> rename_i read <;> cases read
  | succ n ih =>
      exact {
        binary := sound_binary ih
        operators := sound_operators ih
        unary := sound_unary ih
        suffixes := sound_suffixes ih
        operand := sound_operand ih
        arguments := sound_arguments ih
        elements := sound_elements ih
        element := sound_element ih
        block := sound_block ih
        body := sound_body ih
        program := sound_program ih
        statement := sound_statement ih
        returned := sound_returned ih
        branch := sound_branch ih
        otherwise := sound_otherwise ih }

end Mini.Grammar
