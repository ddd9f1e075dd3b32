import Mini.Proofs.Syntax.Spelling

/-!
# The words of a tree derive as the tree

If a tree was derived from tokens, then it can be derived from its own words as well, up to
places. The words differ from the tokens in commas and in the spelling of literals; all else
that a derivation looks at is the same. In particular each statement begins with the same kind
of token, so what follows an expression does not carry it on in the words either.
-/

namespace Mini

open Grammar Text

/-- A word as a token without a place. -/
def Word.token (w : Word) : Token :=
  ⟨w.1, w.2, default⟩

/-- Words as tokens without places, in front of other tokens. -/
def printed (words : List Word) (rest : List Token) : List Token :=
  words.map Word.token ++ rest

@[simp] theorem printed_nil (rest : List Token) : printed [] rest = rest :=
  rfl

@[simp] theorem printed_cons (w : Word) (words : List Word) (rest : List Token) :
    printed (w :: words) rest = w.token :: printed words rest :=
  rfl

@[simp] theorem printed_append (words words' : List Word) (rest : List Token) :
    printed (words ++ words') rest = printed words (printed words' rest) := by
  simp [printed]

namespace Grammar

/-- Every place is the same. -/
def nowhere (_ : Position) : Location :=
  default

variable {locate : Position → Location}

/-! ## First words -/

theorem IsExpr.ends {ts rest : List Token} {e : Expr} (h : IsExpr locate ts e rest) :
    EndsExpr rest := by
  cases h with
  | join _ _ ends => exact ends

/-- Whatever stands behind a base comes behind its words. -/
theorem IsSuffixed.words : ∀ {base e : Expr} {ts rest : List Token},
    IsSuffixed locate base ts e rest → ∃ words, e.words = base.words ++ words
  | _, _, _, _, .nil => ⟨[], (List.append_nil _).symm⟩
  | _, _, _, _, .select _ _ later | _, _, _, _, .index _ _ _ later | _, _, _, _, .call _ _ later => by
      obtain ⟨words, same⟩ := later.words
      rw [same, Expr.words, List.append_assoc]
      exact ⟨_, rfl⟩

/-- Some words begin with a word of the given kind. -/
def Heads (kind : TokenKind) (words : List Word) : Prop :=
  ∃ w later, words = w :: later ∧ w.1 = kind

theorem Heads.append {kind : TokenKind} {words : List Word} (h : Heads kind words)
    (more : List Word) : Heads kind (words ++ more) := by
  obtain ⟨w, later, rfl, same⟩ := h
  exact ⟨w, later ++ more, rfl, same⟩

theorem IsOperand.heads {t : Token} {ts rest : List Token} {e : Expr}
    (h : IsOperand locate (t :: ts) e rest) : Heads t.kind e.words := by
  cases h with
  | ident kind | number kind _ | text kind | paren kind _ _ | array kind _ | func kind _ _ _ =>
      rw [kind, Expr.words]
      exact ⟨_, _, rfl, rfl⟩

theorem IsPrefixed.heads {t : Token} {ts rest : List Token} {e : Expr}
    (h : IsPrefixed locate (t :: ts) e rest) : Heads t.kind e.words := by
  cases h with
  | unary =>
      rw [Expr.words]
      exact ⟨_, _, rfl, rfl⟩
  | operand base behind =>
      obtain ⟨words, same⟩ := behind.words
      rw [same]
      exact base.heads.append words

theorem IsExpr.heads {t : Token} {ts rest : List Token} {e : Expr}
    (h : IsExpr locate (t :: ts) e rest) : Heads t.kind e.words := by
  cases h with
  | join first _ _ =>
      rw [Expr.words_join]
      exact first.heads.append _

theorem IsBlock.heads {t : Token} {ts rest : List Token} {body : Block}
    (h : IsBlock locate (t :: ts) body rest) : Heads t.kind body.words := by
  cases h with
  | braces kind _ _ =>
      rw [kind, Block.words]
      exact ⟨_, _, rfl, rfl⟩

theorem IsStmt.heads {t : Token} {ts rest : List Token} {item : Stmt}
    (h : IsStmt locate (t :: ts) item rest) : Heads t.kind item.words := by
  cases h with
  | empty kind | cond kind _ | loop kind _ _ | ret kind _ | retValue kind _ _ =>
      rw [kind, Stmt.words]
      exact ⟨_, _, rfl, rfl⟩
  | block body _ =>
      rw [Stmt.words]
      exact body.heads.append _
  | assign _ target _ _ _ =>
      rw [Stmt.words]
      exact target.heads.append _
  | expr _ value =>
      rw [Stmt.words]
      exact value.heads

theorem Heads.endsExpr {t : Token} {words : List Word} (h : Heads t.kind words) {ts : List Token}
    (ends : EndsExpr (t :: ts)) (rest : List Token) : EndsExpr (printed words rest) := by
  obtain ⟨w, later, rfl, same⟩ := h
  obtain ⟨suffix, binary⟩ := ends
  rw [← same] at suffix binary
  exact ⟨suffix, binary⟩

theorem endsExpr_block (body : Block) (rest : List Token) :
    EndsExpr (printed body.words rest) := by
  cases body with
  | mk =>
      rw [Block.words]
      exact ⟨rfl, rfl⟩

/-- Behind a statement, the words of the others do not carry an expression on if the tokens do
not. -/
theorem IsStmts.endsExpr {ts rest rest' : List Token} {items : List Stmt}
    (h : IsStmts locate ts items rest) (follows : EndsExpr rest → EndsExpr rest')
    (ends : EndsExpr ts) : EndsExpr (printed (Stmt.listWords items) rest') := by
  cases h with
  | nil => exact follows ends
  | cons first _ =>
      obtain ⟨t, us, rfl, -⟩ := first.begins
      rw [Stmt.listWords, printed_append]
      exact first.heads.endsExpr ends _

/-! ## Lists -/

theorem IsParameters.printed {ts rest : List Token} {params : List Identifier}
    (h : IsParameters locate ts params rest) (rest' : List Token) :
    IsParameters nowhere
      (printed (listed (params.map fun param => [param.word]))
        (Word.token (.closeParen, ")") :: rest'))
      (params.map Identifier.bare) rest' := by
  induction h with
  | close => exact .close rfl
  | @item t _ _ _ params kind _ _ ih =>
      cases params with
      | nil => exact .item rfl .absent ih
      | cons next params => exact .item rfl (.present rfl) ih

/-! ## Expressions and statements -/

mutual

theorem IsExpr.printed {ts rest : List Token} {e : Expr} (h : IsExpr locate ts e rest)
    {rest' : List Token} (ends : EndsExpr rest') :
    IsExpr nowhere (printed e.words rest') e.bare rest' := by
  match h with
  | .join first behind _ =>
      rw [Expr.words_join, Expr.bare_join, printed_append]
      exact .join (first.printed _) (behind.printed rest') ends
termination_by structural h

theorem IsOthers.printed {ts rest : List Token} {others : List (Token × Expr)}
    (h : IsOthers locate ts others rest) (rest' : List Token) :
    IsOthers nowhere (printed (Expr.othersWords others) rest') (Expr.othersBare others) rest' := by
  match h with
  | .nil => exact .nil
  | .cons isBinary operand behind =>
      rw [Expr.othersWords_cons, printed_cons, printed_append]
      exact .cons isBinary (operand.printed _) (behind.printed rest')
termination_by structural h

theorem IsPrefixed.printed {ts rest : List Token} {e : Expr} (h : IsPrefixed locate ts e rest)
    (rest' : List Token) : IsPrefixed nowhere (printed e.words rest') e.bare rest' := by
  match h with
  | .unary isUnary inner =>
      rw [Expr.words, Expr.bare, printed_cons]
      exact .unary isUnary (inner.printed rest')
  | .operand base behind =>
      obtain ⟨words, same, suffixed⟩ := behind.printed
      rw [same, printed_append]
      exact .operand (base.printed _) (suffixed rest')
termination_by structural h

theorem IsSuffixed.printed {base e : Expr} {ts rest : List Token}
    (h : IsSuffixed locate base ts e rest) :
    ∃ words, e.words = base.words ++ words ∧
      ∀ rest', IsSuffixed nowhere base.bare (printed words rest') e.bare rest' := by
  match h with
  | .nil => exact ⟨[], (List.append_nil _).symm, fun _ => .nil⟩
  | .select _ _ later =>
      obtain ⟨words, same, suffixed⟩ := later.printed
      rw [same, Expr.words, List.append_assoc]
      exact ⟨_, rfl, fun rest' => .select rfl rfl (suffixed rest')⟩
  | .index _ key _ later =>
      obtain ⟨words, same, suffixed⟩ := later.printed
      rw [same, Expr.words, List.append_assoc]
      refine ⟨_, rfl, fun rest' => ?_⟩
      simp only [List.cons_append, List.append_assoc, printed_cons, printed_append, printed_nil]
      exact .index rfl (key.printed ⟨rfl, rfl⟩) rfl (suffixed rest')
  | .call _ args later =>
      obtain ⟨words, same, suffixed⟩ := later.printed
      rw [same, Expr.words, List.append_assoc]
      refine ⟨_, rfl, fun rest' => ?_⟩
      simp only [List.cons_append, List.append_assoc, printed_cons, printed_append, printed_nil]
      exact .call rfl (args.printed _) (suffixed rest')
termination_by structural h

theorem IsOperand.printed {ts rest : List Token} {e : Expr} (h : IsOperand locate ts e rest)
    (rest' : List Token) : IsOperand nowhere (printed e.words rest') e.bare rest' := by
  match h with
  | .ident _ => exact .ident rfl
  | .number _ read =>
      exact .number rfl (readInteger_integerText (length_digitsOf_of_readInteger read))
  | @IsOperand.text _ t _ _ =>
      have literal := @IsOperand.text nowhere
        (Word.token (.string, StringLiteral.encode (StringLiteral.decode t.text))) rest' rfl
      rw [Word.token, StringLiteral.decode_encode] at literal
      exact literal
  | .paren _ inner _ =>
      rw [Expr.words, Expr.bare, printed_cons, printed_append]
      exact .paren rfl (inner.printed ⟨rfl, rfl⟩) rfl
  | .array _ items =>
      rw [Expr.words, Expr.bare, printed_cons, printed_append]
      exact .array rfl (items.printed rest')
  | .func _ _ params body =>
      rw [Expr.words, Expr.bare, printed_cons, printed_cons, printed_append, printed_cons]
      exact .func rfl rfl (params.printed _) (body.printed rest')
termination_by structural h

theorem IsArguments.printed {ts rest : List Token} {args : List Expr}
    (h : IsArguments locate ts args rest) (rest' : List Token) :
    IsArguments nowhere
      (printed (listed (Expr.listWords args)) (Word.token (.closeParen, ")") :: rest'))
      (Expr.listBare args) rest' := by
  match h with
  | .close _ => exact .close rfl
  | @IsArguments.item _ _ _ _ _ arg args first _ later =>
      have later := later.printed rest'
      rw [Expr.listWords, Expr.listBare]
      cases args with
      | nil => exact .item (first.printed ⟨rfl, rfl⟩) .absent later
      | cons next args =>
          rw [Expr.listWords, listed, printed_append, printed_cons]
          exact .item (first.printed ⟨rfl, rfl⟩) (.present rfl) later
termination_by structural h

theorem IsElements.printed {ts rest : List Token} {items : List Element}
    (h : IsElements locate ts items rest) (rest' : List Token) :
    IsElements nowhere
      (printed (listed (Element.listWords items)) (Word.token (.closeBracket, "]") :: rest'))
      (Element.listBare items) rest' := by
  match h with
  | .close _ => exact .close rfl
  | @IsElements.item _ _ _ _ _ item items first _ later =>
      have later := later.printed rest'
      rw [Element.listWords, Element.listBare]
      cases items with
      | nil => exact .item (first.printed ⟨rfl, rfl⟩) .absent later
      | cons next items =>
          rw [Element.listWords, listed, printed_append, printed_cons]
          exact .item (first.printed ⟨rfl, rfl⟩) (.present rfl) later
termination_by structural h

theorem IsElement.printed {ts rest : List Token} {item : Element}
    (h : IsElement locate ts item rest) {rest' : List Token} (ends : EndsExpr rest') :
    IsElement nowhere (printed item.words rest') item.bare rest' := by
  match h with
  | .plain value => exact .plain (value.printed ends)
  | @IsElement.keyed _ _ _ _ _ _ key value first _ second =>
      have later : EndsExpr (Word.token (.colon, ":") :: printed value.words rest') := ⟨rfl, rfl⟩
      have first := first.printed later
      obtain ⟨t, us, same, -⟩ := first.begins
      rw [Element.words, Element.bare, printed_append, printed_cons]
      rw [same] at first ⊢
      exact .keyed first rfl (second.printed ends)
termination_by structural h

theorem IsBlock.printed {ts rest : List Token} {body : Block} (h : IsBlock locate ts body rest)
    (rest' : List Token) : IsBlock nowhere (printed body.words rest') body.bare rest' := by
  match h with
  | .braces _ inside _ =>
      rw [Block.words, Block.bare, printed_cons, printed_append]
      exact .braces rfl (inside.printed fun _ => ⟨rfl, rfl⟩) rfl
termination_by structural h

theorem IsStmts.printed {ts rest : List Token} {items : List Stmt}
    (h : IsStmts locate ts items rest) {rest' : List Token}
    (follows : EndsExpr rest → EndsExpr rest') :
    IsStmts nowhere (printed (Stmt.listWords items) rest') (Stmt.listBare items) rest' := by
  match h with
  | .nil => exact .nil
  | .cons first later =>
      rw [Stmt.listWords, Stmt.listBare, printed_append]
      exact .cons (first.printed (later.endsExpr follows)) (later.printed follows)
termination_by structural h

theorem IsStmt.printed {ts rest : List Token} {item : Stmt} (h : IsStmt locate ts item rest)
    {rest' : List Token} (follows : EndsExpr rest → EndsExpr rest') :
    IsStmt nowhere (printed item.words rest') item.bare rest' := by
  match h with
  | .empty _ => exact .empty rfl
  | .block body _ =>
      rw [Stmt.words, Stmt.bare, printed_append]
      exact .block (body.printed _) rfl
  | .cond _ next =>
      rw [Stmt.words, Stmt.bare, printed_cons]
      exact .cond rfl (next.printed rest')
  | .loop _ test body =>
      rw [Stmt.words, Stmt.bare, printed_cons, printed_append]
      exact .loop rfl (test.printed (endsExpr_block _ _)) (body.printed rest')
  | .ret _ _ => exact .ret rfl rfl
  | .retValue _ value _ =>
      rw [Stmt.words, Stmt.bare, printed_cons, printed_append]
      exact .retValue rfl (value.printed ⟨rfl, rfl⟩) rfl
  | @IsStmt.assign _ _ _ _ _ _ _ target value begins first _ second _ =>
      have later : EndsExpr (Word.token (.assign, "=") ::
          printed value.words (Word.token (.semicolon, ";") :: rest')) := ⟨rfl, rfl⟩
      obtain ⟨w, words, same, kind⟩ := first.heads
      have first := first.printed later
      rw [← kind] at begins
      rw [same, printed_cons] at first
      rw [Stmt.words, Stmt.bare, same, printed_append, printed_cons, printed_cons, printed_append]
      exact .assign begins first rfl (second.printed ⟨rfl, rfl⟩) rfl
  | .expr begins value =>
      obtain ⟨w, words, same, kind⟩ := value.heads
      have first := value.printed (follows value.ends)
      rw [← kind] at begins
      rw [same, printed_cons] at first
      rw [Stmt.words, Stmt.bare, same, printed_cons]
      exact .expr begins first
termination_by structural h

theorem IsBranch.printed {location : Location} {ts rest : List Token} {item : Branch}
    (h : IsBranch locate location ts item rest) (rest' : List Token) :
    IsBranch nowhere default (printed item.words rest') item.bare rest' := by
  match h with
  | .single test body _ =>
      rw [Branch.words, Branch.bare, printed_append, printed_append]
      exact .single (test.printed (endsExpr_block _ _)) (body.printed _) rfl
  | .block test body _ other _ =>
      rw [Branch.words, Branch.bare, printed_append, printed_append, Otherwise.words, printed_cons,
        printed_append]
      exact .block (test.printed (endsExpr_block _ _)) (body.printed _) rfl (other.printed _) rfl
  | .branch test body _ _ next =>
      rw [Branch.words, Branch.bare, printed_append, printed_append, Otherwise.words, printed_cons,
        printed_cons]
      exact .branch (test.printed (endsExpr_block _ _)) (body.printed _) rfl rfl
        (next.printed rest')
termination_by structural h

end

end Grammar

end Mini
