import Mini.Proofs.Syntax.Derived

/-!
# Places do not matter

A derivation looks at the kinds and the texts of tokens only. Where tokens stand, and which
locations are made of that, shows in the tree as places and nowhere else.
-/

namespace Mini.Grammar

open Text

/-! ## Tokens with the same words -/

theorem exists_cons_of_words {t : Token} {ts ts' : List Token}
    (same : ts'.map Token.word = (t :: ts).map Token.word) :
    ∃ t' us, ts' = t' :: us ∧ t'.kind = t.kind ∧ t'.text = t.text ∧
      us.map Token.word = ts.map Token.word := by
  obtain ⟨t', us, rfl, word, later⟩ := List.map_eq_cons_iff.mp same
  exact ⟨t', us, rfl, congrArg Prod.fst word, congrArg Prod.snd word, later⟩

theorem bare_of_word {t t' : Token} (kind : t'.kind = t.kind) (text : t'.text = t.text) :
    t'.bare = t.bare := by
  rw [Token.bare, Token.bare, kind, text]

theorem EndsExpr.of_words {ts ts' : List Token} (ends : EndsExpr ts)
    (same : ts'.map Token.word = ts.map Token.word) : EndsExpr ts' := by
  cases ts with
  | nil => exact ends.elim
  | cons t ts =>
      obtain ⟨t', us, rfl, kind, -, -⟩ := exists_cons_of_words same
      obtain ⟨suffix, binary⟩ := ends
      rw [← kind] at suffix binary
      exact ⟨suffix, binary⟩

theorem OptionalComma.of_words {ts us ts' : List Token} (h : OptionalComma ts us)
    (same : ts'.map Token.word = ts.map Token.word) :
    ∃ us', OptionalComma ts' us' ∧ us'.map Token.word = us.map Token.word := by
  cases h with
  | absent => exact ⟨ts', .absent, same⟩
  | present comma =>
      obtain ⟨t', us', rfl, kind, -, later⟩ := exists_cons_of_words same
      exact ⟨us', .present (kind.trans comma), later⟩

variable {locate locate' : Position → Location}

theorem IsParameters.elsewhere {ts rest : List Token} {params : List Identifier}
    (h : IsParameters locate ts params rest) {ts' : List Token}
    (same : ts'.map Token.word = ts.map Token.word) :
    ∃ params' rest', IsParameters locate' ts' params' rest' ∧
      rest'.map Token.word = rest.map Token.word ∧
      params'.map Identifier.bare = params.map Identifier.bare := by
  induction h generalizing ts' with
  | close isClose =>
      obtain ⟨t', us, rfl, kind, -, later⟩ := exists_cons_of_words same
      exact ⟨[], us, .close (kind.trans isClose), later, rfl⟩
  | item isName comma _ ih =>
      obtain ⟨t', us, rfl, kind, text, later⟩ := exists_cons_of_words same
      obtain ⟨vs, comma, later⟩ := comma.of_words later
      obtain ⟨params, rest', derived, later, bare⟩ := ih later
      refine ⟨_, rest', .item (kind.trans isName) comma derived, later, ?_⟩
      simp only [List.map_cons, bare, Identifier.bare, text]

/-! ## Expressions and statements -/

mutual

theorem IsExpr.elsewhere {ts rest : List Token} {e : Expr} (h : IsExpr locate ts e rest)
    {ts' : List Token} (same : ts'.map Token.word = ts.map Token.word) :
    ∃ e' rest', IsExpr locate' ts' e' rest' ∧ rest'.map Token.word = rest.map Token.word ∧
      e'.bare = e.bare := by
  match h with
  | .join first behind ends =>
      obtain ⟨first', us, derived, later, bare⟩ := first.elsewhere same
      obtain ⟨others', rest', derived', later, bare'⟩ := behind.elsewhere later
      refine ⟨_, rest', .join derived derived' (ends.of_words later), later, ?_⟩
      rw [Expr.bare_join, Expr.bare_join, bare, bare']
termination_by structural h

theorem IsOthers.elsewhere {ts rest : List Token} {others : List (Token × Expr)}
    (h : IsOthers locate ts others rest) {ts' : List Token}
    (same : ts'.map Token.word = ts.map Token.word) :
    ∃ others' rest', IsOthers locate' ts' others' rest' ∧
      rest'.map Token.word = rest.map Token.word ∧
      Expr.othersBare others' = Expr.othersBare others := by
  match h with
  | .nil => exact ⟨[], ts', .nil, same, rfl⟩
  | @IsOthers.cons _ op _ _ _ e others isBinary operand behind =>
      obtain ⟨op', us, rfl, kind, text, later⟩ := exists_cons_of_words same
      obtain ⟨e', us, derived, later, bare⟩ := operand.elsewhere later
      obtain ⟨others', rest', derived', later, bare'⟩ := behind.elsewhere later
      rw [← kind] at isBinary
      refine ⟨(op', e') :: others', rest', .cons isBinary derived derived', later, ?_⟩
      show (op'.bare, e'.bare) :: Expr.othersBare others' =
        (op.bare, e.bare) :: Expr.othersBare others
      rw [bare_of_word kind text, bare, bare']
termination_by structural h

theorem IsPrefixed.elsewhere {ts rest : List Token} {e : Expr} (h : IsPrefixed locate ts e rest)
    {ts' : List Token} (same : ts'.map Token.word = ts.map Token.word) :
    ∃ e' rest', IsPrefixed locate' ts' e' rest' ∧ rest'.map Token.word = rest.map Token.word ∧
      e'.bare = e.bare := by
  match h with
  | .unary isUnary inner =>
      obtain ⟨op', us, rfl, kind, text, later⟩ := exists_cons_of_words same
      obtain ⟨e', rest', derived, later, bare⟩ := inner.elsewhere later
      rw [← kind] at isUnary
      refine ⟨_, rest', .unary isUnary derived, later, ?_⟩
      rw [Expr.bare, Expr.bare, bare_of_word kind text, bare]
  | .operand base behind =>
      obtain ⟨base', us, derived, later, bare⟩ := base.elsewhere same
      obtain ⟨e', rest', derived', later, bare⟩ := behind.elsewhere bare later
      exact ⟨e', rest', .operand derived derived', later, bare⟩
termination_by structural h

theorem IsSuffixed.elsewhere {base e : Expr} {ts rest : List Token}
    (h : IsSuffixed locate base ts e rest) {base' : Expr} (bare : base'.bare = base.bare)
    {ts' : List Token} (same : ts'.map Token.word = ts.map Token.word) :
    ∃ e' rest', IsSuffixed locate' base' ts' e' rest' ∧
      rest'.map Token.word = rest.map Token.word ∧ e'.bare = e.bare := by
  match h with
  | .nil => exact ⟨base', ts', .nil, same, bare⟩
  | @IsSuffixed.select _ base _ _ name _ _ isPeriod isName later =>
      obtain ⟨t', us, rfl, kind, -, next⟩ := exists_cons_of_words same
      obtain ⟨name', us, rfl, kind', text, next⟩ := exists_cons_of_words next
      have bare : (Expr.select (locate' t'.start) base' ⟨locate' name'.start, name'.text⟩).bare =
          (Expr.select default base ⟨default, name.text⟩).bare := by
        simp only [Expr.bare, Identifier.bare, bare, text]
      obtain ⟨e', rest', derived, next, bare⟩ := later.elsewhere bare next
      exact ⟨e', rest', .select (kind.trans isPeriod) (kind'.trans isName) derived, next, bare⟩
  | @IsSuffixed.index _ base key _ _ _ _ _ _ isOpen isKey isClose later =>
      obtain ⟨t', us, rfl, kind, -, next⟩ := exists_cons_of_words same
      obtain ⟨key', us, derived, next, bareKey⟩ := isKey.elsewhere next
      obtain ⟨close', us, rfl, kind', -, next⟩ := exists_cons_of_words next
      have bare : (Expr.index (locate' t'.start) base' key').bare =
          (Expr.index default base key).bare := by
        simp only [Expr.bare, bare, bareKey]
      obtain ⟨e', rest', derived', next, bare⟩ := later.elsewhere bare next
      exact ⟨e', rest', .index (kind.trans isOpen) derived (kind'.trans isClose) derived', next,
        bare⟩
  | @IsSuffixed.call _ base _ args _ _ _ _ isOpen isArgs later =>
      obtain ⟨t', us, rfl, kind, -, next⟩ := exists_cons_of_words same
      obtain ⟨args', us, derived, next, bareArgs⟩ := isArgs.elsewhere next
      have bare : (Expr.call (locate' t'.start) base' args').bare =
          (Expr.call default base args).bare := by
        simp only [Expr.bare, bare, bareArgs]
      obtain ⟨e', rest', derived', next, bare⟩ := later.elsewhere bare next
      exact ⟨e', rest', .call (kind.trans isOpen) derived derived', next, bare⟩
termination_by structural h

theorem IsOperand.elsewhere {ts rest : List Token} {e : Expr} (h : IsOperand locate ts e rest)
    {ts' : List Token} (same : ts'.map Token.word = ts.map Token.word) :
    ∃ e' rest', IsOperand locate' ts' e' rest' ∧ rest'.map Token.word = rest.map Token.word ∧
      e'.bare = e.bare := by
  match h with
  | .ident isName =>
      obtain ⟨t', us, rfl, kind, text, later⟩ := exists_cons_of_words same
      refine ⟨_, us, .ident (kind.trans isName), later, ?_⟩
      simp only [Expr.bare, Identifier.bare, text]
  | .number isNumber read =>
      obtain ⟨t', us, rfl, kind, text, later⟩ := exists_cons_of_words same
      rw [← text] at read
      exact ⟨_, us, .number (kind.trans isNumber) read, later, rfl⟩
  | .text isString =>
      obtain ⟨t', us, rfl, kind, text, later⟩ := exists_cons_of_words same
      refine ⟨_, us, .text (kind.trans isString), later, ?_⟩
      simp only [Expr.bare, text]
  | .paren isOpen inner isClose =>
      obtain ⟨t', us, rfl, kind, -, later⟩ := exists_cons_of_words same
      obtain ⟨inner', us, derived, later, bare⟩ := inner.elsewhere later
      obtain ⟨close', us, rfl, kind', -, later⟩ := exists_cons_of_words later
      refine ⟨_, us, .paren (kind.trans isOpen) derived (kind'.trans isClose), later, ?_⟩
      simp only [Expr.bare, bare]
  | .array isOpen items =>
      obtain ⟨t', us, rfl, kind, -, later⟩ := exists_cons_of_words same
      obtain ⟨items', us, derived, later, bare⟩ := items.elsewhere later
      refine ⟨_, us, .array (kind.trans isOpen) derived, later, ?_⟩
      simp only [Expr.bare, bare]
  | .func isFunc isOpen params body =>
      obtain ⟨t', us, rfl, kind, -, later⟩ := exists_cons_of_words same
      obtain ⟨opening', us, rfl, kind', -, later⟩ := exists_cons_of_words later
      obtain ⟨params', us, derived, later, bare⟩ := params.elsewhere later
      obtain ⟨body', us, derived', later, bare'⟩ := body.elsewhere later
      refine ⟨_, us, .func (kind.trans isFunc) (kind'.trans isOpen) derived derived', later, ?_⟩
      simp only [Expr.bare, bare, bare']
termination_by structural h

theorem IsArguments.elsewhere {ts rest : List Token} {args : List Expr}
    (h : IsArguments locate ts args rest) {ts' : List Token}
    (same : ts'.map Token.word = ts.map Token.word) :
    ∃ args' rest', IsArguments locate' ts' args' rest' ∧
      rest'.map Token.word = rest.map Token.word ∧ Expr.listBare args' = Expr.listBare args := by
  match h with
  | .close isClose =>
      obtain ⟨t', us, rfl, kind, -, later⟩ := exists_cons_of_words same
      exact ⟨[], us, .close (kind.trans isClose), later, rfl⟩
  | .item first comma behind =>
      obtain ⟨first', us, derived, later, bare⟩ := first.elsewhere same
      obtain ⟨us, comma, later⟩ := comma.of_words later
      obtain ⟨args', us, derived', later, bare'⟩ := behind.elsewhere later
      refine ⟨_, us, .item derived comma derived', later, ?_⟩
      simp only [Expr.listBare, bare, bare']
termination_by structural h

theorem IsElements.elsewhere {ts rest : List Token} {items : List Element}
    (h : IsElements locate ts items rest) {ts' : List Token}
    (same : ts'.map Token.word = ts.map Token.word) :
    ∃ items' rest', IsElements locate' ts' items' rest' ∧
      rest'.map Token.word = rest.map Token.word ∧
      Element.listBare items' = Element.listBare items := by
  match h with
  | .close isClose =>
      obtain ⟨t', us, rfl, kind, -, later⟩ := exists_cons_of_words same
      exact ⟨[], us, .close (kind.trans isClose), later, rfl⟩
  | .item first comma behind =>
      obtain ⟨first', us, derived, later, bare⟩ := first.elsewhere same
      obtain ⟨us, comma, later⟩ := comma.of_words later
      obtain ⟨items', us, derived', later, bare'⟩ := behind.elsewhere later
      refine ⟨_, us, .item derived comma derived', later, ?_⟩
      simp only [Element.listBare, bare, bare']
termination_by structural h

theorem IsElement.elsewhere {ts rest : List Token} {item : Element}
    (h : IsElement locate ts item rest) {ts' : List Token}
    (same : ts'.map Token.word = ts.map Token.word) :
    ∃ item' rest', IsElement locate' ts' item' rest' ∧
      rest'.map Token.word = rest.map Token.word ∧ item'.bare = item.bare := by
  match h with
  | .plain value =>
      obtain ⟨value', us, derived, later, bare⟩ := value.elsewhere same
      refine ⟨_, us, .plain derived, later, ?_⟩
      simp only [Element.bare, bare]
  | .keyed key isColon value =>
      obtain ⟨t', us, rfl, -, -, -⟩ := exists_cons_of_words same
      obtain ⟨key', us, derived, later, bare⟩ := key.elsewhere same
      obtain ⟨colon', us, rfl, kind, -, later⟩ := exists_cons_of_words later
      obtain ⟨value', us, derived', later, bare'⟩ := value.elsewhere later
      refine ⟨_, us, .keyed derived (kind.trans isColon) derived', later, ?_⟩
      simp only [Element.bare, bare, bare']
termination_by structural h

theorem IsBlock.elsewhere {ts rest : List Token} {body : Block} (h : IsBlock locate ts body rest)
    {ts' : List Token} (same : ts'.map Token.word = ts.map Token.word) :
    ∃ body' rest', IsBlock locate' ts' body' rest' ∧
      rest'.map Token.word = rest.map Token.word ∧ body'.bare = body.bare := by
  match h with
  | .braces isOpen inside isClose =>
      obtain ⟨t', us, rfl, kind, -, later⟩ := exists_cons_of_words same
      obtain ⟨items', us, derived, later, bare⟩ := inside.elsewhere later
      obtain ⟨close', us, rfl, kind', -, later⟩ := exists_cons_of_words later
      refine ⟨_, us, .braces (kind.trans isOpen) derived (kind'.trans isClose), later, ?_⟩
      simp only [Block.bare, bare]
termination_by structural h

theorem IsStmts.elsewhere {ts rest : List Token} {items : List Stmt}
    (h : IsStmts locate ts items rest) {ts' : List Token}
    (same : ts'.map Token.word = ts.map Token.word) :
    ∃ items' rest', IsStmts locate' ts' items' rest' ∧
      rest'.map Token.word = rest.map Token.word ∧ Stmt.listBare items' = Stmt.listBare items := by
  match h with
  | .nil => exact ⟨[], ts', .nil, same, rfl⟩
  | .cons first behind =>
      obtain ⟨first', us, derived, later, bare⟩ := first.elsewhere same
      obtain ⟨items', us, derived', later, bare'⟩ := behind.elsewhere later
      refine ⟨_, us, .cons derived derived', later, ?_⟩
      simp only [Stmt.listBare, bare, bare']
termination_by structural h

theorem IsStmt.elsewhere {ts rest : List Token} {item : Stmt} (h : IsStmt locate ts item rest)
    {ts' : List Token} (same : ts'.map Token.word = ts.map Token.word) :
    ∃ item' rest', IsStmt locate' ts' item' rest' ∧
      rest'.map Token.word = rest.map Token.word ∧ item'.bare = item.bare := by
  match h with
  | .empty isEnd =>
      obtain ⟨t', us, rfl, kind, -, later⟩ := exists_cons_of_words same
      exact ⟨_, us, .empty (kind.trans isEnd), later, rfl⟩
  | .block body isEnd =>
      obtain ⟨body', us, derived, later, bare⟩ := body.elsewhere same
      obtain ⟨close', us, rfl, kind, -, later⟩ := exists_cons_of_words later
      refine ⟨_, us, .block derived (kind.trans isEnd), later, ?_⟩
      simp only [Stmt.bare, bare]
  | .cond isIf next =>
      obtain ⟨t', us, rfl, kind, -, later⟩ := exists_cons_of_words same
      obtain ⟨branch', us, derived, later, bare⟩ := next.elsewhere later
      refine ⟨_, us, .cond (kind.trans isIf) derived, later, ?_⟩
      simp only [Stmt.bare, bare]
  | .loop isWhile test body =>
      obtain ⟨t', us, rfl, kind, -, later⟩ := exists_cons_of_words same
      obtain ⟨test', us, derived, later, bare⟩ := test.elsewhere later
      obtain ⟨body', us, derived', later, bare'⟩ := body.elsewhere later
      refine ⟨_, us, .loop (kind.trans isWhile) derived derived', later, ?_⟩
      simp only [Stmt.bare, bare, bare']
  | .ret isReturn isEnd =>
      obtain ⟨t', us, rfl, kind, -, later⟩ := exists_cons_of_words same
      obtain ⟨close', us, rfl, kind', -, later⟩ := exists_cons_of_words later
      exact ⟨_, us, .ret (kind.trans isReturn) (kind'.trans isEnd), later, rfl⟩
  | .retValue isReturn value isEnd =>
      obtain ⟨t', us, rfl, kind, -, later⟩ := exists_cons_of_words same
      obtain ⟨value', us, derived, later, bare⟩ := value.elsewhere later
      obtain ⟨close', us, rfl, kind', -, later⟩ := exists_cons_of_words later
      refine ⟨_, us, .retValue (kind.trans isReturn) derived (kind'.trans isEnd), later, ?_⟩
      simp only [Stmt.bare, bare]
  | .assign begins target isAssign value isEnd =>
      obtain ⟨t', us, rfl, kind, -, -⟩ := exists_cons_of_words same
      obtain ⟨target', us, derived, later, bare⟩ := target.elsewhere same
      obtain ⟨eq', us, rfl, kind', -, later⟩ := exists_cons_of_words later
      obtain ⟨value', us, derived', later, bare'⟩ := value.elsewhere later
      obtain ⟨close', us, rfl, kind'', -, later⟩ := exists_cons_of_words later
      rw [← kind] at begins
      refine ⟨_, us, .assign begins derived (kind'.trans isAssign) derived' (kind''.trans isEnd),
        later, ?_⟩
      simp only [Stmt.bare, bare, bare']
  | .expr begins value =>
      obtain ⟨t', us, rfl, kind, -, -⟩ := exists_cons_of_words same
      obtain ⟨value', us, derived, later, bare⟩ := value.elsewhere same
      rw [← kind] at begins
      refine ⟨_, us, .expr begins derived, later, ?_⟩
      simp only [Stmt.bare, bare]
termination_by structural h

theorem IsBranch.elsewhere {location location' : Location} {ts rest : List Token} {item : Branch}
    (h : IsBranch locate location ts item rest) {ts' : List Token}
    (same : ts'.map Token.word = ts.map Token.word) :
    ∃ item' rest', IsBranch locate' location' ts' item' rest' ∧
      rest'.map Token.word = rest.map Token.word ∧ item'.bare = item.bare := by
  match h with
  | .single test body isEnd =>
      obtain ⟨test', us, derived, later, bare⟩ := test.elsewhere same
      obtain ⟨body', us, derived', later, bare'⟩ := body.elsewhere later
      obtain ⟨close', us, rfl, kind, -, later⟩ := exists_cons_of_words later
      refine ⟨_, us, .single derived derived' (kind.trans isEnd), later, ?_⟩
      simp only [Branch.bare, Otherwise.bare, bare, bare']
  | .block test body isElse other isEnd =>
      obtain ⟨test', us, derived, later, bare⟩ := test.elsewhere same
      obtain ⟨body', us, derived', later, bare'⟩ := body.elsewhere later
      obtain ⟨word', us, rfl, kind, -, later⟩ := exists_cons_of_words later
      obtain ⟨other', us, derived'', later, bare''⟩ := other.elsewhere later
      obtain ⟨close', us, rfl, kind', -, later⟩ := exists_cons_of_words later
      refine ⟨_, us, .block derived derived' (kind.trans isElse) derived'' (kind'.trans isEnd),
        later, ?_⟩
      simp only [Branch.bare, Otherwise.bare, bare, bare', bare'']
  | .branch test body isElse isIf next =>
      obtain ⟨test', us, derived, later, bare⟩ := test.elsewhere same
      obtain ⟨body', us, derived', later, bare'⟩ := body.elsewhere later
      obtain ⟨word', us, rfl, kind, -, later⟩ := exists_cons_of_words later
      obtain ⟨again', us, rfl, kind', -, later⟩ := exists_cons_of_words later
      obtain ⟨next', us, derived'', later, bare''⟩ := next.elsewhere later
      refine ⟨_, us, .branch derived derived' (kind.trans isElse) (kind'.trans isIf) derived'',
        later, ?_⟩
      simp only [Branch.bare, Otherwise.bare, bare, bare', bare'']
termination_by structural h

end

end Mini.Grammar

namespace Mini

open Grammar

/-- **Whether tokens are a program, and up to places which one, is a matter of their words.** -/
theorem Program.exists_ofTokens_of_words {locate : Position → Location} {ts ts' : List Token}
    {p : Program} (accepted : Program.ofTokens locate ts = .ok p)
    (same : ts'.map Token.word = ts.map Token.word) (locate' : Position → Location) :
    ∃ p', Program.ofTokens locate' ts' = .ok p' ∧ p'.bare = p.bare := by
  obtain ⟨t, us, derives, isEnd⟩ := Program.derivation_of_ofTokens accepted
  obtain ⟨items, rest, derives', later, bare⟩ := derives.elsewhere same
  obtain ⟨t', us', rfl, kind, -, -⟩ := exists_cons_of_words later
  have closes : ClosesStmts false (t' :: us') := kind.trans isEnd
  refine ⟨⟨items⟩, Program.ofTokens_of_derivation derives' closes, ?_⟩
  rw [Program.bare, Program.bare, bare]

end Mini
