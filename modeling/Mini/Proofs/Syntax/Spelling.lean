import Mini.Proofs.Grammar.Acceptance
import Mini.Proofs.Syntax.Literals

/-!
# The words of a tree are words

A tree that was derived from tokens takes its names and operators from them, and says its
numbers and strings in its own way. So if the tokens are words of their kinds, then all words of
the tree are.
-/

namespace Mini

open Grammar Text Lexical

/-- Words that are texts of their kinds. -/
def Spelled (words : List Word) : Prop :=
  ∀ w ∈ words, IsText w.1 w.2

theorem spelled_nil : Spelled [] := by
  intro w mem
  cases mem

theorem spelled_cons {w : Word} {words : List Word} :
    Spelled (w :: words) ↔ IsText w.1 w.2 ∧ Spelled words :=
  List.forall_mem_cons

theorem spelled_append {words words' : List Word} :
    Spelled (words ++ words') ↔ Spelled words ∧ Spelled words' :=
  List.forall_mem_append

theorem spelled_symbol {kind : TokenKind} {text : String}
    (symbol : (text, kind) ∈ TokenKind.symbols) : Spelled [(kind, text)] :=
  spelled_cons.mpr ⟨.symbol symbol, spelled_nil⟩

theorem spelled_listed {items : List (List Word)} (h : ∀ item ∈ items, Spelled item) :
    Spelled (listed items) := by
  fun_induction listed items with
  | case1 => exact spelled_nil
  | case2 item => exact h item List.mem_cons_self
  | case3 item next items ih =>
      obtain ⟨first, later⟩ := List.forall_mem_cons.mp h
      exact spelled_append.mpr ⟨first, spelled_cons.mpr ⟨.symbol (by decide), ih later⟩⟩

namespace Grammar

/-- Tokens that are texts of their kinds, apart from ends of the text. -/
def Proper (ts : List Token) : Prop :=
  ∀ t ∈ ts, t.kind ≠ .endOfText → IsText t.kind t.text

theorem proper_cons {t : Token} {ts : List Token} :
    Proper (t :: ts) ↔ (t.kind ≠ .endOfText → IsText t.kind t.text) ∧ Proper ts :=
  List.forall_mem_cons

theorem Proper.suffix {ts us : List Token} (h : Proper ts) (suffix : us <:+ ts) : Proper us :=
  fun t mem => h t (suffix.subset mem)

theorem Proper.text {t : Token} {ts : List Token} (h : Proper (t :: ts)) {kind : TokenKind}
    (isKind : t.kind = kind) (other : kind ≠ .endOfText) : IsText kind t.text := by
  subst isKind
  exact (proper_cons.mp h).1 other

/-- An end of the text is no operator. -/
theorem Proper.operator {op : Token} {ts : List Token} (h : Proper (op :: ts))
    {p : TokenKind → Bool} (holds : p op.kind = true) (other : p .endOfText = false) :
    IsText op.kind op.text := by
  refine h.text rfl ?_
  intro same
  rw [same, other] at holds
  cases holds

variable {locate : Position → Location}

theorem OptionalComma.proper {ts us : List Token} (h : OptionalComma ts us)
    (proper : Proper ts) : Proper us :=
  proper.suffix h.suffix

theorem IsParameters.spelled {ts rest : List Token} {params : List Identifier}
    (h : IsParameters locate ts params rest) (proper : Proper ts) :
    Spelled (listed (params.map fun param => [param.word])) := by
  refine spelled_listed ?_
  induction h with
  | close => intro item mem; cases mem
  | @item t _ _ _ _ kind comma _ ih =>
      obtain ⟨-, later⟩ := proper_cons.mp proper
      have text := proper.text kind (by decide)
      exact List.forall_mem_cons.mpr
        ⟨spelled_cons.mpr ⟨text, spelled_nil⟩, ih (comma.proper later)⟩

mutual

theorem IsExpr.spelled {ts rest : List Token} {e : Expr} (h : IsExpr locate ts e rest)
    (proper : Proper ts) : Spelled e.words := by
  match h with
  | .join first behind _ =>
      rw [Expr.words_join]
      exact spelled_append.mpr
        ⟨first.spelled proper, behind.spelled (proper.suffix first.suffix)⟩
termination_by structural h

theorem IsOthers.spelled {ts rest : List Token} {others : List (Token × Expr)}
    (h : IsOthers locate ts others rest) (proper : Proper ts) :
    Spelled (Expr.othersWords others) := by
  match h with
  | .nil => exact spelled_nil
  | .cons isBinary operand behind =>
      obtain ⟨-, later⟩ := proper_cons.mp proper
      have op := proper.operator isBinary rfl
      rw [Expr.othersWords_cons]
      exact spelled_cons.mpr ⟨op, spelled_append.mpr
        ⟨operand.spelled later, behind.spelled (later.suffix operand.suffix)⟩⟩
termination_by structural h

theorem IsPrefixed.spelled {ts rest : List Token} {e : Expr} (h : IsPrefixed locate ts e rest)
    (proper : Proper ts) : Spelled e.words := by
  match h with
  | .unary isUnary inner =>
      obtain ⟨-, later⟩ := proper_cons.mp proper
      have op := proper.operator isUnary rfl
      rw [Expr.words]
      exact spelled_cons.mpr ⟨op, inner.spelled later⟩
  | .operand base behind =>
      exact behind.spelled (base.spelled proper) (proper.suffix base.suffix)
termination_by structural h

theorem IsSuffixed.spelled {base e : Expr} {ts rest : List Token}
    (h : IsSuffixed locate base ts e rest) (first : Spelled base.words)
    (proper : Proper ts) : Spelled e.words := by
  match h with
  | .nil => exact first
  | .select _ kind later =>
      obtain ⟨-, name⟩ := proper_cons.mp proper
      obtain ⟨-, behind⟩ := proper_cons.mp name
      have selector := name.text kind (by decide)
      refine later.spelled ?_ behind
      rw [Expr.words]
      exact spelled_append.mpr ⟨first, spelled_cons.mpr ⟨.symbol (by decide),
        spelled_cons.mpr ⟨selector, spelled_nil⟩⟩⟩
  | .index _ key _ later =>
      obtain ⟨-, behind⟩ := proper_cons.mp proper
      refine later.spelled ?_ (behind.suffix (suffix_tail key.suffix))
      rw [Expr.words]
      exact spelled_append.mpr ⟨first, spelled_cons.mpr ⟨.symbol (by decide),
        spelled_append.mpr ⟨key.spelled behind, spelled_symbol (by decide)⟩⟩⟩
  | .call _ args later =>
      obtain ⟨-, behind⟩ := proper_cons.mp proper
      refine later.spelled ?_ (behind.suffix args.suffix)
      rw [Expr.words]
      exact spelled_append.mpr ⟨first, spelled_cons.mpr ⟨.symbol (by decide),
        spelled_append.mpr ⟨spelled_listed (args.spelled behind), spelled_symbol (by decide)⟩⟩⟩
termination_by structural h

theorem IsOperand.spelled {ts rest : List Token} {e : Expr} (h : IsOperand locate ts e rest)
    (proper : Proper ts) : Spelled e.words := by
  match h with
  | .ident kind =>
      have name := proper.text kind (by decide)
      exact spelled_cons.mpr ⟨name, spelled_nil⟩
  | .number kind read =>
      exact spelled_cons.mpr ⟨(proper.text kind (by decide)).integerText read, spelled_nil⟩
  | .text _ => exact spelled_cons.mpr ⟨StringLiteral.isText_encode _, spelled_nil⟩
  | .paren _ inner _ =>
      obtain ⟨-, behind⟩ := proper_cons.mp proper
      rw [Expr.words]
      exact spelled_cons.mpr ⟨.symbol (by decide),
        spelled_append.mpr ⟨inner.spelled behind, spelled_symbol (by decide)⟩⟩
  | .array _ items =>
      obtain ⟨-, behind⟩ := proper_cons.mp proper
      rw [Expr.words]
      exact spelled_cons.mpr ⟨.symbol (by decide),
        spelled_append.mpr ⟨spelled_listed (items.spelled behind), spelled_symbol (by decide)⟩⟩
  | .func _ _ params body =>
      obtain ⟨-, behind⟩ := proper_cons.mp proper
      obtain ⟨-, behind⟩ := proper_cons.mp behind
      rw [Expr.words]
      exact spelled_cons.mpr ⟨.keyword (by decide), spelled_cons.mpr ⟨.symbol (by decide),
        spelled_append.mpr ⟨params.spelled behind, spelled_cons.mpr ⟨.symbol (by decide),
          body.spelled (behind.suffix params.suffix)⟩⟩⟩⟩
termination_by structural h

theorem IsArguments.spelled {ts rest : List Token} {args : List Expr}
    (h : IsArguments locate ts args rest) (proper : Proper ts) :
    ∀ item ∈ Expr.listWords args, Spelled item := by
  match h with
  | .close _ => intro item mem; cases mem
  | .item first comma later =>
      rw [Expr.listWords]
      exact List.forall_mem_cons.mpr ⟨first.spelled proper,
        later.spelled (comma.proper (proper.suffix first.suffix))⟩
termination_by structural h

theorem IsElements.spelled {ts rest : List Token} {items : List Element}
    (h : IsElements locate ts items rest) (proper : Proper ts) :
    ∀ item ∈ Element.listWords items, Spelled item := by
  match h with
  | .close _ => intro item mem; cases mem
  | .item first comma later =>
      rw [Element.listWords]
      exact List.forall_mem_cons.mpr ⟨first.spelled proper,
        later.spelled (comma.proper (proper.suffix first.suffix))⟩
termination_by structural h

theorem IsElement.spelled {ts rest : List Token} {item : Element}
    (h : IsElement locate ts item rest) (proper : Proper ts) :
    Spelled item.words := by
  match h with
  | .plain value => exact value.spelled proper
  | .keyed key _ value =>
      rw [Element.words]
      exact spelled_append.mpr ⟨key.spelled proper, spelled_cons.mpr ⟨.symbol (by decide),
        value.spelled (proper.suffix (suffix_tail key.suffix))⟩⟩
termination_by structural h

theorem IsBlock.spelled {ts rest : List Token} {body : Block} (h : IsBlock locate ts body rest)
    (proper : Proper ts) : Spelled body.words := by
  match h with
  | .braces _ inside _ =>
      obtain ⟨-, behind⟩ := proper_cons.mp proper
      rw [Block.words]
      exact spelled_cons.mpr ⟨.symbol (by decide),
        spelled_append.mpr ⟨inside.spelled behind, spelled_symbol (by decide)⟩⟩
termination_by structural h

theorem IsStmts.spelled {ts rest : List Token} {items : List Stmt}
    (h : IsStmts locate ts items rest) (proper : Proper ts) :
    Spelled (Stmt.listWords items) := by
  match h with
  | .nil => exact spelled_nil
  | .cons first later =>
      rw [Stmt.listWords]
      exact spelled_append.mpr
        ⟨first.spelled proper, later.spelled (proper.suffix first.suffix)⟩
termination_by structural h

theorem IsStmt.spelled {ts rest : List Token} {item : Stmt} (h : IsStmt locate ts item rest)
    (proper : Proper ts) : Spelled item.words := by
  match h with
  | .empty _ => exact spelled_symbol (by decide)
  | .block body _ =>
      rw [Stmt.words]
      exact spelled_append.mpr ⟨body.spelled proper, spelled_symbol (by decide)⟩
  | .cond _ next =>
      obtain ⟨-, behind⟩ := proper_cons.mp proper
      rw [Stmt.words]
      exact spelled_cons.mpr ⟨.keyword (by decide), next.spelled behind⟩
  | .loop _ test body =>
      obtain ⟨-, behind⟩ := proper_cons.mp proper
      rw [Stmt.words]
      exact spelled_cons.mpr ⟨.keyword (by decide),
        spelled_append.mpr ⟨test.spelled behind, body.spelled (behind.suffix test.suffix)⟩⟩
  | .ret _ _ => exact spelled_cons.mpr ⟨.keyword (by decide), spelled_symbol (by decide)⟩
  | .retValue _ value _ =>
      obtain ⟨-, behind⟩ := proper_cons.mp proper
      rw [Stmt.words]
      exact spelled_cons.mpr ⟨.keyword (by decide),
        spelled_append.mpr ⟨value.spelled behind, spelled_symbol (by decide)⟩⟩
  | .assign _ target _ value _ =>
      have behind := proper.suffix (suffix_tail target.suffix)
      rw [Stmt.words]
      exact spelled_append.mpr ⟨target.spelled proper, spelled_cons.mpr ⟨.symbol (by decide),
        spelled_append.mpr ⟨value.spelled behind, spelled_symbol (by decide)⟩⟩⟩
  | .expr _ value => exact value.spelled proper
termination_by structural h

theorem IsBranch.spelled {location : Location} {ts rest : List Token} {item : Branch}
    (h : IsBranch locate location ts item rest) (proper : Proper ts) :
    Spelled item.words := by
  match h with
  | .single test body _ =>
      rw [Branch.words]
      exact spelled_append.mpr ⟨test.spelled proper, spelled_append.mpr
        ⟨body.spelled (proper.suffix test.suffix), spelled_symbol (by decide)⟩⟩
  | .block test body _ other _ =>
      have behind := proper.suffix test.suffix
      have last := behind.suffix (suffix_tail body.suffix)
      rw [Branch.words, Otherwise.words]
      exact spelled_append.mpr ⟨test.spelled proper, spelled_append.mpr ⟨body.spelled behind,
        spelled_cons.mpr ⟨.keyword (by decide),
          spelled_append.mpr ⟨other.spelled last, spelled_symbol (by decide)⟩⟩⟩⟩
  | .branch test body _ _ next =>
      have behind := proper.suffix test.suffix
      have last := behind.suffix (suffix_tail (suffix_tail body.suffix))
      rw [Branch.words, Otherwise.words]
      exact spelled_append.mpr ⟨test.spelled proper, spelled_append.mpr ⟨body.spelled behind,
        spelled_cons.mpr ⟨.keyword (by decide),
          spelled_cons.mpr ⟨.keyword (by decide), next.spelled last⟩⟩⟩⟩
termination_by structural h

end

end Grammar

end Mini
