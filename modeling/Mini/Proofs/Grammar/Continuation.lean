import Mathlib.Logic.Relation
import Mini.Proofs.Grammar.Acceptance

/-!
# What comes after a part

A part of the grammar is derived from tokens in front of others. Other ones may come there
instead, if only they do not carry an expression on where those did not. So a derivation is
about the tokens that it takes up, and the others are there for their first token.
-/

namespace Mini.Grammar

/-- The tokens in front of `rest` make a whole, and do so in front of all others that do not
carry an expression on if `rest` does not. -/
def Carries (Whole : List Token → List Token → Prop) (ts rest : List Token) : Prop :=
  ∃ front, ts = front ++ rest ∧
    ∀ rest', (EndsExpr rest → EndsExpr rest') → Whole (front ++ rest') rest'

/-- A token and then a part. -/
def Taking (t : Token) (Part : List Token → List Token → Prop) (ts rest : List Token) : Prop :=
  ∃ us, ts = t :: us ∧ Part us rest

variable {ts us rest : List Token} {Part Other Whole : List Token → List Token → Prop}

/-- Only the first token says whether an expression ends. -/
theorem endsExpr_front {front : List Token} (follows : EndsExpr us → EndsExpr rest)
    (ends : EndsExpr (front ++ us)) : EndsExpr (front ++ rest) := by
  cases front with
  | nil => exact follows ends
  | cons t front => exact ends

theorem endsExpr_of_kind {t : Token} {kind : TokenKind} (same : t.kind = kind)
    (suffix : kind.beginsSuffix = false) (binary : kind.isBinary = false) (ts : List Token) :
    EndsExpr (t :: ts) := by
  subst same
  exact ⟨suffix, binary⟩

namespace Carries

theorem none (whole : ∀ ts, Whole ts ts) (rest : List Token) : Carries Whole rest rest :=
  ⟨[], rfl, fun rest' _ => whole rest'⟩

theorem map (h : Carries Part ts rest) (whole : ∀ ts rest, Part ts rest → Whole ts rest) :
    Carries Whole ts rest := by
  obtain ⟨front, rfl, part⟩ := h
  exact ⟨front, rfl, fun rest' follows => whole _ _ (part rest' follows)⟩

theorem take (t : Token) (h : Carries Part ts rest) : Carries (Taking t Part) (t :: ts) rest := by
  obtain ⟨front, rfl, part⟩ := h
  exact ⟨t :: front, rfl, fun rest' follows => ⟨_, rfl, part rest' follows⟩⟩

/-- A token before a part. -/
theorem cons (t : Token) (h : Carries Part ts rest)
    (whole : ∀ ts rest, Part ts rest → Whole (t :: ts) rest) : Carries Whole (t :: ts) rest :=
  (h.take t).map fun _ _ ⟨_, same, part⟩ => same ▸ whole _ _ part

/-- A token alone. -/
theorem single (t : Token) (whole : ∀ rest, Whole (t :: rest) rest) (rest : List Token) :
    Carries Whole (t :: rest) rest :=
  ⟨[t], rfl, fun rest' _ => whole rest'⟩

/-- One part behind another. -/
theorem append (first : Carries Part ts us) (later : Carries Other us rest) :
    Carries (Relation.Comp Part Other) ts rest := by
  obtain ⟨front, rfl, part⟩ := first
  obtain ⟨front', rfl, other⟩ := later
  refine ⟨front ++ front', (List.append_assoc ..).symm, fun rest' follows => ?_⟩
  rw [List.append_assoc]
  exact ⟨_, part _ (endsExpr_front follows), other rest' follows⟩

/-- A token behind a part. -/
theorem close {t : Token} (h : Carries Part ts (t :: rest)) :
    Carries (fun ts rest => Part ts (t :: rest)) ts rest := by
  have closed : Carries (Taking t Eq) (t :: rest) rest := (none (fun _ => rfl) rest).take t
  exact (h.append closed).map fun _ _ ⟨_, part, _, same, same'⟩ => same' ▸ same ▸ part

end Carries

/-- A comma is there in front of all tokens alike. -/
theorem OptionalComma.carries (h : OptionalComma ts us) : Carries OptionalComma ts us := by
  cases h with
  | absent => exact .none (fun _ => .absent) _
  | present kind => exact .single _ (fun _ => .present kind) _

variable {locate : Position → Location}

/-- Parts that an end of an expression follows are whole only in front of one. -/
theorem IsExpr.endsExpr {e : Expr} (h : IsExpr locate ts e rest) : EndsExpr rest := by
  cases h with
  | join _ _ ends => exact ends

theorem IsBlock.endsExpr {body : Block} (h : IsBlock locate ts body rest) : EndsExpr ts := by
  cases h with
  | braces kind _ _ => exact endsExpr_of_kind kind rfl rfl _

theorem IsParameters.carries {params : List Identifier} (h : IsParameters locate ts params rest) :
    Carries (IsParameters locate · params ·) ts rest := by
  induction h with
  | close kind => exact .single _ (fun _ => .close kind) _
  | @item t _ _ _ _ kind between _ ih =>
      exact (between.carries.append ih).cons t fun _ _ ⟨_, between, later⟩ =>
        .item kind between later

/-- An expression takes its first token. -/
theorem Carries.head {t : Token} {e : Expr} (h : Carries (IsExpr locate · e ·) (t :: ts) rest) :
    Carries (fun ts rest => IsExpr locate (t :: ts) e rest) ts rest := by
  obtain ⟨front, same, whole⟩ := h
  cases front with
  | nil =>
      have ends : EndsExpr [⟨.semicolon, ";", Position.start⟩] := ⟨rfl, rfl⟩
      obtain ⟨first, others, same, begins⟩ := (whole _ fun _ => ends).begins
      cases same
      cases begins
  | cons first front =>
      cases same
      exact ⟨front, rfl, whole⟩

mutual

theorem IsExpr.carries {ts rest : List Token} {e : Expr} (h : IsExpr locate ts e rest) :
    Carries (IsExpr locate · e ·) ts rest := by
  match h with
  | .join first behind ends =>
      obtain ⟨front, same, row⟩ := first.carries.append behind.carries
      refine ⟨front, same, fun rest' follows => ?_⟩
      obtain ⟨us, first, behind⟩ := row rest' follows
      exact .join first behind (follows ends)
termination_by structural h

theorem IsOthers.carries {ts rest : List Token} {others : List (Token × Expr)}
    (h : IsOthers locate ts others rest) : Carries (IsOthers locate · others ·) ts rest := by
  match h with
  | .nil => exact .none (fun _ => .nil) _
  | @IsOthers.cons _ op _ _ _ _ _ isBinary operand behind =>
      exact (operand.carries.append behind.carries).cons op fun _ _ ⟨_, operand, behind⟩ =>
        .cons isBinary operand behind
termination_by structural h

theorem IsPrefixed.carries {ts rest : List Token} {e : Expr} (h : IsPrefixed locate ts e rest) :
    Carries (IsPrefixed locate · e ·) ts rest := by
  match h with
  | @IsPrefixed.unary _ op _ _ _ isUnary inner =>
      exact inner.carries.cons op fun _ _ inner => .unary isUnary inner
  | .operand base behind =>
      exact (base.carries.append behind.carries).map fun _ _ ⟨_, base, behind⟩ =>
        .operand base behind
termination_by structural h

theorem IsSuffixed.carries {base e : Expr} {ts rest : List Token}
    (h : IsSuffixed locate base ts e rest) : Carries (IsSuffixed locate base · e ·) ts rest := by
  match h with
  | .nil => exact .none (fun _ => .nil) _
  | @IsSuffixed.select _ _ _ t name _ _ kind isName later =>
      exact (later.carries.take name).cons t fun _ _ ⟨_, same, later⟩ =>
        same ▸ .select kind isName later
  | @IsSuffixed.index _ _ _ _ t close _ _ _ kind key isClose later =>
      exact (key.carries.append (later.carries.take close)).cons t
        fun _ _ ⟨_, key, _, same, later⟩ => .index kind (same ▸ key) isClose later
  | @IsSuffixed.call _ _ _ _ t _ _ _ kind args later =>
      exact (args.carries.append later.carries).cons t fun _ _ ⟨_, args, later⟩ =>
        .call kind args later
termination_by structural h

theorem IsOperand.carries {ts rest : List Token} {e : Expr} (h : IsOperand locate ts e rest) :
    Carries (IsOperand locate · e ·) ts rest := by
  match h with
  | .ident kind => exact .single _ (fun _ => .ident kind) _
  | .number kind read => exact .single _ (fun _ => .number kind read) _
  | .text kind => exact .single _ (fun _ => .text kind) _
  | @IsOperand.paren _ t _ _ _ _ kind inner isClose =>
      exact inner.carries.close.cons t fun _ _ inner => .paren kind inner isClose
  | @IsOperand.array _ t _ _ _ kind elements =>
      exact elements.carries.cons t fun _ _ elements => .array kind elements
  | @IsOperand.func _ t opening _ _ _ _ _ kind isOpening params body =>
      exact ((params.carries.append body.carries).take opening).cons t
        fun _ _ ⟨_, same, _, params, body⟩ => same ▸ .func kind isOpening params body
termination_by structural h

theorem IsArguments.carries {ts rest : List Token} {args : List Expr}
    (h : IsArguments locate ts args rest) : Carries (IsArguments locate · args ·) ts rest := by
  match h with
  | .close kind => exact .single _ (fun _ => .close kind) _
  | .item first between later =>
      exact (first.carries.append (between.carries.append later.carries)).map
        fun _ _ ⟨_, first, _, between, later⟩ => .item first between later
termination_by structural h

theorem IsElements.carries {ts rest : List Token} {elements : List Element}
    (h : IsElements locate ts elements rest) : Carries (IsElements locate · elements ·) ts rest := by
  match h with
  | .close kind => exact .single _ (fun _ => .close kind) _
  | .item first between later =>
      exact (first.carries.append (between.carries.append later.carries)).map
        fun _ _ ⟨_, first, _, between, later⟩ => .item first between later
termination_by structural h

theorem IsElement.carries {ts rest : List Token} {element : Element}
    (h : IsElement locate ts element rest) : Carries (IsElement locate · element ·) ts rest := by
  match h with
  | .plain value => exact value.carries.map fun _ _ value => .plain value
  | @IsElement.keyed _ t colon _ _ _ _ _ key isColon value =>
      exact (key.carries.head.append (value.carries.take colon)).cons t
        fun _ _ ⟨_, key, _, same, value⟩ => .keyed (same ▸ key) isColon value
termination_by structural h

theorem IsBlock.carries {ts rest : List Token} {body : Block} (h : IsBlock locate ts body rest) :
    Carries (IsBlock locate · body ·) ts rest := by
  match h with
  | @IsBlock.braces _ t _ _ _ _ kind inside isClose =>
      exact inside.carries.close.cons t fun _ _ inside => .braces kind inside isClose
termination_by structural h

theorem IsStmts.carries {ts rest : List Token} {items : List Stmt}
    (h : IsStmts locate ts items rest) : Carries (IsStmts locate · items ·) ts rest := by
  match h with
  | .nil => exact .none (fun _ => .nil) _
  | .cons first later =>
      exact (first.carries.append later.carries).map fun _ _ ⟨_, first, later⟩ =>
        .cons first later
termination_by structural h

theorem IsStmt.carries {ts rest : List Token} {item : Stmt} (h : IsStmt locate ts item rest) :
    Carries (IsStmt locate · item ·) ts rest := by
  match h with
  | .empty kind => exact .single _ (fun _ => .empty kind) _
  | .block body isClose => exact body.carries.close.map fun _ _ body => .block body isClose
  | @IsStmt.cond _ t _ _ _ kind branch =>
      exact branch.carries.cons t fun _ _ branch => .cond kind branch
  | @IsStmt.loop _ t _ _ _ _ _ kind test body =>
      exact (test.carries.append body.carries).cons t fun _ _ ⟨_, test, body⟩ =>
        .loop kind test body
  | @IsStmt.ret _ t close _ kind isClose =>
      exact (Carries.none (fun _ => rfl) _).close.cons t fun _ _ same =>
        same ▸ .ret kind isClose
  | @IsStmt.retValue _ t _ _ _ _ kind value isClose =>
      exact value.carries.close.cons t fun _ _ value => .retValue kind value isClose
  | @IsStmt.assign _ t eq _ _ _ _ _ _ begins target isAssign value isClose =>
      exact (target.carries.head.append (value.carries.close.take eq)).cons t
        fun _ _ ⟨_, target, _, same, value⟩ => .assign begins (same ▸ target) isAssign value isClose
  | @IsStmt.expr _ t _ _ _ begins value =>
      exact value.carries.head.cons t fun _ _ value => .expr begins value
termination_by structural h

theorem IsBranch.carries {location : Location} {ts rest : List Token} {item : Branch}
    (h : IsBranch locate location ts item rest) :
    Carries (IsBranch locate location · item ·) ts rest := by
  match h with
  | .single test body isClose =>
      exact (test.carries.append body.carries.close).map fun _ _ ⟨_, test, body⟩ =>
        .single test body isClose
  | @IsBranch.block _ _ _ _ _ _ _ _ _ word _ test body isElse other isClose =>
      exact (test.carries.append (body.carries.append (other.carries.close.take word))).map
        fun _ _ ⟨_, test, _, body, _, same, other⟩ =>
          .block test (same ▸ body) isElse other isClose
  | @IsBranch.branch _ _ _ _ _ _ _ _ _ word again test body isElse isIf next =>
      exact (test.carries.append
        (body.carries.append ((next.carries.take again).take word))).map
        fun _ _ ⟨_, test, _, body, _, same, _, same', next⟩ =>
          .branch test (same' ▸ same ▸ body) isElse isIf next
termination_by structural h

end

end Mini.Grammar
