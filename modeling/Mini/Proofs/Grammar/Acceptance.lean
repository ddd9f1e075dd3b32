import Mini.Proofs.Grammar.Completeness

/-!
# Which lists of tokens are programs

Soundness and completeness joined: a list of tokens that ends with its only end of the
text is a program exactly if all of it up to there derives as statements, and the tree
is the one of the derivation.
-/

namespace Mini

namespace Grammar

variable {locate : Position → Location}

/-! ## What a derivation leaves over -/

theorem OptionalComma.suffix {ts us : List Token} (h : OptionalComma ts us) : us <:+ ts := by
  cases h with
  | absent => exact List.suffix_refl _
  | present _ => exact List.suffix_cons _ _

theorem IsParameters.suffix {ts rest : List Token} {params : List Identifier}
    (h : IsParameters locate ts params rest) : rest <:+ ts := by
  induction h with
  | close _ => exact List.suffix_cons _ _
  | item _ comma _ ih => exact (ih.trans comma.suffix).trans (List.suffix_cons _ _)

theorem suffix_tail {t : Token} {ts us : List Token} (h : t :: us <:+ ts) : us <:+ ts :=
  (List.suffix_cons t us).trans h

theorem suffix_under {ts us : List Token} (h : us <:+ ts) (t : Token) : us <:+ t :: ts :=
  h.trans (List.suffix_cons t ts)

mutual

theorem IsExpr.suffix {ts rest : List Token} {e : Expr} (h : IsExpr locate ts e rest) :
    rest <:+ ts := by
  match h with
  | .join first behind _ => exact behind.suffix.trans first.suffix
termination_by structural h

theorem IsOthers.suffix {ts rest : List Token} {others : List (Token × Expr)}
    (h : IsOthers locate ts others rest) : rest <:+ ts := by
  match h with
  | .nil => exact List.suffix_refl _
  | .cons _ operand behind => exact suffix_under (behind.suffix.trans operand.suffix) _
termination_by structural h

theorem IsPrefixed.suffix {ts rest : List Token} {e : Expr} (h : IsPrefixed locate ts e rest) :
    rest <:+ ts := by
  match h with
  | .unary _ inner => exact suffix_under inner.suffix _
  | .operand base behind => exact behind.suffix.trans base.suffix
termination_by structural h

theorem IsSuffixed.suffix {base e : Expr} {ts rest : List Token}
    (h : IsSuffixed locate base ts e rest) : rest <:+ ts := by
  match h with
  | .nil => exact List.suffix_refl _
  | .select _ _ later => exact suffix_under (suffix_under later.suffix _) _
  | .index _ key _ later => exact suffix_under (later.suffix.trans (suffix_tail key.suffix)) _
  | .call _ args later => exact suffix_under (later.suffix.trans args.suffix) _
termination_by structural h

theorem IsOperand.suffix {ts rest : List Token} {e : Expr} (h : IsOperand locate ts e rest) :
    rest <:+ ts := by
  match h with
  | .ident _ | .number _ _ | .text _ => exact List.suffix_cons _ _
  | .paren _ inner _ => exact suffix_under (suffix_tail inner.suffix) _
  | .array _ items => exact suffix_under items.suffix _
  | .func _ _ params body =>
      exact suffix_under (suffix_under (body.suffix.trans params.suffix) _) _
termination_by structural h

theorem IsArguments.suffix {ts rest : List Token} {args : List Expr}
    (h : IsArguments locate ts args rest) : rest <:+ ts := by
  match h with
  | .close _ => exact List.suffix_cons _ _
  | .item first between later => exact (later.suffix.trans between.suffix).trans first.suffix
termination_by structural h

theorem IsElements.suffix {ts rest : List Token} {items : List Element}
    (h : IsElements locate ts items rest) : rest <:+ ts := by
  match h with
  | .close _ => exact List.suffix_cons _ _
  | .item first between later => exact (later.suffix.trans between.suffix).trans first.suffix
termination_by structural h

theorem IsElement.suffix {ts rest : List Token} {item : Element}
    (h : IsElement locate ts item rest) : rest <:+ ts := by
  match h with
  | .plain value => exact value.suffix
  | .keyed key _ value => exact value.suffix.trans (suffix_tail key.suffix)
termination_by structural h

theorem IsBlock.suffix {ts rest : List Token} {body : Block} (h : IsBlock locate ts body rest) :
    rest <:+ ts := by
  match h with
  | .braces _ inside _ => exact suffix_under (suffix_tail inside.suffix) _
termination_by structural h

theorem IsStmts.suffix {ts rest : List Token} {items : List Stmt}
    (h : IsStmts locate ts items rest) : rest <:+ ts := by
  match h with
  | .nil => exact List.suffix_refl _
  | .cons first later => exact later.suffix.trans first.suffix
termination_by structural h

theorem IsStmt.suffix {ts rest : List Token} {item : Stmt} (h : IsStmt locate ts item rest) :
    rest <:+ ts := by
  match h with
  | .empty _ => exact List.suffix_cons _ _
  | .block body _ => exact suffix_tail body.suffix
  | .cond _ next => exact suffix_under next.suffix _
  | .loop _ test body => exact suffix_under (body.suffix.trans test.suffix) _
  | .ret _ _ => exact suffix_under (List.suffix_cons _ _) _
  | .retValue _ value _ => exact suffix_under (suffix_tail value.suffix) _
  | .assign _ target _ value _ =>
      exact (suffix_tail value.suffix).trans (suffix_tail target.suffix)
  | .expr _ value => exact value.suffix
termination_by structural h

theorem IsBranch.suffix {location : Location} {ts rest : List Token} {item : Branch}
    (h : IsBranch locate location ts item rest) : rest <:+ ts := by
  match h with
  | .single test body _ => exact (suffix_tail body.suffix).trans test.suffix
  | .block test body _ other _ =>
      exact (suffix_tail other.suffix).trans ((suffix_tail body.suffix).trans test.suffix)
  | .branch test body _ _ next =>
      exact (next.suffix.trans (suffix_tail (suffix_tail body.suffix))).trans test.suffix
termination_by structural h

end

/-- If the end of the text is nowhere but at the end of a list, what begins with it is
only that. -/
theorem suffix_of_endOfText {body us : List Token} {eof t : Token}
    (only : ∀ s ∈ body, s.kind ≠ .endOfText) (h : t :: us <:+ body ++ [eof])
    (kind : t.kind = .endOfText) : t :: us = [eof] := by
  obtain ⟨before, same⟩ := h
  -- if more came behind it, it would be one of the tokens before the last
  rcases List.eq_nil_or_concat us with rfl | ⟨vs, last, rfl⟩
  · obtain ⟨-, last⟩ := List.append_inj' same rfl
    exact last
  · rw [List.concat_eq_append, ← List.cons_append, ← List.append_assoc] at same
    obtain ⟨same, -⟩ := List.append_inj' same rfl
    have mem : t ∈ body := by
      rw [← same]
      exact List.mem_append_right _ List.mem_cons_self
    exact absurd kind (only t mem)

/-! ## With the budget that programs are read with -/

/-- The budget of a program is enough for its tokens. -/
theorem statements_enough (inBlock : Bool) (ts : List Token) :
    statements locate (5 * ts.length + 5) inBlock ts ≠ .error .outOfFuel := by
  have within := (withinAt locate (5 * ts.length + 5)).statements inBlock ts (Nat.le_refl _)
  intro out
  rw [out] at within
  exact within rfl

theorem statements_of_reads {inBlock : Bool} {ts : List Token} {result : List Stmt × List Token}
    (h : Reads (statements locate · inBlock ts) result) :
    statements locate (5 * ts.length + 5) inBlock ts = .ok result := by
  obtain ⟨n, read⟩ := h
  -- the larger of the two budgets reads what both of them read
  have same := steady (improves_same locate · inBlock ts) (Nat.le_max_left (5 * ts.length + 5) n)
    (statements_enough inBlock ts)
  have found : statements locate (max (5 * ts.length + 5) n) inBlock ts = .ok result :=
    read _ (Nat.le_max_right _ n)
  rw [← same]
  exact found

end Grammar

open Grammar

variable {locate : Position → Location}

/-- The budget that programs are read with does not run out. -/
theorem Program.ofTokens_enough (ts : List Token) :
    Program.ofTokens locate ts ≠ .error .outOfFuel := by
  rw [ofTokens]
  cases read : Grammar.statements locate (5 * ts.length + 5) false ts with
  | ok result =>
      intro out
      cases out
  | error e =>
      rintro ⟨⟩
      exact statements_enough false ts read

/-- **Places do not decide anything.** With other places the same tokens are rejected for the same
reason, or are the same program with these places. -/
theorem Program.ofTokens_relocate {ρ : Relabelling} (names : ∀ n, ρ.name n = n) (ts : List Token) :
    Program.ofTokens (relocate ρ locate) ts = (Program.ofTokens locate ts).map ρ.program := by
  have improves := (improvesAt locate names (5 * ts.length + 5)).statements false ts
  have more := steady (improves_same (relocate ρ locate) · false ts) (Nat.le_succ _)
    (statements_enough false ts)
  rw [more] at improves
  rcases improves with out | same
  · exact absurd out (statements_enough false ts)
  · rw [ofTokens, ofTokens, same]
    cases Grammar.statements locate (5 * ts.length + 5) false ts <;> rfl

/-- Tokens that derive as statements up to an end of the text are a program. -/
theorem Program.ofTokens_of_derivation {ts rest : List Token} {items : List Stmt}
    (h : IsStmts locate ts items rest) (closes : ClosesStmts false rest) :
    Program.ofTokens locate ts = .ok ⟨items⟩ := by
  have read := statements_of_reads (h.reads closes)
  rw [Program.ofTokens, read]
  rfl

theorem Program.derivation_of_ofTokens {ts : List Token} {program : Program}
    (h : Program.ofTokens locate ts = .ok program) :
    ∃ t us, IsStmts locate ts program.statements (t :: us) ∧ t.kind = .endOfText := by
  obtain ⟨⟨items, rest⟩, read, same⟩ := bind_ok h
  cases same
  obtain ⟨derives, t, us, rfl, kind⟩ := (soundAt _).program read
  exact ⟨t, us, derives, kind⟩

/-- **The parser accepts exactly its grammar.** Among the lists of tokens with one end of
the text, at the end, the programs are those that derive as statements up to there; and
the tree is that of the derivation. -/
theorem Program.ofTokens_iff (locate : Position → Location) {body : List Token} {eof : Token}
    (ends : eof.kind = .endOfText) (only : ∀ t ∈ body, t.kind ≠ .endOfText) (program : Program) :
    Program.ofTokens locate (body ++ [eof]) = .ok program ↔
      IsStmts locate (body ++ [eof]) program.statements [eof] := by
  constructor
  · intro h
    obtain ⟨t, us, derives, kind⟩ := Program.derivation_of_ofTokens h
    rw [suffix_of_endOfText only derives.suffix kind] at derives
    exact derives
  · intro derives
    have closes : ClosesStmts false [eof] := ends
    exact Program.ofTokens_of_derivation derives closes

/-- The words of `x = -f(1 2);`, all at the start of the text. -/
def callWithoutComma : List Token :=
  [(.ident, "x"), (.assign, "="), (.minus, "-"), (.ident, "f"), (.openParen, "("), (.number, "1"),
    (.number, "2"), (.closeParen, ")"), (.semicolon, ";")].map fun word =>
      ⟨word.1, word.2, Position.start⟩

/-- What `callWithoutComma` derives as. -/
def callWithoutCommaTree (location : Location) : Program :=
  ⟨[.assign location (.ident ⟨location, "x"⟩)
    (.unary location ⟨.minus, "-", Position.start⟩
      (.call location (.ident ⟨location, "f"⟩) [.number location 1, .number location 2]))]⟩

theorem Program.ofTokens_iff_call :
    (∀ t ∈ callWithoutComma, t.kind ≠ .endOfText) ∧
      IsStmts (fun _ => default) (callWithoutComma ++ [⟨.endOfText, "", Position.start⟩])
        (callWithoutCommaTree default).statements [⟨.endOfText, "", Position.start⟩] := by
  have only : ∀ t ∈ callWithoutComma, t.kind ≠ .endOfText := by decide
  refine ⟨only, ?_⟩
  exact (ofTokens_iff (fun _ => default) rfl only _).mp rfl

end Mini
