import Mini.Proofs.Grammar.Budget
import Mini.Proofs.Grammar.Derivation

/-!
# One token is looked at

A reading decides on the tokens up to the one it has come to. If it ends before the end of the
tokens that it was given, it ends in the same way when more tokens come behind them; only if it
asks for one that is not there can it go on. So a token that is rejected is rejected whatever
comes after it.

That a reading which had run out does not come back to an earlier token is a matter of counting:
what it leaves or rejects is among the tokens that were added.
-/

namespace Mini.Grammar

variable {α β : Type}

/-- A reading leaves at most so many tokens, and rejects one of the last so many. -/
def Shrinks (bound : Nat) : Reading (α × List Token) → Prop
  | .ok (_, rest) => rest.length ≤ bound
  | .error (.unexpected _ _ rest) => rest.length < bound
  | .error _ => True

theorem Shrinks.mono {bound k : Nat} {r : Reading (α × List Token)} (h : Shrinks k r)
    (le : k ≤ bound) : Shrinks bound r := by
  match r with
  | .ok (_, rest) => exact Nat.le_trans h le
  | .error (.unexpected _ _ rest) => exact Nat.lt_of_lt_of_le h le
  | .error (.badNumeral _) | .error .outOfTokens | .error .outOfFuel => trivial

/-- What a reading comes to when more tokens are at the end, if it does not ask for them. -/
def extend (more : List Token) : Reading (α × List Token) → Reading (α × List Token)
  | .ok (a, rest) => .ok (a, rest ++ more)
  | .error (.unexpected expected found rest) => .error (.unexpected expected found (rest ++ more))
  | .error e => .error e

/-- Two readings, the second one with more tokens at the end. They come to the same, or the first
one asks for a token that it has not got, and then the second one goes on among the new tokens. -/
structure Alike (bound : Nat) (more : List Token) (r r' : Reading (α × List Token)) : Prop where
  shrinks : Shrinks bound r
  same : r' = extend more r ∨ (r = .error .outOfTokens ∧ Shrinks more.length r')

section Bind

variable {bound k : Nat} {more : List Token}

theorem Alike.mono {r r' : Reading (α × List Token)} (h : Alike k more r r') (le : k ≤ bound) :
    Alike bound more r r' :=
  ⟨h.shrinks.mono le, h.same⟩

theorem alike_ok (a : α) {ts : List Token} (le : ts.length ≤ bound) :
    Alike bound more (.ok (a, ts)) (.ok (a, ts ++ more)) :=
  ⟨le, .inl rfl⟩

theorem alike_unexpected {expected : Expected} {found : Token} {ts : List Token}
    (lt : ts.length < bound) :
    Alike bound more (.error (.unexpected expected found ts) : Reading (α × List Token))
      (.error (.unexpected expected found (ts ++ more))) :=
  ⟨lt, .inl rfl⟩

theorem shrinks_bind {r : Reading (α × List Token)} {f : α × List Token → Reading (β × List Token)}
    (h : Shrinks bound r) (later : ∀ a us, Shrinks us.length (f (a, us))) :
    Shrinks bound (r >>= f) := by
  match r with
  | .ok (a, us) => exact (later a us).mono h
  | .error (.unexpected _ _ rest) => exact h
  | .error (.badNumeral _) | .error .outOfTokens | .error .outOfFuel => trivial

theorem alike_bind {r r' : Reading (α × List Token)} {f : α × List Token → Reading (β × List Token)}
    (h : Alike k more r r') (le : k ≤ bound)
    (later : ∀ a us, Alike us.length more (f (a, us)) (f (a, us ++ more))) :
    Alike bound more (r >>= f) (r' >>= f) := by
  have shrinks : ∀ a us, Shrinks us.length (f (a, us)) := fun a us => (later a us).shrinks
  refine ⟨shrinks_bind (h.shrinks.mono le) shrinks, ?_⟩
  rcases h.same with rfl | ⟨rfl, among⟩
  · match r with
    | .ok (a, us) => exact (later a us).same
    | .error (.unexpected _ _ _) | .error (.badNumeral _) | .error .outOfTokens
    | .error .outOfFuel => exact .inl rfl
  · exact .inr ⟨rfl, shrinks_bind among shrinks⟩

/-- A reading that asks for one token first has run out where there is none. -/
theorem alike_of_cons {read : List Token → Reading (α × List Token)}
    (empty : read [] = .error .outOfTokens)
    (h : ∀ t ts more, Alike (ts.length + 1) more (read (t :: ts)) (read (t :: (ts ++ more))))
    (ts more : List Token) : Alike ts.length more (read ts) (read (ts ++ more)) := by
  cases ts with
  | cons t ts => exact h t ts more
  | nil =>
      rw [empty]
      refine ⟨trivial, .inr ⟨rfl, ?_⟩⟩
      cases more with
      | nil => rw [List.nil_append, empty]; trivial
      | cons t more => exact (h t more []).shrinks

end Bind

/-! ## Single tokens -/

theorem alike_token (kind : TokenKind) (expected : Expected) (ts more : List Token) :
    Alike ts.length more (token kind expected ts) (token kind expected (ts ++ more)) := by
  apply alike_of_cons _ _ ts more
  · rfl
  intro t ts more
  rw [token, token]
  split
  · exact alike_ok t (Nat.le_succ _)
  · exact alike_unexpected (Nat.lt_succ_self _)

theorem alike_terminator {f : List Token → Reading (β × List Token)}
    (later : ∀ us more, Alike us.length more (f us) (f (us ++ more))) (ts more : List Token) :
    Alike ts.length more (terminator ts >>= f) (terminator (ts ++ more) >>= f) := by
  apply alike_of_cons _ _ ts more
  · rfl
  intro t ts more
  rw [terminator, terminator]
  split
  · exact later (t :: ts) more
  · exact later (t :: ts) more
  · exact (later ts more).mono (Nat.le_succ _)
  · exact alike_unexpected (Nat.lt_succ_self _)

theorem alike_comma {f : List Token → Reading (β × List Token)}
    (later : ∀ us more, Alike us.length more (f us) (f (us ++ more))) (ts more : List Token) :
    Alike ts.length more (comma ts >>= f) (comma (ts ++ more) >>= f) := by
  apply alike_of_cons _ _ ts more
  · rfl
  intro t ts more
  show Alike _ more (f (if t.kind = .comma then ts else t :: ts))
    (f (if t.kind = .comma then ts ++ more else t :: (ts ++ more)))
  split
  · exact (later ts more).mono (Nat.le_succ _)
  · exact later (t :: ts) more

variable (locate : Position → Location)

theorem alike_identifier (expected : Expected) (ts more : List Token) :
    Alike ts.length more (identifier locate expected ts) (identifier locate expected (ts ++ more)) :=
  alike_bind (alike_token .ident expected ts more) (Nat.le_refl _) fun t us =>
    alike_ok (⟨locate t.start, t.text⟩ : Identifier) (Nat.le_refl us.length)

theorem alike_parameters (n : Nat) (ts more : List Token) :
    Alike ts.length more (parameters locate n ts) (parameters locate n (ts ++ more)) := by
  induction n generalizing ts more with
  | zero => exact ⟨trivial, .inl rfl⟩
  | succ n ih =>
      apply alike_of_cons _ _ ts more
      · rfl
      intro t ts more
      rw [parameters, parameters]
      split
      · exact alike_ok [] (Nat.le_succ _)
      · exact alike_unexpected (Nat.lt_succ_self _)
      · refine alike_bind (alike_identifier locate _ (t :: ts) more) (Nat.le_refl _) fun param us => ?_
        refine alike_comma (fun vs more => ?_) us more
        exact alike_bind (ih vs more) (Nat.le_refl _) fun params ws =>
          alike_ok _ (Nat.le_refl ws.length)

/-! ## All parts of the grammar -/

/-- With a budget of `n` calls, every part of the grammar looks at one token. -/
structure AlikeAt (n : Nat) : Prop where
  binary : ∀ level ts more,
    Alike ts.length more (binary locate n level ts) (binary locate n level (ts ++ more))
  operators : ∀ level left ts more, Alike ts.length more (operators locate n level left ts)
    (operators locate n level left (ts ++ more))
  unary : ∀ ts more, Alike ts.length more (unary locate n ts) (unary locate n (ts ++ more))
  suffixes : ∀ base ts more,
    Alike ts.length more (suffixes locate n base ts) (suffixes locate n base (ts ++ more))
  operand : ∀ ts more, Alike ts.length more (operand locate n ts) (operand locate n (ts ++ more))
  arguments : ∀ ts more,
    Alike ts.length more (arguments locate n ts) (arguments locate n (ts ++ more))
  elements : ∀ ts more, Alike ts.length more (elements locate n ts) (elements locate n (ts ++ more))
  element : ∀ location ts more,
    Alike ts.length more (element locate n location ts) (element locate n location (ts ++ more))
  block : ∀ expected ts more,
    Alike ts.length more (block locate n expected ts) (block locate n expected (ts ++ more))
  statements : ∀ inBlock ts more, Alike ts.length more (statements locate n inBlock ts)
    (statements locate n inBlock (ts ++ more))
  statement : ∀ ts more,
    Alike ts.length more (statement locate n ts) (statement locate n (ts ++ more))
  returned : ∀ ts more, Alike ts.length more (returned locate n ts) (returned locate n (ts ++ more))
  branch : ∀ location ts more,
    Alike ts.length more (branch locate n location ts) (branch locate n location (ts ++ more))
  otherwise : ∀ ts more,
    Alike ts.length more (otherwise locate n ts) (otherwise locate n (ts ++ more))

section Step

variable {n : Nat} (ih : AlikeAt locate n)
include ih

theorem alike_binary (level : Nat) (ts more : List Token) :
    Alike ts.length more (binary locate (n + 1) level ts)
      (binary locate (n + 1) level (ts ++ more)) := by
  rw [binary, binary]
  exact alike_bind (ih.unary ts more) (Nat.le_refl _) fun left us => ih.operators level left us more

theorem alike_operators (level : Nat) (left : Expr) (ts more : List Token) :
    Alike ts.length more (operators locate (n + 1) level left ts)
      (operators locate (n + 1) level left (ts ++ more)) := by
  apply alike_of_cons _ _ ts more
  · rfl
  intro op ts more
  rw [operators, operators]
  dsimp only
  split
  · exact alike_ok left (Nat.le_refl (op :: ts).length)
  · exact alike_bind (ih.binary _ ts more) (Nat.le_succ _) fun right us =>
      ih.operators level (.binary left.location op left right) us more

theorem alike_unary (ts more : List Token) :
    Alike ts.length more (unary locate (n + 1) ts) (unary locate (n + 1) (ts ++ more)) := by
  apply alike_of_cons _ _ ts more
  · rfl
  intro op ts more
  rw [unary, unary]
  split
  · exact alike_bind (ih.unary ts more) (Nat.le_succ _) fun inner us =>
      alike_ok _ (Nat.le_refl us.length)
  · exact alike_bind (ih.operand (op :: ts) more) (Nat.le_refl _) fun base us =>
      ih.suffixes base us more

theorem alike_suffixes (base : Expr) (ts more : List Token) :
    Alike ts.length more (suffixes locate (n + 1) base ts)
      (suffixes locate (n + 1) base (ts ++ more)) := by
  apply alike_of_cons _ _ ts more
  · rfl
  intro t ts more
  rw [suffixes, suffixes]
  split
  · exact alike_bind (alike_identifier locate _ ts more) (Nat.le_succ _) fun selector us =>
      ih.suffixes (.select (locate t.start) base selector) us more
  · refine alike_bind (ih.binary 1 ts more) (Nat.le_succ _) fun key us => ?_
    exact alike_bind (alike_token _ _ us more) (Nat.le_refl _) fun close vs =>
      ih.suffixes (.index (locate t.start) base key) vs more
  · exact alike_bind (ih.arguments ts more) (Nat.le_succ _) fun args us =>
      ih.suffixes (.call (locate t.start) base args) us more
  · exact alike_ok base (Nat.le_refl (t :: ts).length)

theorem alike_operand (ts more : List Token) :
    Alike ts.length more (operand locate (n + 1) ts) (operand locate (n + 1) (ts ++ more)) := by
  apply alike_of_cons _ _ ts more
  · rfl
  intro t ts more
  rw [operand, operand]
  split
  · exact alike_ok _ (Nat.le_succ ts.length)
  · cases Text.readInteger t.text with
    | ok value => exact alike_ok _ (Nat.le_succ ts.length)
    | error fault => exact ⟨trivial, .inl rfl⟩
  · exact alike_ok _ (Nat.le_succ ts.length)
  · refine alike_bind (ih.binary 1 ts more) (Nat.le_succ _) fun inner us => ?_
    exact alike_bind (alike_token _ _ us more) (Nat.le_refl _) fun close vs =>
      alike_ok _ (Nat.le_refl vs.length)
  · exact alike_bind (ih.elements ts more) (Nat.le_succ _) fun items us =>
      alike_ok _ (Nat.le_refl us.length)
  · refine alike_bind (alike_token _ _ ts more) (Nat.le_succ _) fun opening us => ?_
    refine alike_bind (alike_parameters locate n us more) (Nat.le_refl _) fun params vs => ?_
    exact alike_bind (ih.block _ vs more) (Nat.le_refl _) fun body ws =>
      alike_ok _ (Nat.le_refl ws.length)
  · exact alike_unexpected (Nat.lt_succ_self _)

theorem alike_arguments (ts more : List Token) :
    Alike ts.length more (arguments locate (n + 1) ts) (arguments locate (n + 1) (ts ++ more)) := by
  apply alike_of_cons _ _ ts more
  · rfl
  intro t ts more
  rw [arguments, arguments]
  split
  · exact alike_ok [] (Nat.le_succ ts.length)
  · exact alike_unexpected (Nat.lt_succ_self _)
  · refine alike_bind (ih.binary 1 (t :: ts) more) (Nat.le_refl _) fun arg us => ?_
    refine alike_comma (fun vs more => ?_) us more
    exact alike_bind (ih.arguments vs more) (Nat.le_refl _) fun args ws =>
      alike_ok _ (Nat.le_refl ws.length)

theorem alike_elements (ts more : List Token) :
    Alike ts.length more (elements locate (n + 1) ts) (elements locate (n + 1) (ts ++ more)) := by
  apply alike_of_cons _ _ ts more
  · rfl
  intro t ts more
  rw [elements, elements]
  split
  · exact alike_ok [] (Nat.le_succ ts.length)
  · exact alike_unexpected (Nat.lt_succ_self _)
  · refine alike_bind (ih.element _ (t :: ts) more) (Nat.le_refl _) fun item us => ?_
    refine alike_comma (fun vs more => ?_) us more
    exact alike_bind (ih.elements vs more) (Nat.le_refl _) fun items ws =>
      alike_ok _ (Nat.le_refl ws.length)

theorem alike_element (location : Location) (ts more : List Token) :
    Alike ts.length more (element locate (n + 1) location ts)
      (element locate (n + 1) location (ts ++ more)) := by
  rw [element, element]
  refine alike_bind (ih.binary 1 ts more) (Nat.le_refl _) fun first us => ?_
  apply alike_of_cons _ _ us more
  · rfl
  intro t us more
  dsimp only
  split
  · exact alike_bind (ih.binary 1 us more) (Nat.le_succ _) fun value vs =>
      alike_ok _ (Nat.le_refl vs.length)
  · exact alike_ok _ (Nat.le_refl (t :: us).length)

theorem alike_block (expected : Expected) (ts more : List Token) :
    Alike ts.length more (block locate (n + 1) expected ts)
      (block locate (n + 1) expected (ts ++ more)) := by
  rw [block, block]
  refine alike_bind (alike_token _ _ ts more) (Nat.le_refl _) fun opening us => ?_
  exact alike_bind (ih.statements true us more) (Nat.le_refl _) fun body vs =>
    alike_ok _ (Nat.le_refl vs.length)

theorem alike_statements (inBlock : Bool) (ts more : List Token) :
    Alike ts.length more (statements locate (n + 1) inBlock ts)
      (statements locate (n + 1) inBlock (ts ++ more)) := by
  apply alike_of_cons _ _ ts more
  · rfl
  intro t ts more
  rw [statements, statements]
  split
  · split
    · exact alike_unexpected (Nat.lt_succ_self _)
    · exact alike_ok [] (Nat.le_refl (t :: ts).length)
  · split
    · exact alike_ok [] (Nat.le_succ ts.length)
    · refine alike_bind (ih.statement (t :: ts) more) (Nat.le_refl _) fun first us => ?_
      exact alike_bind (ih.statements inBlock us more) (Nat.le_refl _) fun others vs =>
        alike_ok _ (Nat.le_refl vs.length)

theorem alike_sentence (t : Token) (ts more : List Token) :
    Alike (ts.length + 1) more (sentence locate n t ts) (sentence locate n t (ts ++ more)) := by
  refine alike_bind (ih.binary 1 (t :: ts) more) (Nat.le_refl _) fun first us => ?_
  apply alike_of_cons _ _ us more
  · rfl
  intro next us more
  dsimp only
  split
  · refine alike_bind (ih.binary 1 us more) (Nat.le_succ _) fun value vs => ?_
    exact alike_terminator (fun ws more => alike_ok _ (Nat.le_refl ws.length)) vs more
  · exact alike_ok _ (Nat.le_refl (next :: us).length)

theorem alike_statement (ts more : List Token) :
    Alike ts.length more (statement locate (n + 1) ts) (statement locate (n + 1) (ts ++ more)) := by
  apply alike_of_cons _ _ ts more
  · rfl
  intro t ts more
  have expression := alike_sentence locate ih t ts more
  rw [statement, statement]
  split
  · refine alike_bind (ih.block _ (t :: ts) more) (Nat.le_refl _) fun body us => ?_
    exact alike_terminator (fun vs more => alike_ok _ (Nat.le_refl vs.length)) us more
  · exact alike_bind (ih.branch _ ts more) (Nat.le_succ _) fun branch us =>
      alike_ok _ (Nat.le_refl us.length)
  · exact alike_ok _ (Nat.le_succ ts.length)
  · refine alike_bind (ih.binary 1 ts more) (Nat.le_succ _) fun test us => ?_
    exact alike_bind (ih.block _ us more) (Nat.le_refl _) fun body vs =>
      alike_ok _ (Nat.le_refl vs.length)
  · refine alike_bind (ih.returned ts more) (Nat.le_succ _) fun value us => ?_
    exact alike_terminator (fun vs more => alike_ok _ (Nat.le_refl vs.length)) us more
  · exact expression
  · exact expression
  · exact expression
  · exact alike_unexpected (Nat.lt_succ_self _)

theorem alike_returned (ts more : List Token) :
    Alike ts.length more (returned locate (n + 1) ts) (returned locate (n + 1) (ts ++ more)) := by
  apply alike_of_cons _ _ ts more
  · rfl
  intro t ts more
  rw [returned, returned]
  split
  · exact alike_ok none (Nat.le_refl (t :: ts).length)
  · exact alike_ok none (Nat.le_refl (t :: ts).length)
  · exact alike_bind (ih.binary 1 (t :: ts) more) (Nat.le_refl _) fun value us =>
      alike_ok _ (Nat.le_refl us.length)

theorem alike_branch (location : Location) (ts more : List Token) :
    Alike ts.length more (branch locate (n + 1) location ts)
      (branch locate (n + 1) location (ts ++ more)) := by
  rw [branch, branch]
  refine alike_bind (ih.binary 1 ts more) (Nat.le_refl _) fun test us => ?_
  refine alike_bind (ih.block _ us more) (Nat.le_refl _) fun body vs => ?_
  apply alike_of_cons _ _ vs more
  · rfl
  intro t vs more
  dsimp only
  split
  · exact alike_bind (ih.otherwise vs more) (Nat.le_succ _) fun otherwise ws =>
      alike_ok _ (Nat.le_refl ws.length)
  · exact alike_terminator (fun ws more => alike_ok _ (Nat.le_refl ws.length)) (t :: vs) more

theorem alike_otherwise (ts more : List Token) :
    Alike ts.length more (otherwise locate (n + 1) ts) (otherwise locate (n + 1) (ts ++ more)) := by
  apply alike_of_cons _ _ ts more
  · rfl
  intro t ts more
  rw [otherwise, otherwise]
  split
  · exact alike_bind (ih.branch _ ts more) (Nat.le_succ _) fun next us =>
      alike_ok _ (Nat.le_refl us.length)
  · refine alike_bind (ih.block _ (t :: ts) more) (Nat.le_refl _) fun body us => ?_
    exact alike_terminator (fun vs more => alike_ok _ (Nat.le_refl vs.length)) us more

theorem alikeAt_succ : AlikeAt locate (n + 1) where
  binary := alike_binary locate ih
  operators := alike_operators locate ih
  unary := alike_unary locate ih
  suffixes := alike_suffixes locate ih
  operand := alike_operand locate ih
  arguments := alike_arguments locate ih
  elements := alike_elements locate ih
  element := alike_element locate ih
  block := alike_block locate ih
  statements := alike_statements locate ih
  statement := alike_statement locate ih
  returned := alike_returned locate ih
  branch := alike_branch locate ih
  otherwise := alike_otherwise locate ih

end Step

theorem alikeAt (n : Nat) : AlikeAt locate n := by
  induction n with
  | zero => constructor <;> intros <;> exact ⟨trivial, .inl rfl⟩
  | succ n ih => exact alikeAt_succ locate ih

theorem isUnary_of_beginsTarget {kind : TokenKind} (begins : kind.beginsTarget = true) :
    kind.isUnary = false := by
  cases kind <;> first | rfl | cases begins

/-- An expression that begins as the target of an assignment takes its first token. -/
theorem shrinks_target {t : Token} (begins : t.kind.beginsTarget = true) (n level : Nat)
    (ts : List Token) : Shrinks ts.length (binary locate n level (t :: ts)) := by
  have isOperand : ∀ n, Shrinks ts.length (operand locate n (t :: ts)) := by
    intro n
    cases n with
    | zero => trivial
    | succ n =>
        have later := alikeAt locate n
        rw [operand]
        unfold TokenKind.beginsTarget at begins
        split at begins
        · rename_i kind
          rw [kind]
          exact Nat.le_refl _
        · rename_i kind
          rw [kind]
          exact shrinks_bind (later.elements ts []).shrinks fun _ _ => Nat.le_refl _
        · rename_i kind
          rw [kind]
          refine shrinks_bind (later.binary 1 ts []).shrinks fun inner us => ?_
          exact shrinks_bind (alike_token _ _ us []).shrinks fun _ _ => Nat.le_refl _
        · cases begins
  cases n with
  | zero => trivial
  | succ n =>
      rw [binary]
      refine shrinks_bind ?_ fun left us => ((alikeAt locate n).operators level left us []).shrinks
      cases n with
      | zero => trivial
      | succ n =>
          rw [unary, isUnary_of_beginsTarget begins]
          exact shrinks_bind (isOperand n) fun base us =>
            ((alikeAt locate n).suffixes base us []).shrinks

/-- A rejected token is rejected whatever comes after it. -/
theorem statements_unexpected {n : Nat} {inBlock : Bool} {before rest : List Token} {found : Token}
    {expected : Expected}
    (rejected : statements locate n inBlock (before ++ found :: rest) =
      .error (.unexpected expected found rest)) (later : List Token) :
    statements locate n inBlock (before ++ found :: later) =
      .error (.unexpected expected found later) := by
  have alike := (alikeAt locate n).statements inBlock (before ++ [found])
  -- the reading of the tokens up to the rejected one has not asked for a token behind them
  have stops : statements locate n inBlock (before ++ [found]) =
      .error (.unexpected expected found []) := by
    obtain ⟨-, same⟩ := alike rest
    rw [List.append_assoc, List.singleton_append, rejected] at same
    rcases same with same | ⟨-, among⟩
    · match read : statements locate n inBlock (before ++ [found]) with
      | .ok (_, _) | .error (.badNumeral _) | .error .outOfTokens | .error .outOfFuel =>
          rw [read] at same
          cases same
      | .error (.unexpected expected' found' us) =>
          rw [read, extend] at same
          injection same with same
          injection same with asked seen left
          rw [← asked, ← seen, List.append_left_eq_self.mp left.symm]
    · exact absurd among (Nat.lt_irrefl _)
  obtain ⟨-, same⟩ := alike later
  rw [List.append_assoc, List.singleton_append, stops] at same
  rcases same with same | ⟨out, -⟩
  · exact same
  · cases out

end Mini.Grammar
