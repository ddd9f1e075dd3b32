import Mini.Proofs.Syntax.Relabelling
import Mini.Syntax.Grammar

/-!
# The budget of a reading

Two facts take the budget out of everything else that is proved about the grammar.
More of it changes nothing but readings that had run out, and five calls for each
token and a few more are enough. The second rests on the tokens being used up: what
a part of the grammar leaves is shorter than what it was given.

Locations are no more looked at than the budget is. So the first fact is shown for
readings with other places as well: they give the tree with these places.
-/

namespace Mini.Grammar

variable {α β : Type}

/-! ## More budget, other places -/

/-- The first reading has run out of budget, or the second one is the same with new labels. -/
def Improves (relabel : α → α) (r r' : Reading (α × List Token)) : Prop :=
  r = .error .outOfFuel ∨ r' = r.map fun (a, ts) => (relabel a, ts)

section Bind

variable {relabel : α → α} {relabel' : β → β}

theorem improves_ok (relabel : α → α) (a : α) (ts : List Token) :
    Improves relabel (.ok (a, ts)) (.ok (relabel a, ts)) :=
  .inr rfl

theorem improves_error (relabel : α → α) (e : Rejection) :
    Improves relabel (.error e) (.error e) :=
  .inr rfl

theorem improves_bind {r r' : Reading (α × List Token)}
    {f f' : α × List Token → Reading (β × List Token)} (h : Improves relabel r r')
    (later : ∀ a ts, Improves relabel' (f (a, ts)) (f' (relabel a, ts))) :
    Improves relabel' (r >>= f) (r' >>= f') := by
  rcases h with out | same
  · rw [out]
    exact .inl rfl
  · rw [same]
    cases r with
    | ok result => exact later result.1 result.2
    | error e => exact improves_error relabel' e

/-- The same reading, with what comes after it. -/
theorem improves_later {γ : Type} {r : Reading γ} {f f' : γ → Reading (β × List Token)}
    (later : ∀ c, Improves relabel' (f c) (f' c)) :
    Improves relabel' (r >>= f) (r >>= f') := by
  cases r with
  | ok c => exact later c
  | error e => exact improves_error relabel' e

end Bind

variable (locate : Position → Location)

/-- A statement that begins with an expression. -/
def sentence (fuel : Nat) (t : Token) (ts : List Token) : Reading (Stmt × List Token) := do
  let (first, us) ← binary locate fuel 1 (t :: ts)
  match us with
  | [] => .error .outOfTokens
  | next :: rest =>
      if next.kind = .assign then do
        let (value, vs) ← binary locate fuel 1 rest
        let vs ← terminator vs
        return (.assign (locate t.start) first value, vs)
      else return (.expr (locate t.start) first, next :: rest)

/-- The places that a relabelling puts for those of a text. -/
def relocate (ρ : Relabelling) (locate : Position → Location) (p : Position) : Location :=
  ρ.place (locate p)

/-- One more call of budget and other places improve every reading. -/
structure ImprovesAt (ρ : Relabelling) (n : Nat) : Prop where
  binary : ∀ level ts, Improves ρ.expr (binary locate n level ts)
    (binary (relocate ρ locate) (n + 1) level ts)
  operators : ∀ level left ts, Improves ρ.expr (operators locate n level left ts)
    (operators (relocate ρ locate) (n + 1) level (ρ.expr left) ts)
  unary : ∀ ts, Improves ρ.expr (unary locate n ts) (unary (relocate ρ locate) (n + 1) ts)
  suffixes : ∀ base ts, Improves ρ.expr (suffixes locate n base ts)
    (suffixes (relocate ρ locate) (n + 1) (ρ.expr base) ts)
  operand : ∀ ts, Improves ρ.expr (operand locate n ts) (operand (relocate ρ locate) (n + 1) ts)
  arguments : ∀ ts, Improves ρ.exprs (arguments locate n ts)
    (arguments (relocate ρ locate) (n + 1) ts)
  elements : ∀ ts, Improves ρ.elements (elements locate n ts)
    (elements (relocate ρ locate) (n + 1) ts)
  element : ∀ location ts, Improves ρ.element (element locate n location ts)
    (element (relocate ρ locate) (n + 1) (ρ.place location) ts)
  block : ∀ expected ts, Improves ρ.block (block locate n expected ts)
    (block (relocate ρ locate) (n + 1) expected ts)
  statements : ∀ inBlock ts, Improves ρ.stmts (statements locate n inBlock ts)
    (statements (relocate ρ locate) (n + 1) inBlock ts)
  statement : ∀ ts, Improves ρ.stmt (statement locate n ts)
    (statement (relocate ρ locate) (n + 1) ts)
  returned : ∀ ts, Improves (Option.map ρ.expr) (returned locate n ts)
    (returned (relocate ρ locate) (n + 1) ts)
  branch : ∀ location ts, Improves ρ.branch (branch locate n location ts)
    (branch (relocate ρ locate) (n + 1) (ρ.place location) ts)
  otherwise : ∀ ts, Improves ρ.otherwise (otherwise locate n ts)
    (otherwise (relocate ρ locate) (n + 1) ts)

section ImprovesAt

variable {ρ : Relabelling}

theorem improves_sentence {n : Nat}
    (expression : ∀ ts, Improves ρ.expr (binary locate n 1 ts)
      (binary (relocate ρ locate) (n + 1) 1 ts)) (t : Token) (ts : List Token) :
    Improves ρ.stmt (sentence locate n t ts) (sentence (relocate ρ locate) (n + 1) t ts) := by
  apply improves_bind (expression _)
  intro first us
  cases us with
  | nil => exact improves_error _ _
  | cons next rest =>
      dsimp only
      split
      · refine improves_bind (expression rest) fun value vs => ?_
        exact improves_later fun vs => improves_ok ρ.stmt (.assign (locate t.start) first value) vs
      · exact improves_ok ρ.stmt (.expr (locate t.start) first) (next :: rest)

variable (names : ∀ n, ρ.name n = n)
include names

theorem relabelled_identifier (t : Token) :
    (⟨relocate ρ locate t.start, t.text⟩ : Identifier) =
      ρ.identifier ⟨locate t.start, t.text⟩ := by
  rw [Relabelling.identifier, names]
  rfl

theorem improves_identifier (expected : Expected) (ts : List Token) :
    Improves ρ.identifier (identifier locate expected ts)
      (identifier (relocate ρ locate) expected ts) := by
  rw [identifier, identifier]
  refine improves_later fun ⟨t, us⟩ => ?_
  dsimp only
  rw [relabelled_identifier locate names]
  exact improves_ok ρ.identifier ⟨locate t.start, t.text⟩ us

theorem improves_parameters (n : Nat) (ts : List Token) :
    Improves (List.map ρ.identifier) (parameters locate n ts)
      (parameters (relocate ρ locate) (n + 1) ts) := by
  induction n generalizing ts with
  | zero => exact .inl rfl
  | succ n ih =>
      cases ts with
      | nil => exact improves_error _ _
      | cons t ts =>
          rw [parameters, parameters]
          split
          · exact improves_ok (List.map ρ.identifier) [] ts
          · exact improves_error _ _
          · refine improves_bind (improves_identifier locate names _ _) fun param us => ?_
            refine improves_later fun vs => improves_bind (ih vs) fun params ws => ?_
            exact improves_ok (List.map ρ.identifier) (param :: params) ws

variable {n : Nat} (ih : ImprovesAt locate ρ n)

section Step

include ih
omit names

theorem improves_binary (level : Nat) (ts : List Token) :
    Improves ρ.expr (binary locate (n + 1) level ts)
      (binary (relocate ρ locate) (n + 1 + 1) level ts) := by
  rw [binary, binary]
  exact improves_bind (ih.unary ts) fun left us => ih.operators level left us

theorem improves_operators (level : Nat) (left : Expr) (ts : List Token) :
    Improves ρ.expr (operators locate (n + 1) level left ts)
      (operators (relocate ρ locate) (n + 1 + 1) level (ρ.expr left) ts) := by
  cases ts with
  | nil => exact improves_error _ _
  | cons op ts =>
      rw [operators, operators]
      dsimp only
      split
      · exact improves_ok ρ.expr left (op :: ts)
      · refine improves_bind (ih.binary _ ts) fun right us => ?_
        rw [ρ.location_expr]
        exact ih.operators level (.binary left.location op left right) us

theorem improves_unary (ts : List Token) :
    Improves ρ.expr (unary locate (n + 1) ts) (unary (relocate ρ locate) (n + 1 + 1) ts) := by
  cases ts with
  | nil => exact improves_error _ _
  | cons op ts =>
      rw [unary, unary]
      split
      · refine improves_bind (ih.unary ts) fun inner us => ?_
        exact improves_ok ρ.expr (.unary (locate op.start) op inner) us
      · exact improves_bind (ih.operand _) fun base us => ih.suffixes base us

theorem improves_arguments (ts : List Token) :
    Improves ρ.exprs (arguments locate (n + 1) ts)
      (arguments (relocate ρ locate) (n + 1 + 1) ts) := by
  cases ts with
  | nil => exact improves_error _ _
  | cons t ts =>
      rw [arguments, arguments]
      split
      · exact improves_ok ρ.exprs [] ts
      · exact improves_error _ _
      · refine improves_bind (ih.binary 1 _) fun arg us => improves_later fun vs => ?_
        refine improves_bind (ih.arguments vs) fun args ws => ?_
        exact improves_ok ρ.exprs (arg :: args) ws

theorem improves_elements (ts : List Token) :
    Improves ρ.elements (elements locate (n + 1) ts)
      (elements (relocate ρ locate) (n + 1 + 1) ts) := by
  cases ts with
  | nil => exact improves_error _ _
  | cons t ts =>
      rw [elements, elements]
      split
      · exact improves_ok ρ.elements [] ts
      · exact improves_error _ _
      · refine improves_bind (ih.element _ _) fun element us => improves_later fun vs => ?_
        refine improves_bind (ih.elements vs) fun elements ws => ?_
        exact improves_ok ρ.elements (element :: elements) ws

theorem improves_element (location : Location) (ts : List Token) :
    Improves ρ.element (element locate (n + 1) location ts)
      (element (relocate ρ locate) (n + 1 + 1) (ρ.place location) ts) := by
  rw [element, element]
  apply improves_bind (ih.binary 1 ts)
  intro first us
  cases us with
  | nil => exact improves_error _ _
  | cons t us =>
      dsimp only
      split
      · refine improves_bind (ih.binary 1 us) fun value vs => ?_
        exact improves_ok ρ.element (.keyed location first value) vs
      · exact improves_ok ρ.element (.plain first) (t :: us)

theorem improves_block (expected : Expected) (ts : List Token) :
    Improves ρ.block (block locate (n + 1) expected ts)
      (block (relocate ρ locate) (n + 1 + 1) expected ts) := by
  rw [block, block]
  refine improves_later fun ⟨opening, us⟩ => ?_
  refine improves_bind (ih.statements true us) fun body vs => ?_
  exact improves_ok ρ.block (.mk (locate opening.start) body) vs

theorem improves_statements (inBlock : Bool) (ts : List Token) :
    Improves ρ.stmts (statements locate (n + 1) inBlock ts)
      (statements (relocate ρ locate) (n + 1 + 1) inBlock ts) := by
  cases ts with
  | nil => exact improves_error _ _
  | cons t ts =>
      rw [statements, statements]
      split
      · split
        · exact improves_error _ _
        · exact improves_ok ρ.stmts [] (t :: ts)
      · split
        · exact improves_ok ρ.stmts [] ts
        · refine improves_bind (ih.statement _) fun first us => ?_
          refine improves_bind (ih.statements inBlock us) fun others vs => ?_
          exact improves_ok ρ.stmts (first :: others) vs

theorem improves_statement (ts : List Token) :
    Improves ρ.stmt (statement locate (n + 1) ts)
      (statement (relocate ρ locate) (n + 1 + 1) ts) := by
  cases ts with
  | nil => exact improves_error _ _
  | cons t ts =>
      rw [statement, statement]
      have expression := improves_sentence locate (ih.binary 1) t ts
      split
      · refine improves_bind (ih.block _ _) fun body us => improves_later fun vs => ?_
        exact improves_ok ρ.stmt (.block body) vs
      · refine improves_bind (ih.branch _ _) fun branch us => ?_
        exact improves_ok ρ.stmt (.cond branch) us
      · exact improves_ok ρ.stmt (.empty (locate t.start)) ts
      · refine improves_bind (ih.binary 1 ts) fun test us => ?_
        refine improves_bind (ih.block _ us) fun body vs => ?_
        exact improves_ok ρ.stmt (.loop (locate t.start) test body) vs
      · refine improves_bind (ih.returned ts) fun value us => improves_later fun vs => ?_
        cases value with
        | none => exact improves_ok ρ.stmt (.ret (locate t.start) none) vs
        | some e => exact improves_ok ρ.stmt (.ret (locate t.start) (some e)) vs
      · exact expression
      · exact expression
      · exact expression
      · exact improves_error _ _

theorem improves_returned (ts : List Token) :
    Improves (Option.map ρ.expr) (returned locate (n + 1) ts)
      (returned (relocate ρ locate) (n + 1 + 1) ts) := by
  cases ts with
  | nil => exact improves_error _ _
  | cons t ts =>
      rw [returned, returned]
      split
      · exact improves_ok (Option.map ρ.expr) none (t :: ts)
      · exact improves_ok (Option.map ρ.expr) none (t :: ts)
      · refine improves_bind (ih.binary 1 _) fun value us => ?_
        exact improves_ok (Option.map ρ.expr) (some value) us

theorem improves_branch (location : Location) (ts : List Token) :
    Improves ρ.branch (branch locate (n + 1) location ts)
      (branch (relocate ρ locate) (n + 1 + 1) (ρ.place location) ts) := by
  rw [branch, branch]
  apply improves_bind (ih.binary 1 ts)
  intro test us
  apply improves_bind (ih.block _ us)
  intro body vs
  cases vs with
  | nil => exact improves_error _ _
  | cons t vs =>
      dsimp only
      split
      · refine improves_bind (ih.otherwise vs) fun rest ws => ?_
        exact improves_ok ρ.branch (.mk location test body rest) ws
      · refine improves_later fun ws => ?_
        exact improves_ok ρ.branch (.mk location test body .nothing) ws

theorem improves_otherwise (ts : List Token) :
    Improves ρ.otherwise (otherwise locate (n + 1) ts)
      (otherwise (relocate ρ locate) (n + 1 + 1) ts) := by
  cases ts with
  | nil => exact improves_error _ _
  | cons t ts =>
      rw [otherwise, otherwise]
      split
      · refine improves_bind (ih.branch _ ts) fun next us => ?_
        exact improves_ok ρ.otherwise (.branch next) us
      · refine improves_bind (ih.block _ _) fun body us => improves_later fun vs => ?_
        exact improves_ok ρ.otherwise (.block body) vs

end Step

include ih

theorem improves_suffixes (base : Expr) (ts : List Token) :
    Improves ρ.expr (suffixes locate (n + 1) base ts)
      (suffixes (relocate ρ locate) (n + 1 + 1) (ρ.expr base) ts) := by
  cases ts with
  | nil => exact improves_error _ _
  | cons t ts =>
      rw [suffixes, suffixes]
      split
      · refine improves_bind (improves_identifier locate names _ _) fun selector us => ?_
        exact ih.suffixes (.select (locate t.start) base selector) us
      · refine improves_bind (ih.binary 1 ts) fun key us => improves_later fun ⟨_, vs⟩ => ?_
        exact ih.suffixes (.index (locate t.start) base key) vs
      · refine improves_bind (ih.arguments ts) fun args us => ?_
        exact ih.suffixes (.call (locate t.start) base args) us
      · exact improves_ok ρ.expr base (t :: ts)

theorem improves_operand (ts : List Token) :
    Improves ρ.expr (operand locate (n + 1) ts)
      (operand (relocate ρ locate) (n + 1 + 1) ts) := by
  cases ts with
  | nil => exact improves_error _ _
  | cons t ts =>
      rw [operand, operand]
      split
      · rw [relabelled_identifier locate names]
        exact improves_ok ρ.expr (.ident ⟨locate t.start, t.text⟩) ts
      · cases Text.readInteger t.text with
        | ok value => exact improves_ok ρ.expr (.number (locate t.start) value) ts
        | error fault => exact improves_error _ _
      · exact improves_ok ρ.expr (.text (locate t.start) (StringLiteral.decode t.text)) ts
      · refine improves_bind (ih.binary 1 ts) fun inner us => improves_later fun ⟨_, vs⟩ => ?_
        exact improves_ok ρ.expr (.paren (locate t.start) inner) vs
      · refine improves_bind (ih.elements ts) fun items us => ?_
        exact improves_ok ρ.expr (.array (locate t.start) items) us
      · refine improves_later fun ⟨_, us⟩ => ?_
        refine improves_bind (improves_parameters locate names n us) fun params vs => ?_
        refine improves_bind (ih.block _ vs) fun body ws => ?_
        exact improves_ok ρ.expr (.func (locate t.start) params body) ws
      · exact improves_error _ _

theorem improvesAt_succ : ImprovesAt locate ρ (n + 1) where
  binary := improves_binary locate ih
  operators := improves_operators locate ih
  unary := improves_unary locate ih
  suffixes := improves_suffixes locate names ih
  operand := improves_operand locate names ih
  arguments := improves_arguments locate ih
  elements := improves_elements locate ih
  element := improves_element locate ih
  block := improves_block locate ih
  statements := improves_statements locate ih
  statement := improves_statement locate ih
  returned := improves_returned locate ih
  branch := improves_branch locate ih
  otherwise := improves_otherwise locate ih

end ImprovesAt

theorem improvesAt {ρ : Relabelling} (names : ∀ n, ρ.name n = n) (n : Nat) :
    ImprovesAt locate ρ n := by
  induction n with
  | zero => constructor <;> intros <;> exact .inl rfl
  | succ n ih => exact improvesAt_succ locate names ih

/-- More budget alone improves a reading. -/
theorem improves_same (n : Nat) (inBlock : Bool) (ts : List Token) :
    Improves id (statements locate n inBlock ts) (statements locate (n + 1) inBlock ts) := by
  have improves := (improvesAt locate Relabelling.keepsTrees_same.name n).statements inBlock ts
  rw [funext Relabelling.keepsTrees_same.stmts_eq] at improves
  exact improves

/-- A reading that has not run out does not depend on how much budget there is. -/
theorem steady {read : Nat → Reading (α × List Token)}
    (improves : ∀ n, Improves id (read n) (read (n + 1))) {n m : Nat} (le : n ≤ m)
    (ends : read n ≠ .error .outOfFuel) : read m = read n := by
  induction le with
  | refl => rfl
  | @step m le ih =>
      rcases improves m with out | same
      · rw [ih] at out
        exact absurd out ends
      · rw [same, ih]
        cases read n <;> rfl

/-! ## Enough budget -/

/-- A reading that has not run out of budget, and leaves fewer than `bound` tokens. -/
def Within (bound : Nat) (r : Reading (α × List Token)) : Prop :=
  match r with
  | .ok (_, rest) => rest.length < bound
  | .error e => e ≠ .outOfFuel

theorem within_bind {k bound : Nat} {r : Reading (α × List Token)}
    {f : α × List Token → Reading (β × List Token)} (h : Within k r)
    (later : ∀ a rest, rest.length < k → Within bound (f (a, rest))) : Within bound (r >>= f) := by
  cases r with
  | ok result => exact later result.1 result.2 h
  | error e => exact h

theorem within_mono {k bound : Nat} {r : Reading (α × List Token)} (le : k ≤ bound)
    (h : Within k r) : Within bound r := by
  cases r with
  | ok result => exact Nat.lt_of_lt_of_le h le
  | error e => exact h

theorem within_comma {bound : Nat} {ts : List Token} {f : List Token → Reading (β × List Token)}
    (later : ∀ rest, rest.length ≤ ts.length → Within bound (f rest)) :
    Within bound (comma ts >>= f) := by
  cases ts with
  | nil => exact fun e => Rejection.noConfusion e
  | cons t ts =>
      show Within bound (f (if t.kind = .comma then ts else t :: ts))
      split
      · exact later ts (Nat.le_succ _)
      · exact later (t :: ts) (Nat.le_refl _)

theorem within_terminator {bound : Nat} {ts : List Token}
    {f : List Token → Reading (β × List Token)}
    (later : ∀ rest, rest.length ≤ ts.length → Within bound (f rest)) :
    Within bound (terminator ts >>= f) := by
  cases ts with
  | nil => exact fun e => Rejection.noConfusion e
  | cons t ts =>
      rw [terminator]
      split
      · exact later (t :: ts) (Nat.le_refl _)
      · exact later (t :: ts) (Nat.le_refl _)
      · exact later ts (Nat.le_succ _)
      · exact fun e => Rejection.noConfusion e

theorem within_token {kind : TokenKind} {expected : Expected} (ts : List Token) :
    Within ts.length (token kind expected ts) := by
  cases ts with
  | nil => exact fun e => Rejection.noConfusion e
  | cons t ts =>
      rw [token]
      split
      · exact Nat.lt_succ_self _
      · exact fun e => Rejection.noConfusion e

theorem within_identifier {expected : Expected} (ts : List Token) :
    Within ts.length (identifier locate expected ts) :=
  within_bind (within_token ts) fun _ _ lt => lt

theorem within_parameters {n : Nat} {ts : List Token} (enough : 5 * ts.length + 1 ≤ n) :
    Within ts.length (parameters locate n ts) := by
  induction n generalizing ts with
  | zero => omega
  | succ n ih =>
      cases ts with
      | nil => exact fun e => Rejection.noConfusion e
      | cons t ts =>
          rw [parameters]
          split
          · exact Nat.lt_succ_self _
          · exact fun e => Rejection.noConfusion e
          · apply within_bind (within_identifier locate _)
            intro param us used
            refine within_comma ?_
            intro vs kept
            rw [List.length_cons] at enough used ⊢
            apply within_bind (ih (by omega))
            intro params rest fewer
            show rest.length < ts.length + 1
            omega

theorem within_sentence {n bound : Nat} {t : Token} {ts : List Token}
    (expression : ∀ us : List Token, us.length ≤ (t :: ts).length →
      Within us.length (binary locate n 1 us))
    (le : (t :: ts).length ≤ bound) : Within bound (sentence locate n t ts) := by
  apply within_bind (expression _ (Nat.le_refl _))
  intro first us used
  cases us with
  | nil => exact fun e => Rejection.noConfusion e
  | cons next rest =>
      dsimp only
      rw [List.length_cons] at used
      split
      · apply within_bind (expression rest (by omega))
        intro value vs left
        refine within_terminator ?_
        intro ws (kept : ws.length ≤ vs.length)
        show ws.length < bound
        omega
      · show rest.length + 1 < bound
        omega

/-- Five calls for each token, and a few more, are enough budget, and every part of the
grammar but a loop uses a token up. -/
structure WithinAt (n : Nat) : Prop where
  binary : ∀ level ts, 5 * ts.length + 3 ≤ n → Within ts.length (binary locate n level ts)
  operators : ∀ level left ts, 5 * ts.length + 1 ≤ n →
    Within (ts.length + 1) (operators locate n level left ts)
  unary : ∀ ts, 5 * ts.length + 2 ≤ n → Within ts.length (unary locate n ts)
  suffixes : ∀ base ts, 5 * ts.length + 1 ≤ n →
    Within (ts.length + 1) (suffixes locate n base ts)
  operand : ∀ ts, 5 * ts.length + 1 ≤ n → Within ts.length (operand locate n ts)
  arguments : ∀ ts, 5 * ts.length + 4 ≤ n → Within ts.length (arguments locate n ts)
  elements : ∀ ts, 5 * ts.length + 5 ≤ n → Within ts.length (elements locate n ts)
  element : ∀ location ts, 5 * ts.length + 4 ≤ n →
    Within ts.length (element locate n location ts)
  block : ∀ expected ts, 5 * ts.length + 1 ≤ n → Within ts.length (block locate n expected ts)
  statements : ∀ inBlock ts, 5 * ts.length + 5 ≤ n →
    Within (ts.length + 1) (statements locate n inBlock ts)
  statement : ∀ ts, 5 * ts.length + 4 ≤ n → Within ts.length (statement locate n ts)
  returned : ∀ ts, 5 * ts.length + 4 ≤ n → Within (ts.length + 1) (returned locate n ts)
  branch : ∀ location ts, 5 * ts.length + 4 ≤ n → Within ts.length (branch locate n location ts)
  otherwise : ∀ ts, 5 * ts.length + 2 ≤ n → Within ts.length (otherwise locate n ts)

/-! A call that takes no token goes to a reading that asks for less budget on as many tokens; any
other leaves fewer tokens to the next one. -/

section WithinAt

variable {n : Nat} (ih : WithinAt locate n)
include ih

theorem within_binary (level : Nat) (ts : List Token) (enough : 5 * ts.length + 3 ≤ n + 1) :
    Within ts.length (binary locate (n + 1) level ts) := by
  rw [binary]
  apply within_bind (ih.unary ts (by omega))
  intro left us used
  refine within_mono ?_ (ih.operators level left us (by omega))
  omega

theorem within_operators (level : Nat) (left : Expr) (ts : List Token)
    (enough : 5 * ts.length + 1 ≤ n + 1) :
    Within (ts.length + 1) (operators locate (n + 1) level left ts) := by
  cases ts with
  | nil => exact fun e => Rejection.noConfusion e
  | cons op ts =>
      rw [operators]
      rw [List.length_cons] at enough ⊢
      dsimp only
      split
      · exact Nat.lt_succ_self _
      · apply within_bind (ih.binary _ ts (by omega))
        intro right us used
        refine within_mono ?_ (ih.operators level _ us (by omega))
        omega

theorem within_unary (ts : List Token) (enough : 5 * ts.length + 2 ≤ n + 1) :
    Within ts.length (unary locate (n + 1) ts) := by
  cases ts with
  | nil => exact fun e => Rejection.noConfusion e
  | cons op ts =>
      rw [unary]
      rw [List.length_cons] at enough ⊢
      split
      · apply within_bind (ih.unary ts (by omega))
        intro inner us used
        exact Nat.lt_succ_of_lt used
      · apply within_bind (ih.operand (op :: ts) (by simp; omega))
        intro base us used
        rw [List.length_cons] at used
        refine within_mono ?_ (ih.suffixes base us (by omega))
        omega

theorem within_suffixes (base : Expr) (ts : List Token) (enough : 5 * ts.length + 1 ≤ n + 1) :
    Within (ts.length + 1) (suffixes locate (n + 1) base ts) := by
  cases ts with
  | nil => exact fun e => Rejection.noConfusion e
  | cons t ts =>
      rw [suffixes]
      rw [List.length_cons] at enough ⊢
      split
      · apply within_bind (within_identifier locate ts)
        intro selector us used
        refine within_mono ?_ (ih.suffixes _ us (by omega))
        omega
      · apply within_bind (ih.binary 1 ts (by omega))
        intro key us used
        apply within_bind (within_token us)
        intro close vs closed
        refine within_mono ?_ (ih.suffixes _ vs (by omega))
        omega
      · apply within_bind (ih.arguments ts (by omega))
        intro args us used
        refine within_mono ?_ (ih.suffixes _ us (by omega))
        omega
      · exact Nat.lt_succ_self _

theorem within_operand (ts : List Token) (enough : 5 * ts.length + 1 ≤ n + 1) :
    Within ts.length (operand locate (n + 1) ts) := by
  cases ts with
  | nil => exact fun e => Rejection.noConfusion e
  | cons t ts =>
      rw [operand]
      rw [List.length_cons] at enough ⊢
      split
      · exact Nat.lt_succ_self _
      · cases Text.readInteger t.text with
        | ok value => exact Nat.lt_succ_self _
        | error fault => exact fun e => Rejection.noConfusion e
      · exact Nat.lt_succ_self _
      · apply within_bind (ih.binary 1 ts (by omega))
        intro inner us used
        apply within_bind (within_token us)
        intro close vs closed
        show vs.length < ts.length + 1
        omega
      · apply within_bind (ih.elements ts (by omega))
        intro elements us used
        exact Nat.lt_succ_of_lt used
      · apply within_bind (within_token ts)
        intro opening us used
        apply within_bind (within_parameters locate (by omega))
        intro params vs fewer
        apply within_bind (ih.block _ vs (by omega))
        intro body rest left
        show rest.length < ts.length + 1
        omega
      · exact fun e => Rejection.noConfusion e

theorem within_arguments (ts : List Token) (enough : 5 * ts.length + 4 ≤ n + 1) :
    Within ts.length (arguments locate (n + 1) ts) := by
  cases ts with
  | nil => exact fun e => Rejection.noConfusion e
  | cons t ts =>
      rw [arguments]
      split
      · exact Nat.lt_succ_self _
      · exact fun e => Rejection.noConfusion e
      · apply within_bind (ih.binary 1 (t :: ts) (by omega))
        intro arg us used
        refine within_comma ?_
        intro vs kept
        apply within_bind (ih.arguments vs (by omega))
        intro args rest left
        show rest.length < (t :: ts).length
        omega

theorem within_elements (ts : List Token) (enough : 5 * ts.length + 5 ≤ n + 1) :
    Within ts.length (elements locate (n + 1) ts) := by
  cases ts with
  | nil => exact fun e => Rejection.noConfusion e
  | cons t ts =>
      rw [elements]
      split
      · exact Nat.lt_succ_self _
      · exact fun e => Rejection.noConfusion e
      · apply within_bind (ih.element _ (t :: ts) (by omega))
        intro element us used
        refine within_comma ?_
        intro vs kept
        apply within_bind (ih.elements vs (by omega))
        intro elements rest left
        show rest.length < (t :: ts).length
        omega

theorem within_element (location : Location) (ts : List Token)
    (enough : 5 * ts.length + 4 ≤ n + 1) :
    Within ts.length (element locate (n + 1) location ts) := by
  rw [element]
  apply within_bind (ih.binary 1 ts (by omega))
  intro first us used
  cases us with
  | nil => exact fun e => Rejection.noConfusion e
  | cons t us =>
      dsimp only
      rw [List.length_cons] at used
      split
      · apply within_bind (ih.binary 1 us (by omega))
        intro value vs left
        show vs.length < ts.length
        omega
      · exact used

theorem within_block (expected : Expected) (ts : List Token) (enough : 5 * ts.length + 1 ≤ n + 1) :
    Within ts.length (block locate (n + 1) expected ts) := by
  rw [block]
  apply within_bind (within_token ts)
  intro opening us used
  apply within_bind (ih.statements true us (by omega))
  intro body vs left
  show vs.length < ts.length
  omega

theorem within_statements (inBlock : Bool) (ts : List Token) (enough : 5 * ts.length + 5 ≤ n + 1) :
    Within (ts.length + 1) (statements locate (n + 1) inBlock ts) := by
  cases ts with
  | nil => exact fun e => Rejection.noConfusion e
  | cons t ts =>
      rw [statements]
      split
      · split
        · exact fun e => Rejection.noConfusion e
        · exact Nat.lt_succ_self _
      · split
        · exact Nat.lt_succ_of_lt (Nat.lt_succ_self _)
        · apply within_bind (ih.statement (t :: ts) (by omega))
          intro first us used
          apply within_bind (ih.statements inBlock us (by omega))
          intro others vs left
          show vs.length < (t :: ts).length + 1
          omega

theorem within_statement (ts : List Token) (enough : 5 * ts.length + 4 ≤ n + 1) :
    Within ts.length (statement locate (n + 1) ts) := by
  cases ts with
  | nil => exact fun e => Rejection.noConfusion e
  | cons t ts =>
      have expression := within_sentence locate
        (fun us le => ih.binary 1 us (by omega)) (Nat.le_refl (t :: ts).length)
      rw [statement]
      rw [List.length_cons] at enough
      split
      · apply within_bind (ih.block _ (t :: ts) (by simp; omega))
        intro body us used
        exact within_terminator fun vs left => Nat.lt_of_le_of_lt left used
      · apply within_bind (ih.branch _ ts (by omega))
        intro branch us used
        exact Nat.lt_succ_of_lt used
      · exact Nat.lt_succ_self _
      · apply within_bind (ih.binary 1 ts (by omega))
        intro test us used
        apply within_bind (ih.block _ us (by omega))
        intro body vs left
        show vs.length < ts.length + 1
        omega
      · apply within_bind (ih.returned ts (by omega))
        intro value us used
        exact within_terminator fun vs left => Nat.lt_of_le_of_lt left used
      · exact expression
      · exact expression
      · exact expression
      · exact fun e => Rejection.noConfusion e

theorem within_returned (ts : List Token) (enough : 5 * ts.length + 4 ≤ n + 1) :
    Within (ts.length + 1) (returned locate (n + 1) ts) := by
  cases ts with
  | nil => exact fun e => Rejection.noConfusion e
  | cons t ts =>
      rw [returned]
      split
      · exact Nat.lt_succ_self _
      · exact Nat.lt_succ_self _
      · apply within_bind (ih.binary 1 (t :: ts) (by omega))
        intro value us used
        exact Nat.lt_succ_of_lt used

theorem within_branch (location : Location) (ts : List Token) (enough : 5 * ts.length + 4 ≤ n + 1) :
    Within ts.length (branch locate (n + 1) location ts) := by
  rw [branch]
  apply within_bind (ih.binary 1 ts (by omega))
  intro test us used
  apply within_bind (ih.block _ us (by omega))
  intro body vs left
  cases vs with
  | nil => exact fun e => Rejection.noConfusion e
  | cons t vs =>
      dsimp only
      split
      · rw [List.length_cons] at left
        apply within_bind (ih.otherwise vs (by omega))
        intro otherwise rest fewer
        show rest.length < ts.length
        omega
      · refine within_terminator ?_
        intro rest kept
        show rest.length < ts.length
        omega

theorem within_otherwise (ts : List Token) (enough : 5 * ts.length + 2 ≤ n + 1) :
    Within ts.length (otherwise locate (n + 1) ts) := by
  cases ts with
  | nil => exact fun e => Rejection.noConfusion e
  | cons t ts =>
      rw [otherwise]
      rw [List.length_cons] at enough
      split
      · apply within_bind (ih.branch _ ts (by omega))
        intro next us used
        exact Nat.lt_succ_of_lt used
      · apply within_bind (ih.block _ (t :: ts) (by simp; omega))
        intro body us used
        exact within_terminator fun vs left => Nat.lt_of_le_of_lt left used

theorem withinAt_succ : WithinAt locate (n + 1) where
  binary := within_binary locate ih
  operators := within_operators locate ih
  unary := within_unary locate ih
  suffixes := within_suffixes locate ih
  operand := within_operand locate ih
  arguments := within_arguments locate ih
  elements := within_elements locate ih
  element := within_element locate ih
  block := within_block locate ih
  statements := within_statements locate ih
  statement := within_statement locate ih
  returned := within_returned locate ih
  branch := within_branch locate ih
  otherwise := within_otherwise locate ih

end WithinAt

theorem withinAt (n : Nat) : WithinAt locate n := by
  induction n with
  | zero => constructor <;> intros <;> omega
  | succ n ih => exact withinAt_succ locate ih

end Mini.Grammar
