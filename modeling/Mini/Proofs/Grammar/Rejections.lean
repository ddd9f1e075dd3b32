import Mini.Proofs.Grammar.Budget

/-!
# Where a reading stops

A reading takes tokens from the front, and never the one that marks the end of the text. So what it
leaves is an end of the tokens that it was given, which still has that mark if they had it; and a
rejection names one of them: the one at which the reading stopped, or an opening bracket before it,
or a number that is too long.
-/

namespace Mini

open Text

/-- What is left of some tokens when others have been taken from the front, but no end of the
text. -/
def Behind (us ts : List Token) : Prop :=
  ∃ front, ts = front ++ us ∧ ∀ t ∈ front, t.kind ≠ .endOfText

namespace Behind

variable {t : Token} {us vs ts : List Token}

theorem refl (ts : List Token) : Behind ts ts :=
  ⟨[], rfl, fun _ mem => absurd mem List.not_mem_nil⟩

theorem trans (h : Behind vs us) (h' : Behind us ts) : Behind vs ts := by
  obtain ⟨front, rfl, only⟩ := h
  obtain ⟨front', rfl, only'⟩ := h'
  refine ⟨front' ++ front, (List.append_assoc ..).symm, fun s mem => ?_⟩
  rcases List.mem_append.mp mem with mem | mem
  · exact only' s mem
  · exact only s mem

/-- One more token is taken. -/
theorem next (h : Behind (t :: us) ts) (kind : t.kind ≠ .endOfText) : Behind us ts :=
  trans ⟨[t], rfl, fun _ mem => List.mem_singleton.mp mem ▸ kind⟩ h

theorem mem (h : Behind us ts) (mem : t ∈ us) : t ∈ ts := by
  obtain ⟨front, rfl, -⟩ := h
  exact List.mem_append_right front mem

theorem head (h : Behind (t :: us) ts) : t ∈ ts :=
  h.mem List.mem_cons_self

end Behind

/-- A rejection is about these tokens: the reading has come to the offending one, and names it or
one before it; or it has come to their end. -/
def Rejection.IsIn (ts : List Token) : Rejection → Prop
  | .unexpected expected found rest => Behind (found :: rest) ts ∧ expected.named found ∈ ts
  | .badNumeral fault => ∃ t ∈ ts, t.kind = .number ∧ readInteger t.text = .error fault
  | .outOfTokens => Behind [] ts
  | .outOfFuel => True

namespace Grammar

variable {α β : Type}

/-- A reading of these tokens leaves what is behind those that it took, or rejects one. -/
def Stays (ts : List Token) (r : Reading (α × List Token)) : Prop :=
  match r with
  | .ok (_, rest) => Behind rest ts
  | .error e => e.IsIn ts

theorem stays_bind {ts : List Token} {r : Reading (α × List Token)}
    {f : α × List Token → Reading (β × List Token)} (h : Stays ts r)
    (later : ∀ a us, Behind us ts → Stays ts (f (a, us))) : Stays ts (r >>= f) := by
  cases r with
  | ok result => exact later result.1 result.2 h
  | error e => exact h

/-- A token that is not what is expected, if it is itself the one to be named. -/
theorem stays_unexpected {expected : Expected} {t : Token} {us ts : List Token}
    (left : Behind (t :: us) ts) (named : expected.named t = t) :
    Stays ts (.error (.unexpected expected t us) : Reading (α × List Token)) := by
  refine ⟨left, ?_⟩
  rw [named]
  exact left.head

theorem stays_token {kind : TokenKind} (inText : kind ≠ .endOfText) {expected : Expected}
    {us ts : List Token} (left : Behind us ts) (named : ∀ t ∈ us, expected.named t ∈ ts) :
    Stays ts (token kind expected us) := by
  cases us with
  | nil => exact left
  | cons t us =>
      rw [token]
      split
      · rename_i same
        exact left.next (same ▸ inText)
      · exact ⟨left, named t List.mem_cons_self⟩

/-- The same where the token found is the one to be named. -/
theorem stays_token_found {kind : TokenKind} (inText : kind ≠ .endOfText) {expected : Expected}
    {us ts : List Token} (left : Behind us ts) (found : ∀ t, expected.named t = t) :
    Stays ts (token kind expected us) :=
  stays_token inText left fun t mem => by
    rw [found]
    exact left.mem mem

theorem stays_terminator {us ts : List Token} {f : List Token → Reading (β × List Token)}
    (left : Behind us ts) (later : ∀ vs, Behind vs ts → Stays ts (f vs)) :
    Stays ts (terminator us >>= f) := by
  cases us with
  | nil => exact left
  | cons t us =>
      rw [terminator]
      split
      · exact later _ left
      · exact later _ left
      · rename_i kind
        exact later _ (left.next (by simp [kind]))
      · exact stays_unexpected left rfl

theorem stays_comma {us ts : List Token} {f : List Token → Reading (β × List Token)}
    (left : Behind us ts) (later : ∀ vs, Behind vs ts → Stays ts (f vs)) :
    Stays ts (comma us >>= f) := by
  cases us with
  | nil => exact left
  | cons t us =>
      show Stays ts (f (if t.kind = .comma then us else t :: us))
      split
      · rename_i kind
        exact later us (left.next (by simp [kind]))
      · exact later (t :: us) left

variable (locate : Position → Location)

theorem stays_identifier {expected : Expected} {us ts : List Token} (left : Behind us ts)
    (found : ∀ t, expected.named t = t) : Stays ts (identifier locate expected us) :=
  stays_bind (stays_token_found (by decide) left found) fun _ _ left => left

theorem stays_parameters (n : Nat) {us ts : List Token} (left : Behind us ts) :
    Stays ts (parameters locate n us) := by
  induction n generalizing us with
  | zero => trivial
  | succ n ih =>
      cases us with
      | nil => exact left
      | cons t us =>
          rw [parameters]
          split
          · rename_i kind
            exact left.next (by simp [kind])
          · exact stays_unexpected left rfl
          · refine stays_bind (stays_identifier locate left fun _ => rfl) fun param vs left => ?_
            exact stays_comma left fun ws left => stays_bind (ih left) fun _ _ left => left

/-- Every part of the grammar keeps to its tokens. -/
structure StaysAt (n : Nat) : Prop where
  binary : ∀ {level us ts}, 0 < level → Behind us ts → Stays ts (binary locate n level us)
  operators : ∀ operand {level us ts}, 0 < level → Behind us ts →
    Stays ts (operators locate n level operand us)
  unary : ∀ {us ts}, Behind us ts → Stays ts (unary locate n us)
  suffixes : ∀ base {us ts}, Behind us ts → Stays ts (suffixes locate n base us)
  operand : ∀ {us ts}, Behind us ts → Stays ts (operand locate n us)
  arguments : ∀ {us ts}, Behind us ts → Stays ts (arguments locate n us)
  elements : ∀ {us ts}, Behind us ts → Stays ts (elements locate n us)
  element : ∀ location {us ts}, Behind us ts → Stays ts (element locate n location us)
  block : ∀ {expected us ts}, Behind us ts → (∀ t, expected.named t = t) →
    Stays ts (block locate n expected us)
  statements : ∀ inBlock {us ts}, Behind us ts → Stays ts (statements locate n inBlock us)
  statement : ∀ {us ts}, Behind us ts → Stays ts (statement locate n us)
  returned : ∀ {us ts}, Behind us ts → Stays ts (returned locate n us)
  branch : ∀ location {us ts}, Behind us ts → Stays ts (branch locate n location us)
  otherwise : ∀ {us ts}, Behind us ts → Stays ts (otherwise locate n us)

section Step

variable {n : Nat} (ih : StaysAt locate n)
include ih

theorem stays_binary {level : Nat} {us ts : List Token} (positive : 0 < level)
    (left : Behind us ts) : Stays ts (binary locate (n + 1) level us) := by
  rw [binary]
  exact stays_bind (ih.unary left) fun operand vs left => ih.operators operand positive left

/-- The end of the text is no operator: it binds less tightly than any. -/
theorem stays_operators (operand : Expr) {level : Nat} {us ts : List Token} (positive : 0 < level)
    (left : Behind us ts) : Stays ts (operators locate (n + 1) level operand us) := by
  cases us with
  | nil => exact left
  | cons op us =>
      rw [operators]
      dsimp only
      split
      · exact left
      · rename_i tight
        have inText : op.kind ≠ .endOfText := by
          intro kind
          rw [kind] at tight
          exact tight positive
        refine stays_bind (ih.binary (Nat.succ_pos _) (left.next inText)) fun right vs left => ?_
        exact ih.operators _ positive left

theorem stays_unary {us ts : List Token} (left : Behind us ts) :
    Stays ts (unary locate (n + 1) us) := by
  cases us with
  | nil => exact left
  | cons op us =>
      rw [unary]
      split
      · rename_i isUnary
        have inText : op.kind ≠ .endOfText := by
          intro kind
          rw [kind] at isUnary
          cases isUnary
        exact stays_bind (ih.unary (left.next inText)) fun _ _ left => left
      · exact stays_bind (ih.operand left) fun base vs left => ih.suffixes base left

theorem stays_suffixes (base : Expr) {us ts : List Token} (left : Behind us ts) :
    Stays ts (suffixes locate (n + 1) base us) := by
  cases us with
  | nil => exact left
  | cons t us =>
      rw [suffixes]
      split
      · rename_i kind
        have behind := left.next (by simp [kind])
        exact stays_bind (stays_identifier locate behind fun _ => rfl) fun _ _ left =>
          ih.suffixes _ left
      · rename_i kind
        have behind := left.next (by simp [kind])
        refine stays_bind (ih.binary Nat.one_pos behind) fun key vs left => ?_
        exact stays_bind (stays_token_found (by decide) left fun _ => rfl) fun _ _ left =>
          ih.suffixes _ left
      · rename_i kind
        have behind := left.next (by simp [kind])
        exact stays_bind (ih.arguments behind) fun _ _ left => ih.suffixes _ left
      · exact left

theorem stays_operand {us ts : List Token} (left : Behind us ts) :
    Stays ts (operand locate (n + 1) us) := by
  cases us with
  | nil => exact left
  | cons t us =>
      rw [operand]
      split
      · rename_i kind
        exact left.next (by simp [kind])
      · rename_i kind
        cases read : readInteger t.text with
        | ok value => exact left.next (by simp [kind])
        | error fault => exact ⟨t, left.head, kind, read⟩
      · rename_i kind
        exact left.next (by simp [kind])
      · rename_i kind
        have behind := left.next (by simp [kind])
        refine stays_bind (ih.binary Nat.one_pos behind) fun inner vs left' => ?_
        -- the bracket that is not closed is named, and not the token found
        have opening : ∀ s ∈ vs, (Expected.closing t).named s ∈ ts := fun _ _ => left.head
        exact stays_bind (stays_token (by decide) left' opening) fun _ _ left => left
      · rename_i kind
        have behind := left.next (by simp [kind])
        exact stays_bind (ih.elements behind) fun _ _ left => left
      · rename_i kind
        have behind := left.next (by simp [kind])
        refine stays_bind (stays_token_found (by decide) behind fun _ => rfl) fun _ vs left => ?_
        refine stays_bind (stays_parameters locate n left) fun params ws left => ?_
        exact stays_bind (ih.block left fun _ => rfl) fun _ _ left => left
      · exact stays_unexpected left rfl

theorem stays_arguments {us ts : List Token} (left : Behind us ts) :
    Stays ts (arguments locate (n + 1) us) := by
  cases us with
  | nil => exact left
  | cons t us =>
      rw [arguments]
      split
      · rename_i kind
        exact left.next (by simp [kind])
      · exact stays_unexpected left rfl
      · refine stays_bind (ih.binary Nat.one_pos left) fun arg vs left => ?_
        exact stays_comma left fun ws left => stays_bind (ih.arguments left) fun _ _ left => left

theorem stays_elements {us ts : List Token} (left : Behind us ts) :
    Stays ts (elements locate (n + 1) us) := by
  cases us with
  | nil => exact left
  | cons t us =>
      rw [elements]
      split
      · rename_i kind
        exact left.next (by simp [kind])
      · exact stays_unexpected left rfl
      · refine stays_bind (ih.element _ left) fun item vs left => ?_
        exact stays_comma left fun ws left => stays_bind (ih.elements left) fun _ _ left => left

theorem stays_element (location : Location) {us ts : List Token} (left : Behind us ts) :
    Stays ts (element locate (n + 1) location us) := by
  rw [element]
  refine stays_bind (ih.binary Nat.one_pos left) fun first vs left => ?_
  cases vs with
  | nil => exact left
  | cons t vs =>
      dsimp only
      split
      · rename_i kind
        have behind := left.next (by simp [kind])
        exact stays_bind (ih.binary Nat.one_pos behind) fun _ _ left => left
      · exact left

theorem stays_block {expected : Expected} {us ts : List Token} (left : Behind us ts)
    (found : ∀ t, expected.named t = t) : Stays ts (block locate (n + 1) expected us) := by
  rw [block]
  refine stays_bind (stays_token_found (by decide) left found) fun opening vs left => ?_
  exact stays_bind (ih.statements true left) fun _ _ left => left

theorem stays_statements (inBlock : Bool) {us ts : List Token} (left : Behind us ts) :
    Stays ts (statements locate (n + 1) inBlock us) := by
  cases us with
  | nil => exact left
  | cons t us =>
      rw [statements]
      split
      · split
        · exact stays_unexpected left rfl
        · exact left
      · rename_i inText
        split
        · exact left.next inText
        · refine stays_bind (ih.statement left) fun first vs left => ?_
          exact stays_bind (ih.statements inBlock left) fun _ _ left => left

theorem stays_sentence {t : Token} {us ts : List Token} (left : Behind (t :: us) ts) :
    Stays ts (sentence locate n t us) := by
  refine stays_bind (ih.binary Nat.one_pos left) fun first vs left => ?_
  cases vs with
  | nil => exact left
  | cons next vs =>
      dsimp only
      split
      · rename_i kind
        have behind := left.next (by simp [kind])
        refine stays_bind (ih.binary Nat.one_pos behind) fun value ws left => ?_
        exact stays_terminator left fun _ left => left
      · exact left

theorem stays_statement {us ts : List Token} (left : Behind us ts) :
    Stays ts (statement locate (n + 1) us) := by
  cases us with
  | nil => exact left
  | cons t us =>
      have expression := stays_sentence locate ih left
      rw [statement]
      split
      · refine stays_bind (ih.block left fun _ => rfl) fun body vs left => ?_
        exact stays_terminator left fun _ left => left
      · rename_i kind
        have behind := left.next (by simp [kind])
        exact stays_bind (ih.branch _ behind) fun _ _ left => left
      · rename_i kind
        exact left.next (by simp [kind])
      · rename_i kind
        have behind := left.next (by simp [kind])
        refine stays_bind (ih.binary Nat.one_pos behind) fun test vs left => ?_
        exact stays_bind (ih.block left fun _ => rfl) fun _ _ left => left
      · rename_i kind
        have behind := left.next (by simp [kind])
        refine stays_bind (ih.returned behind) fun value vs left => ?_
        exact stays_terminator left fun _ left => left
      · exact expression
      · exact expression
      · exact expression
      · exact stays_unexpected left rfl

theorem stays_returned {us ts : List Token} (left : Behind us ts) :
    Stays ts (returned locate (n + 1) us) := by
  cases us with
  | nil => exact left
  | cons t us =>
      rw [returned]
      split
      · exact left
      · exact left
      · exact stays_bind (ih.binary Nat.one_pos left) fun _ _ left => left

theorem stays_branch (location : Location) {us ts : List Token} (left : Behind us ts) :
    Stays ts (branch locate (n + 1) location us) := by
  rw [branch]
  refine stays_bind (ih.binary Nat.one_pos left) fun test vs left => ?_
  refine stays_bind (ih.block left fun _ => rfl) fun body ws left => ?_
  cases ws with
  | nil => exact left
  | cons t ws =>
      dsimp only
      split
      · rename_i kind
        have behind := left.next (by simp [kind])
        exact stays_bind (ih.otherwise behind) fun _ _ left => left
      · exact stays_terminator left fun _ left => left

theorem stays_otherwise {us ts : List Token} (left : Behind us ts) :
    Stays ts (otherwise locate (n + 1) us) := by
  cases us with
  | nil => exact left
  | cons t us =>
      rw [otherwise]
      split
      · rename_i kind
        have behind := left.next (by simp [kind])
        exact stays_bind (ih.branch _ behind) fun _ _ left => left
      · refine stays_bind (ih.block left fun _ => rfl) fun body vs left => ?_
        exact stays_terminator left fun _ left => left

theorem staysAt_succ : StaysAt locate (n + 1) where
  binary := stays_binary locate ih
  operators operand _ _ _ := stays_operators locate ih operand
  unary := stays_unary locate ih
  suffixes base _ _ := stays_suffixes locate ih base
  operand := stays_operand locate ih
  arguments := stays_arguments locate ih
  elements := stays_elements locate ih
  element location _ _ := stays_element locate ih location
  block := stays_block locate ih
  statements inBlock _ _ := stays_statements locate ih inBlock
  statement := stays_statement locate ih
  returned := stays_returned locate ih
  branch location _ _ := stays_branch locate ih location
  otherwise := stays_otherwise locate ih

end Step

theorem staysAt (n : Nat) : StaysAt locate n := by
  induction n with
  | zero => constructor <;> intros <;> trivial
  | succ n ih => exact staysAt_succ locate ih

end Grammar

/-- **A rejection is about the tokens that were given.** The reading has not gone past an end of the
text, and what it names is one of the tokens. -/
theorem Program.rejection_isIn {locate : Position → Location} {tokens : List Token}
    {rejection : Rejection} (rejected : ofTokens locate tokens = .error rejection) :
    rejection.IsIn tokens := by
  have stays := (Grammar.staysAt locate (5 * tokens.length + 5)).statements false (.refl tokens)
  rw [ofTokens] at rejected
  cases read : Grammar.statements locate (5 * tokens.length + 5) false tokens with
  | ok result =>
      rw [read] at rejected
      cases rejected
  | error e =>
      rw [read] at rejected stays
      cases rejected
      exact stays

end Mini
