import Mini.Proofs.Execution.History
import Mini.Proofs.Operator.Causes

/-!
# What every execution with its history has

An expression or a statement is carried out by a few single steps, put together in a few ways.
`Tracked P S` lists what has to be shown of each for `P` to hold of every expression with its
history, and `S` of every statement. The values that the evaluator holds on to between two steps are
part of it, since they stand in no session. An execution that only fails does so for any cause but
one: that looking through arrays has no end is found by the steps that look through them. The
induction over programs is done here.
-/

namespace Mini

/-! ## What operators give -/

namespace Operator

theorem unary_given {op : Token} {operand v : Value} (ok : unary op operand = .ok v) :
    v = operand ∨ ∀ ref, v ≠ .array ref := by
  unfold unary at ok
  split at ok
  · cases ok
    exact .inl rfl
  · cases ok
    exact .inr fun _ => nofun
  · cases ok
    exact .inr fun _ => nofun
  · cases ok

theorem onNumbers_given {kind : TokenKind} {a b : Int} {v : Value}
    (ok : onNumbers kind a b = some (.ok v)) : ∀ ref, v ≠ .array ref := by
  rintro ref rfl
  unfold onNumbers at ok
  split at ok <;> first | cases ok | (split at ok <;> cases ok)

theorem onTexts_given {kind : TokenKind} {a b : String} {v : Value}
    (ok : onTexts kind a b = some v) : ∀ ref, v ≠ .array ref := by
  rintro ref rfl
  unfold onTexts at ok
  split at ok <;> cases ok

theorem onBooleans_given {kind : TokenKind} {a b : Bool} {v : Value}
    (ok : onBooleans kind a b = some v) : ∀ ref, v ≠ .array ref := by
  rintro ref rfl
  unfold onBooleans at ok
  split at ok <;> cases ok

theorem binary_given {op : Token} {left right v : Value} (ok : binary op left right = .ok v) :
    ∀ ref, v ≠ .array ref := by
  unfold binary at ok
  split at ok
  · cases ok
  · cases applied : onValues op.kind left right with
    | none =>
        rw [applied] at ok
        cases ok
    | some r =>
        rw [applied] at ok
        replace ok : r = .ok v := ok
        subst ok
        unfold onValues at applied
        split at applied
        · exact onNumbers_given applied
        · obtain ⟨w, given, same⟩ := Option.map_eq_some_iff.mp applied
          cases same
          exact onTexts_given given
        · obtain ⟨w, given, same⟩ := Option.map_eq_some_iff.mp applied
          cases same
          exact onBooleans_given given
        · cases applied

end Operator

namespace Exec

open Session

variable {α β : Type}

/-! ## Array literals and calls -/

section Elements

variable {Q : ⦃α : Type⦄ → (Session → List Event) → Exec α → Prop} {frame : Nat}
  {eval : Expr → Exec Value} {found : Expr → Session → List Event}
  (value : ∀ sofar : Pairs, Q noEvents (value sofar))
  (andThen : ∀ {α β : Type} {x : Exec α} {f : α → Exec β} {first later}, Q first x →
    (∀ a, Q (later a) (f a)) → Q (inTurn first x later) (x >>= f))
  (put : ∀ array sofar key v, Q (heardBuild frame array sofar key v) (grown sofar key v))
  (each : ∀ e, Q (found e) (eval e))
include value andThen put each

/-- What holds of the evaluation of each element holds of all of them, whatever the literal
becomes. -/
theorem pairs_of_each (array : Option Ref) :
    ∀ (elements : List Element) (position : Nat) (sofar : Pairs),
      Q (historyOfPairs eval found frame array position sofar elements)
        (pairs eval position sofar elements)
  | [], _, sofar => value sofar
  | .plain element :: rest, position, sofar => by
      refine andThen (each element) fun v => ?_
      rw [← bind_assoc]
      exact andThen (put array sofar _ v) fun sofar => pairs_of_each array rest _ sofar
  | .keyed _ key element :: rest, position, sofar => by
      refine andThen (each key) fun k => andThen (each element) fun v => ?_
      rw [← bind_assoc]
      exact andThen (put array sofar k v) fun sofar => pairs_of_each array rest _ sofar

/-- For a property of single sessions it does not matter that the history of a literal looks ahead
to the array. -/
theorem array_of_each (make : ∀ pairs, Q noEvents (newArray pairs))
    (each_session : ∀ {α : Type} {x : Exec α} {found},
      (∀ s, ∃ same, same s = found s ∧ Q same x) → Q found x) (elements : List Element) :
    Q (historyOfArray eval found frame elements) (pairs eval 0 [] elements >>= newArray) := by
  refine each_session fun s => ?_
  let array := becoming ((pairs eval 0 [] elements >>= newArray) s)
  have literal := andThen (pairs_of_each value andThen put each array elements 0 []) make
  rw [inTurn_noEvents] at literal
  exact ⟨historyOfPairs eval found frame array 0 [] elements, rfl, literal⟩

end Elements

/-- A call is logged, is carried out, and is at its end. -/
theorem call_of_parts {Q : ⦃α : Type⦄ → (Session → List Event) → Exec α → Prop}
    (andThen : ∀ {α β : Type} {x : Exec α} {f : α → Exec β} {first later}, Q first x →
      (∀ a, Q (later a) (f a)) → Q (inTurn first x later) (x >>= f))
    {frame : Nat} {name : String} {location : Location} {params : List Identifier}
    {args : List Value} {body : Exec Unit} {inside : Nat → Session → List Event}
    (logged : Q (ahead (writingCall frame name args) (heardCall frame name location args))
      (noteCall name location args))
    (activated : Q (historyInCall name location params args inside)
      (activate name location (declare params args >>= fun _ => body)))
    (resumed : ∀ v, Q (heardResume frame v) (value v)) :
    Q (ahead (writingCall frame name args)
        (historyOfCall frame name location params args body inside))
      (noteCall name location args >>= fun _ =>
        activate name location (declare params args >>= fun _ => body)) := by
  have whole := andThen logged fun _ => andThen activated resumed
  simp only [bind_value] at whole
  rw [historyOfCall, ahead_inTurn]
  exact whole

/-! ## Single steps -/

/-- A value that is at hand: it is held, or it is no array. -/
def AtHand (held : List Value) (v : Value) : Prop :=
  v ∈ held ∨ ∀ ref, v ≠ .array ref

/-- What is said of an execution: about the frame of the activation, the values that the evaluator
holds on to, those that the execution gives besides, its history and the execution. -/
abbrev Tracking : Type 1 :=
  ⦃α : Type⦄ → Nat → List Value → (α → List Value) → (Session → List Event) → Exec α → Prop

/-- What has to be shown of single steps, and of the ways in which they are put together, for `P` to
hold of every expression with its history, and `S` of every statement. -/
structure Tracked (P S : Tracking) : Prop where
  value {α : Type} {frame : Nat} {held : List Value} {gives : α → List Value} (a : α) :
    (∀ v ∈ gives a, AtHand held v) → P frame held gives noEvents (value a)
  fail {α : Type} {frame : Nat} {held : List Value} {gives : α → List Value} {cause : Cause}
    (location : Option Location) : cause ≠ .limit .nesting →
      P frame held gives noEvents (fail cause location)
  exhausted {α : Type} {frame : Nat} {held : List Value} {gives : α → List Value} :
    P frame held gives noEvents exhausted
  andThen {α β : Type} {frame : Nat} {held : List Value} {gives : α → List Value}
    {gives' : β → List Value} {x : Exec α} {f : α → Exec β} {first later} :
    P frame held gives first x → (∀ a, P frame (gives a ++ held) gives' (later a) (f a)) →
      P frame held gives' (inTurn first x later) (x >>= f)
  name {frame : Nat} {held : List Value} (id : Identifier) :
    P frame held (fun v => [v]) noEvents (name id)
  function {frame : Nat} {held : List Value} (location : Location) (params : List Identifier)
    (body : Block) : P frame held (fun v => [v]) noEvents (function location params body)
  fetch {frame : Nat} {held : List Value} (ref : Ref) (key : Value) :
    P frame held (fun v => [v]) noEvents (fetch ref key)
  array {frame : Nat} {held : List Value} {eval : Expr → Exec Value}
    {found : Expr → Session → List Event} (elements : List Element) :
    (∀ e held, P frame held (fun v => [v]) (found e) (eval e)) →
      P frame held (fun v => [v]) (historyOfArray eval found frame elements)
        (pairs eval 0 [] elements >>= newArray)
  printed {frame : Nat} {held : List Value} (location : Location) (v : Value) :
    P frame held (fun v => [v]) (ahead (writingPrint frame v) (heardPrint frame location v))
      (printing location v)
  refused {frame : Nat} {held : List Value} (name : String) (location : Location)
    (args : List Value) :
    P frame held (fun v => [v])
      (ahead (writingCall frame name args) (heardRefused frame name location args))
      (noteCall name location args >>= fun _ => Exec.fail (.limit .calls) none)
  call {frame : Nat} {held : List Value} (name : String) (location : Location)
    (params : List Identifier) (args : List Value) {fuel calls : Nat} {statements : List Stmt} :
    (∀ v ∈ args, v ∈ held) →
    (∀ callee, S callee [] (fun _ => []) (historyOfList fuel calls callee statements)
      (forEach (Session.execute fuel calls) statements)) →
      P frame held (fun v => [v])
        (ahead (writingCall frame name args) (historyOfCall frame name location params args
          (forEach (Session.execute fuel calls) statements)
          fun callee => historyOfList fuel calls callee statements))
        (noteCall name location args >>= fun _ => activate name location
          (declare params args >>= fun _ => forEach (Session.execute fuel calls) statements))
  ofExpr {α : Type} {frame : Nat} {held : List Value} {gives : α → List Value} {found}
    {x : Exec α} : P frame held gives found x → S frame held gives found x
  sequence {α β : Type} {frame : Nat} {held : List Value} {gives : α → List Value}
    {gives' : β → List Value} {x : Exec α} {f : α → Exec β} {first later} :
    S frame held gives first x → (∀ a, S frame (gives a ++ held) gives' (later a) (f a)) →
      S frame held gives' (inTurn first x later) (x >>= f)
  inScope {α : Type} {frame : Nat} {held : List Value} {gives : α → List Value} {x : Exec α}
    {inside} : S frame held gives inside x →
      S frame held gives (fun s => inside { s with scopes := s.scopes.enter }) (inScope x)
  noteStatement {frame : Nat} {held : List Value} (st : Stmt) :
    S frame held (fun _ => []) (ahead (writingBindings frame) (heardStatement frame st))
      (noteStatement st)
  bind {frame : Nat} {held : List Value} (name : String) (v : Value) : v ∈ held →
    S frame held (fun _ => []) noEvents (bind name v)
  setPending {frame : Nat} {held : List Value} (v : Value) : AtHand held v →
    S frame held (fun _ => []) (heardReturn frame v) (setPending v)
  store {frame : Nat} {held : List Value} (ref : Ref) (key v : Value) : key ∈ held → v ∈ held →
    S frame held (fun _ => []) (heardAssign frame ref key v) (store ref key v)

/-- `P` holds of all expressions and `S` of all statements and loops within a budget. -/
def Within (P S : Tracking) (fuel : Nat) : Prop :=
  ∀ calls frame held,
    (∀ e, P frame held (fun v => [v]) (historyOfExpr fuel calls frame e)
      (Session.evaluate fuel calls e)) ∧
    (∀ st, S frame held (fun _ => []) (historyOfStmt fuel calls frame st)
      (Session.execute fuel calls st)) ∧
    ∀ test body, S frame held (fun _ => []) (historyOfLoop fuel calls frame test body)
      (Session.repeatWhile fuel calls test body)

namespace Tracked

variable {P S : Tracking} (h : Tracked P S) {frame : Nat} {held : List Value}
include h

/-! ## Steps that need no recursion -/

/-- What comes after an execution, if nothing happens any more. -/
theorem andThenPlain {gives : α → List Value} {gives' : β → List Value} {x : Exec α}
    {f : α → Exec β} {found} (first : P frame held gives found x)
    (later : ∀ a, P frame (gives a ++ held) gives' noEvents (f a)) :
    P frame held gives' found (x >>= f) := by
  have both := h.andThen first later
  rwa [inTurn_noEvents] at both

theorem orBlame {gives : α → List Value} (location : Option Location) {r : Except Cause α}
    (given : ∀ a, r = .ok a → ∀ v ∈ gives a, AtHand held v)
    (blamed : ∀ cause, r = .error cause → cause ≠ .limit .nesting) :
    P frame held gives noEvents (orBlame location r) := by
  cases r with
  | ok a => exact h.value a (given a rfl)
  | error cause => exact h.fail location (blamed cause rfl)

theorem arrayOf (use : ArrayUse) (location : Location) (v : Value) :
    P frame held (fun _ => []) noEvents (arrayOf use location v) := by
  cases v with
  | array ref => exact h.value ref fun _ mem => absurd mem List.not_mem_nil
  | nothing | number | text | boolean | function => exact h.fail _ nofun

theorem functionOf (location : Location) (v : Value) :
    P frame held (fun _ => []) noEvents (functionOf location v) := by
  cases v with
  | function f => exact h.value f fun _ mem => absurd mem List.not_mem_nil
  | nothing | number | text | boolean | array => exact h.fail _ nofun

/-! ## Lists of parts -/

theorem collect {f : α → Exec Value} {found : α → Session → List Event}
    (each : ∀ a held, P frame held (fun v => [v]) (found a) (f a)) :
    ∀ (as : List α) (held : List Value),
      P frame held id (listEach f found as) (collect f as)
  | [], _ => h.value [] fun _ mem => absurd mem List.not_mem_nil
  | a :: rest, held => by
      refine h.andThen (each a held) ?_
      intro v
      refine h.andThenPlain (collect each rest _) ?_
      intro vs
      refine h.value (v :: vs) ?_
      intro w mem
      refine .inl ?_
      rcases List.mem_cons.mp mem with rfl | mem
      · simp
      · simp [mem]

/-- Doing nothing. -/
theorem nothing : S frame held (fun _ => []) noEvents (Exec.value ()) :=
  h.ofExpr (h.value () fun _ mem => absurd mem List.not_mem_nil)

theorem forEach {f : α → Exec Unit} {found : α → Session → List Event}
    (each : ∀ a held, S frame held (fun _ => []) (found a) (f a)) :
    ∀ (as : List α) (held : List Value),
      S frame held (fun _ => []) (listEach f found as) (forEach f as)
  | [], _ => h.nothing
  | a :: rest, held => h.sequence (each a held) fun _ => forEach each rest _

/-! ## Statements and calls with parts to evaluate -/

section Parts

variable {eval : Expr → Exec Value} {found : Expr → Session → List Event}
  (each : ∀ e held, P frame held (fun v => [v]) (found e) (eval e))
include each

theorem print (location : Location) (args : List Expr) :
    P frame held (fun v => [v]) (historyOfPrint eval found frame location args)
      (print eval location args) := by
  match args with
  | [] => exact h.fail _ nofun
  | [arg] => exact h.andThen (each arg _) fun v => h.printed location v
  | _ :: _ :: _ => exact h.fail _ nofun

theorem assign (target : Expr) {v : Value} (mem : v ∈ held) :
    S frame held (fun _ => []) (historyOfTarget eval found frame target v)
      (assign eval target v) := by
  cases target with
  | ident id => exact h.bind id.name v mem
  | index location base key =>
      refine h.sequence (h.ofExpr (each base _)) fun a => ?_
      refine h.sequence (h.ofExpr (h.arrayOf _ _ a)) fun ref => ?_
      refine h.sequence (h.ofExpr (each key _)) fun k => ?_
      exact h.store ref k v (by simp) (by simp [mem])
  | select location base selector =>
      refine h.sequence (h.ofExpr (each base _)) fun a => ?_
      refine h.sequence (h.ofExpr (h.arrayOf _ _ a)) fun ref => ?_
      refine h.sequence (h.ofExpr (h.name selector)) fun k => ?_
      exact h.store ref k v (by simp) (by simp [mem])
  | number | text | func | array | unary | binary | paren | call =>
      exact h.ofExpr (h.fail _ nofun)

end Parts

/-! ## Programs -/

section Step

variable {fuel : Nat} (parts : Within P S fuel) (calls : Nat)
include parts

theorem block (body : Block) :
    S frame held (fun _ => [])
      (historyOfBlock (Session.execute fuel calls) (historyOfStmt fuel calls frame) body)
      (Exec.inScope (Exec.forEach (Session.execute fuel calls) body.statements)) :=
  h.inScope (h.forEach (fun st held => (parts calls frame held).2.1 st) body.statements held)

/-- One level of an expression, given its parts and the statements of the functions
that it may call. -/
theorem evaluate_succ (e : Expr) :
    P frame held (fun v => [v]) (historyOfExpr (fuel + 1) calls frame e)
      (Session.evaluate (fuel + 1) calls e) := by
  have part := fun e held => (parts calls frame held).1 e
  rw [Session.evaluate.eq_def, historyOfExpr.eq_def]
  cases e with
  | number | text =>
      refine h.value _ fun v mem => .inr ?_
      obtain rfl := List.mem_singleton.mp mem
      intro ref same
      cases same
  | ident id => exact h.name id
  | func location params body => exact h.function location params body
  | array _ elements => exact h.array elements part
  | unary location op operand =>
      refine h.andThenPlain (part operand _) fun a =>
        h.orBlame _ ?_ fun _ => Operator.unary_ne_limit .nesting
      intro v ok w mem
      rcases Operator.unary_given ok with same | plain
      · exact .inl (by simp [List.mem_singleton.mp mem, same])
      · exact .inr (List.mem_singleton.mp mem ▸ plain)
  | binary location op left right =>
      refine h.andThen (part left _) fun a => h.andThenPlain (part right _) fun b =>
        h.orBlame _ ?_ fun _ => Operator.binary_ne_limit .nesting
      intro v ok w mem
      exact .inr (List.mem_singleton.mp mem ▸ Operator.binary_given ok)
  | index location base key =>
      refine h.andThen (part base _) fun a => h.andThen (h.arrayOf _ _ a) ?_
      intro ref
      exact h.andThenPlain (part key _) fun k => h.fetch ref k
  | select location base selector =>
      refine h.andThenPlain (part base _) fun a => h.andThenPlain (h.arrayOf _ _ a) ?_
      intro ref
      exact h.andThenPlain (h.name selector) fun k => h.fetch ref k
  | paren _ inner => exact part inner held
  | call location callee args =>
      dsimp only
      split
      · exact h.print part location args
      · refine h.andThen (part callee _) fun a => h.andThen (h.functionOf location a) ?_
        intro f
        split
        · refine h.fail _ ?_
          intro same
          cases same
        · refine h.andThen (h.collect part args _) ?_
          intro values
          rw [← bind_assoc, ← bind_assoc]
          cases calls with
          | zero => exact h.refused _ _ values
          | succ calls =>
              have body := fun callee =>
                h.forEach (fun st held => (parts calls callee held).2.1 st) f.body.statements []
              exact h.call _ _ _ values (fun v mem => List.mem_append_left _ mem) body

/-- A statement is logged, and then does something that is tracked. -/
theorem behindNote_succ (frame : Nat) (held : List Value) (st : Stmt) :
    ∃ found rest, historyOfStmt (fuel + 1) calls frame st =
        inTurn (ahead (writingBindings frame) (heardStatement frame st)) (Session.noteStatement st)
          (fun _ => found) ∧
      Session.execute (fuel + 1) calls st = (Session.noteStatement st >>= fun _ => rest) ∧
      S frame held (fun _ => []) found rest := by
  have part := fun e held => (parts calls frame held).1 e
  rw [Session.execute.eq_def, historyOfStmt.eq_def]
  refine ⟨_, _, rfl, rfl, ?_⟩
  cases st with
  | block body => exact h.block parts calls body
  | assign _ target e =>
      exact h.sequence (h.ofExpr (part e _)) fun v => h.assign part target List.mem_cons_self
  | cond branch =>
      obtain ⟨_, test, body, otherwise⟩ := branch
      refine h.sequence (h.ofExpr (part test _)) ?_
      intro v
      split
      · exact h.block parts calls body
      · cases otherwise with
        | nothing => exact h.nothing
        | block body => exact (parts calls frame _).2.1 _
        | branch next => exact (parts calls frame _).2.1 _
  | empty => exact h.nothing
  | expr _ e =>
      refine h.ofExpr (h.andThenPlain (part e _) fun _ => h.value () ?_)
      exact fun _ mem => absurd mem List.not_mem_nil
  | loop _ test body => exact (parts calls frame _).2.2 test body
  | ret _ result =>
      cases result with
      | none => exact h.setPending _ (.inr fun _ => nofun)
      | some e =>
          exact h.sequence (h.ofExpr (part e _)) fun v => h.setPending v (.inl List.mem_cons_self)

/-- One level of a statement. -/
theorem execute_succ (st : Stmt) :
    S frame held (fun _ => []) (historyOfStmt (fuel + 1) calls frame st)
      (Session.execute (fuel + 1) calls st) := by
  obtain ⟨found, rest, history, execution, later⟩ := h.behindNote_succ parts calls frame held st
  rw [history, execution]
  exact h.sequence (h.noteStatement st) fun _ => later

/-- One round of a loop. -/
theorem repeatWhile_succ (test : Expr) (body : Block) :
    S frame held (fun _ => []) (historyOfLoop (fuel + 1) calls frame test body)
      (Session.repeatWhile (fuel + 1) calls test body) := by
  rw [Session.repeatWhile, historyOfLoop]
  refine h.sequence (h.ofExpr ((parts calls frame held).1 test)) ?_
  intro v
  split
  · exact h.sequence (h.block parts calls body) fun _ => (parts calls frame _).2.2 test body
  · exact h.nothing

end Step

/-- What is tracked holds of every expression, statement and loop. -/
theorem program (fuel : Nat) : Within P S fuel := by
  induction fuel with
  | zero =>
      intro calls frame held
      refine ⟨fun e => ?_, fun st => ?_, fun test body => ?_⟩
      · rw [Session.evaluate, historyOfExpr]; exact h.exhausted
      · rw [Session.execute, historyOfStmt]; exact h.ofExpr h.exhausted
      · rw [Session.repeatWhile, historyOfLoop]; exact h.ofExpr h.exhausted
  | succ fuel ih =>
      intro calls frame held
      exact ⟨h.evaluate_succ ih calls, h.execute_succ ih calls, h.repeatWhile_succ ih calls⟩

/-- Statements that are executed one after the other. -/
theorem list (fuel calls frame : Nat) (held : List Value) (statements : List Stmt) :
    S frame held (fun _ => []) (historyOfList fuel calls frame statements)
      (Exec.forEach (Session.execute fuel calls) statements) :=
  h.forEach (fun st held => (h.program fuel calls frame held).2.1 st) statements held

/-- The body of a run is a block. -/
theorem programBody (budget : Budget) (program : Program) (frame : Nat) :
    S frame [] (fun _ => []) (historyOfBody budget program frame) (programBody budget program) :=
  h.block (h.program budget.fuel) budget.calls (.mk default program.statements)

end Tracked

end Exec

end Mini
