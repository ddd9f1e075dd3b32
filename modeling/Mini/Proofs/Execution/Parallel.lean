import Mini.Proofs.Execution.Relabelling
import Mini.Proofs.Execution.Steps
import Mini.Proofs.Operator.Causes

/-!
# Runs of a program and of a relabelled one

Two executions side by side: one of a tree, the other of the same tree with new labels. `Parallel`
lists what has to be shown of the single steps, and of the ways of putting them together, for the
two to stay related. As for properties of one execution, the induction over programs is done here
and nowhere else.

A relation of executions comes with a function on what they give. Where the first gives a value,
the second gives that value with new labels.

Steps that only fail do so for the same cause on both sides. So they are asked about for causes that
say no name; the only step that fails for want of a name is the one that looks it up.
-/

namespace Mini

/-- Nothing is said about a name. -/
def Cause.Nameless : Cause → Prop
  | .undefined _ => False
  | .noScope | .mismatch .. | .notApplicable .. | .divideByZero | .remainderByZero | .notArray ..
  | .notAssignable _ | .notCallable _ | .arity .. | .printArity _ | .limit _ => True

theorem Cause.OfOperator.nameless {cause : Cause} (h : cause.OfOperator) : cause.Nameless := by
  cases cause with
  | undefined => exact h
  | _ => trivial

namespace Exec

open Session

variable {α β : Type} {ρ : Relabelling}

/-! ## Executions side by side -/

/-- Two executions that end alike, in sessions that are related, with something else put for the
value and for the fault. -/
inductive EndsBeside (rel : Session → Session → Prop) (refault : Fault → Fault) {α : Type}
    (relabel : α → α) : Outcome α → Outcome α → Prop
  | done {a : α} {s s' : Session} : rel s s' →
      EndsBeside rel refault relabel (.done a s) (.done (relabel a) s')
  | failed {fault : Fault} {s s' : Session} : rel s s' →
      EndsBeside rel refault relabel (.failed fault s) (.failed (refault fault) s')
  | outOfFuel : EndsBeside rel refault relabel .outOfFuel .outOfFuel

/-- Two executions that end alike where they begin in sessions that are related. -/
def Beside (rel : Session → Session → Prop) (refault : Fault → Fault) ⦃α : Type⦄
    (relabel : α → α) (x y : Exec α) : Prop :=
  ∀ ⦃s s'⦄, rel s s' → EndsBeside rel refault relabel (x s) (y s')

namespace Beside

variable {rel : Session → Session → Prop} {refault : Fault → Fault} {relabel : α → α}
  {relabel' : β → β}

theorem value (relabel : α → α) (a : α) :
    Beside rel refault relabel (Exec.value a) (Exec.value (relabel a)) :=
  fun _ _ related => .done related

theorem andThen {x y : Exec α} {f g : α → Exec β} (first : Beside rel refault relabel x y)
    (later : ∀ a, Beside rel refault relabel' (f a) (g (relabel a))) :
    Beside rel refault relabel' (x >>= f) (y >>= g) := by
  intro s s' related
  rw [bind_apply, bind_apply]
  have ends := first related
  generalize x s = o at ends
  generalize y s' = o' at ends
  cases ends with
  | done related => exact later _ related
  | failed related => exact .failed related
  | outOfFuel => exact .outOfFuel

/-- Changes of the session that keep sessions related. -/
theorem modify {f g : Session → Session} (keeps : ∀ {s s'}, rel s s' → rel (f s) (g s')) :
    Beside rel refault id (Exec.modify f) (Exec.modify g) :=
  fun _ _ related => .done (keeps related)

/-- Something is looked up that is the same in related sessions, and may hit a limit. -/
theorem lookUp (relabel : α → α)
    (limits : ∀ limit, refault ⟨.limit limit, none⟩ = ⟨.limit limit, none⟩)
    {look look' : Session → Except Limit α}
    (same : ∀ {s s'}, rel s s' → look' s' = (look s).map relabel) :
    Beside rel refault relabel (get look >>= orLimit) (get look' >>= orLimit) := by
  intro s s' related
  rw [lookUp_apply, lookUp_apply, same related]
  cases look s with
  | ok a => exact .done related
  | error limit =>
      have ends : EndsBeside rel refault relabel (.failed ⟨.limit limit, none⟩ s)
          (.failed (refault ⟨.limit limit, none⟩) s') := .failed related
      rw [limits] at ends
      exact ends

theorem inScope {x y : Exec α}
    (enter : ∀ {s s'}, rel s s' →
      rel { s with scopes := s.scopes.enter } { s' with scopes := s'.scopes.enter })
    (leave : ∀ {s s'}, rel s s' →
      rel { s with scopes := s.scopes.leave } { s' with scopes := s'.scopes.leave })
    (inner : Beside rel refault relabel x y) :
    Beside rel refault relabel (inScope x) (inScope y) := by
  intro s s' related
  rw [inScope_apply, inScope_apply]
  have ends := inner (enter related)
  generalize x _ = o at ends
  generalize y _ = o' at ends
  cases ends with
  | done related => exact .done (leave related)
  | failed related => exact .failed (leave related)
  | outOfFuel => exact .outOfFuel

end Beside

/-! ## What has to be shown -/

/-- What has to be shown of steps side by side, for `R` to relate each expression and statement to
the one with new labels. -/
structure Parallel (ρ : Relabelling)
    (R : ⦃α : Type⦄ → (α → α) → Exec α → Exec α → Prop) : Prop where
  value {α : Type} (relabel : α → α) (a : α) : R relabel (value a) (value (relabel a))
  fail {α : Type} (relabel : α → α) {cause : Cause} (nameless : cause.Nameless)
    (location : Option Location) :
    R relabel (fail cause location) (fail cause (location.map ρ.place))
  exhausted {α : Type} (relabel : α → α) : R relabel exhausted exhausted
  andThen {α β : Type} {relabel : α → α} {relabel' : β → β} {x y : Exec α} {f g : α → Exec β} :
    R relabel x y → (∀ a, R relabel' (f a) (g (relabel a))) → R relabel' (x >>= f) (y >>= g)
  call (callee : Expr) (location : Location) (params : List Identifier) (args : List Value)
    {fuel calls : Nat} {statements : List Stmt} :
    R id (forEach (execute fuel calls) statements)
      (forEach (execute fuel calls) (ρ.stmts statements)) →
    R ρ.value
      (noteCall callee.calleeName location args >>= fun _ =>
        activate callee.calleeName location
          (declare params args >>= fun _ => forEach (execute fuel calls) statements))
      (noteCall (ρ.expr callee).calleeName (ρ.place location) (args.map ρ.value) >>= fun _ =>
        activate (ρ.expr callee).calleeName (ρ.place location)
          (declare (params.map ρ.identifier) (args.map ρ.value) >>= fun _ =>
            forEach (execute fuel calls) (ρ.stmts statements)))
  note (rule : String) (location : Location) (fields : Details) :
    R id (note rule location fields) (note rule (ρ.place location) fields)
  noteCall (callee : Expr) (location : Location) (args : List Value) :
    R id (noteCall callee.calleeName location args)
      (noteCall (ρ.expr callee).calleeName (ρ.place location) (args.map ρ.value))
  name (id : Identifier) : R ρ.value (name id) (name (ρ.identifier id))
  function (location : Location) (params : List Identifier) (body : Block) :
    R ρ.value (function location params body)
      (function (ρ.place location) (params.map ρ.identifier) (ρ.block body))
  newArray (pairs : Pairs) : R ρ.value (newArray pairs) (newArray (ρ.pairs pairs))
  fetch (ref : Ref) (key : Value) :
    R ρ.value (fetch ref key) (fetch (ρ.ref ref) (ρ.value key))
  keep (pairs : Pairs) (key v : Value) :
    R ρ.pairs (get (·.heap.store pairs key v) >>= orLimit)
      (get (·.heap.store (ρ.pairs pairs) (ρ.value key) (ρ.value v)) >>= orLimit)
  display (v : Value) :
    R id (get (·.heap.display v) >>= orLimit) (get (·.heap.display (ρ.value v)) >>= orLimit)
  emit (text : String) :
    R id (modify fun s => { s with output := s.output.push text })
      (modify fun s => { s with output := s.output.push text })
  inScope {α : Type} {relabel : α → α} {x y : Exec α} :
    R relabel x y → R relabel (inScope x) (inScope y)
  bind (name : String) (v : Value) : R id (bind name v) (bind (ρ.name name) (ρ.value v))
  store (ref : Ref) (key v : Value) :
    R id (store ref key v) (store (ρ.ref ref) (ρ.value key) (ρ.value v))
  setPending (v : Value) : R id (setPending v) (setPending (ρ.value v))

namespace Parallel

variable {R : ⦃α : Type⦄ → (α → α) → Exec α → Exec α → Prop} (h : Parallel ρ R)
include h

/-! ## Steps that need no recursion -/

theorem orBlame (relabel : α → α) (location : Option Location) {r : Except Cause α}
    (nameless : ∀ cause, r = .error cause → cause.Nameless) :
    R relabel (orBlame location r) (orBlame (location.map ρ.place) (r.map relabel)) := by
  cases r with
  | ok a => exact h.value relabel a
  | error cause => exact h.fail relabel (nameless cause rfl) location

theorem arrayOf (use : ArrayUse) (location : Location) (v : Value) :
    R ρ.ref (arrayOf use location v) (arrayOf use (ρ.place location) (ρ.value v)) := by
  cases v with
  | array ref => exact h.value ρ.ref ref
  | nothing | number | text | boolean | function => exact h.fail ρ.ref (by trivial) (some location)

theorem functionOf (location : Location) (v : Value) :
    R ρ.function (functionOf location v) (functionOf (ρ.place location) (ρ.value v)) := by
  cases v with
  | function f => exact h.value ρ.function f
  | nothing | number | text | boolean | array =>
      exact h.fail ρ.function (by trivial) (some location)

/-! ## Lists of parts -/

section Parts

variable {eval eval' : Expr → Exec Value} (each : ∀ e, R ρ.value (eval e) (eval' (ρ.expr e)))
include each

theorem collect (es : List Expr) :
    R (List.map ρ.value) (collect eval es) (collect eval' (ρ.exprs es)) := by
  induction es with
  | nil => exact h.value _ []
  | cons e es ih =>
      exact h.andThen (each e) fun v => h.andThen ih fun vs => h.value _ (v :: vs)

theorem pairs : ∀ (items : List Element) (position : Nat) (sofar : Pairs),
    R ρ.pairs (pairs eval position sofar items)
      (pairs eval' position (ρ.pairs sofar) (ρ.elements items))
  | [], _, sofar => h.value _ sofar
  | .plain element :: items, position, sofar => by
      refine h.andThen (each element) fun v => ?_
      rw [← bind_assoc, ← bind_assoc]
      exact h.andThen (h.keep sofar (.number position) v) fun sofar => pairs items _ sofar
  | .keyed _ key element :: items, position, sofar => by
      refine h.andThen (each key) fun k => h.andThen (each element) fun v => ?_
      rw [← bind_assoc, ← bind_assoc]
      exact h.andThen (h.keep sofar k v) fun sofar => pairs items _ sofar

theorem print (location : Location) (args : List Expr) :
    R ρ.value (print eval location args) (print eval' (ρ.place location) (ρ.exprs args)) := by
  match args with
  | [] => exact h.fail _ (by trivial) (some location)
  | [arg] =>
      refine h.andThen (each arg) fun v => ?_
      rw [← bind_assoc, ← bind_assoc]
      refine h.andThen (h.display v) fun text => h.andThen (h.note _ _ _) fun _ => ?_
      exact h.andThen (h.emit text) fun _ => h.value ρ.value .nothing
  | first :: second :: rest =>
      have fails : R ρ.value
          (Exec.fail (.printArity (first :: second :: rest).length) (some location))
          (Exec.fail (.printArity (ρ.exprs (first :: second :: rest)).length)
            (some (ρ.place location))) := by
        rw [ρ.length_exprs]
        exact h.fail _ (by trivial) (some location)
      exact fails

theorem assign (target : Expr) (v : Value) :
    R id (assign eval target v) (assign eval' (ρ.expr target) (ρ.value v)) := by
  cases target with
  | ident id => exact h.bind id.name v
  | index location base key =>
      refine h.andThen (each base) fun a => h.andThen (h.arrayOf _ _ a) fun ref => ?_
      exact h.andThen (each key) fun k => h.store ref k v
  | select location base selector =>
      refine h.andThen (each base) fun a => h.andThen (h.arrayOf _ _ a) fun ref => ?_
      exact h.andThen (h.name selector) fun k => h.store ref k v
  | number | text | func | array | unary | binary | paren | call =>
      exact h.fail _ (by trivial) (some _)

end Parts

theorem forEach {run run' : Stmt → Exec Unit} (each : ∀ st, R id (run st) (run' (ρ.stmt st)))
    (sts : List Stmt) : R id (forEach run sts) (forEach run' (ρ.stmts sts)) := by
  induction sts with
  | nil => exact h.value id ()
  | cons st sts ih => exact h.andThen (each st) fun _ => ih

/-! ## Programs -/

section Step

variable {fuel calls : Nat}

theorem evaluate_succ
    (evaluated : ∀ calls e,
      R ρ.value (Session.evaluate fuel calls e) (Session.evaluate fuel calls (ρ.expr e)))
    (executed : ∀ calls st,
      R id (Session.execute fuel calls st) (Session.execute fuel calls (ρ.stmt st)))
    (e : Expr) :
    R ρ.value (Session.evaluate (fuel + 1) calls e)
      (Session.evaluate (fuel + 1) calls (ρ.expr e)) := by
  have part := evaluated calls
  rw [Session.evaluate.eq_def, Session.evaluate.eq_def]
  cases e with
  | number location n => exact h.value ρ.value (.number n)
  | text location s => exact h.value ρ.value (.text s)
  | ident id => exact h.name id
  | func location params body => exact h.function location params body
  | array location items => exact h.andThen (h.pairs part items 0 []) h.newArray
  | unary location op operand =>
      refine h.andThen (part operand) fun a => ?_
      rw [ρ.unary_value]
      exact h.orBlame _ (some location) fun _ failed => (Operator.unary_error failed).nameless
  | binary location op left right =>
      refine h.andThen (part left) fun a => h.andThen (part right) fun b => ?_
      rw [ρ.binary_value]
      exact h.orBlame _ (some location) fun _ failed => (Operator.binary_error failed).nameless
  | index location base key =>
      refine h.andThen (part base) fun a => h.andThen (h.arrayOf _ _ a) fun ref => ?_
      exact h.andThen (part key) fun k => h.fetch ref k
  | select location base selector =>
      refine h.andThen (part base) fun a => h.andThen (h.arrayOf _ _ a) fun ref => ?_
      exact h.andThen (h.name selector) fun k => h.fetch ref k
  | paren _ inner => exact part inner
  | call location callee args =>
      show R ρ.value (if callee.isPrint = true then _ else _)
        (if (ρ.expr callee).isPrint = true then _ else _)
      rw [ρ.isPrint_expr]
      split
      · exact h.print part location args
      · refine h.andThen (part callee) fun a => h.andThen (h.functionOf location a) fun f => ?_
        have params : (ρ.function f).params.length = f.params.length := List.length_map _
        rw [params, ρ.length_exprs]
        split
        · exact h.fail _ (by trivial) (some location)
        · refine h.andThen (h.collect part args) fun values => ?_
          rw [← bind_assoc, ← bind_assoc, ← bind_assoc, ← bind_assoc]
          cases calls with
          | zero =>
              refine h.andThen (h.noteCall callee location values) fun _ => ?_
              exact h.fail _ (by trivial) none
          | succ calls =>
              have call := h.call callee location f.params values
                (h.forEach (executed calls) f.body.statements)
              rw [← ρ.statements_block] at call
              exact call

theorem execute_succ
    (evaluated : ∀ e,
      R ρ.value (Session.evaluate fuel calls e) (Session.evaluate fuel calls (ρ.expr e)))
    (executed : ∀ st,
      R id (Session.execute fuel calls st) (Session.execute fuel calls (ρ.stmt st)))
    (repeated : ∀ test body, R id (Session.repeatWhile fuel calls test body)
      (Session.repeatWhile fuel calls (ρ.expr test) (ρ.block body))) (st : Stmt) :
    R id (Session.execute (fuel + 1) calls st)
      (Session.execute (fuel + 1) calls (ρ.stmt st)) := by
  have block : ∀ body : Block, R id
      (Exec.inScope (Exec.forEach (Session.execute fuel calls) body.statements))
      (Exec.inScope (Exec.forEach (Session.execute fuel calls) (ρ.block body).statements)) := by
    intro body
    rw [ρ.statements_block]
    exact h.inScope (h.forEach executed body.statements)
  rw [Session.execute.eq_def, Session.execute.eq_def]
  dsimp only
  rw [ρ.kindName_stmt, ρ.location_stmt]
  refine h.andThen (h.note _ _ _) fun _ => ?_
  cases st with
  | block body => exact block body
  | assign _ target e => exact h.andThen (evaluated e) fun v => h.assign evaluated target v
  | cond item =>
      obtain ⟨_, test, body, rest⟩ := item
      refine h.andThen (evaluated test) fun v => ?_
      rw [ρ.isTrue_value]
      split
      · exact block body
      · cases rest with
        | nothing => exact h.value id ()
        | block body => exact executed (.block body)
        | branch next => exact executed (.cond next)
  | empty => exact h.value id ()
  | expr _ e => exact h.andThen (evaluated e) fun _ => h.value id ()
  | loop _ test body => exact repeated test body
  | ret _ result =>
      cases result with
      | none => exact h.setPending .nothing
      | some e => exact h.andThen (evaluated e) fun v => h.setPending v

end Step

/-- Every expression, statement and loop is related to the one with new labels. -/
theorem program (fuel calls : Nat) :
    (∀ e, R ρ.value (Session.evaluate fuel calls e) (Session.evaluate fuel calls (ρ.expr e))) ∧
    (∀ st, R id (Session.execute fuel calls st) (Session.execute fuel calls (ρ.stmt st))) ∧
      ∀ test body, R id (Session.repeatWhile fuel calls test body)
        (Session.repeatWhile fuel calls (ρ.expr test) (ρ.block body)) := by
  induction fuel generalizing calls with
  | zero =>
      refine ⟨fun e => ?_, fun st => ?_, fun test body => ?_⟩
      · rw [Session.evaluate, Session.evaluate]
        exact h.exhausted _
      · rw [Session.execute, Session.execute]
        exact h.exhausted _
      · rw [Session.repeatWhile, Session.repeatWhile]
        exact h.exhausted _
  | succ fuel ih =>
      obtain ⟨evaluated, executed, repeated⟩ := ih calls
      refine ⟨?_, ?_, fun test body => ?_⟩
      · exact h.evaluate_succ (fun calls => (ih calls).1) (fun calls => (ih calls).2.1)
      · exact h.execute_succ evaluated executed repeated
      · rw [Session.repeatWhile, Session.repeatWhile]
        refine h.andThen (evaluated test) fun v => ?_
        rw [ρ.isTrue_value, ρ.statements_block]
        split
        · refine h.andThen (h.inScope (h.forEach executed body.statements)) fun _ => ?_
          exact repeated test body
        · exact h.value id ()

/-- The body of a run is related to that of the relabelled program. -/
theorem programBody (budget : Budget) (p : Program) :
    R id (programBody budget p) (programBody budget (ρ.program p)) :=
  h.inScope (h.forEach (h.program budget.fuel budget.calls).2.1 p.statements)

end Parallel

end Exec

end Mini
