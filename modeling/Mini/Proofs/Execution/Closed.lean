import Mini.Proofs.Execution.Tracked

/-!
# What every execution has

Most properties of executions are not about their histories. `Closed E` lists what has to be shown
once of each single step and of each way of putting steps together for `E` to hold of every
expression and every statement, without histories and without the values that the evaluator holds
on to.
-/

namespace Mini.Exec

open Session

variable {α β : Type}

/-- What has to be shown of the steps of an execution for `E` to hold of every expression and every
statement. -/
structure Closed (E : ⦃α : Type⦄ → Exec α → Prop) : Prop where
  value {α : Type} (a : α) : E (value a)
  fail {α : Type} {cause : Cause} (location : Option Location) : cause ≠ .limit .nesting →
    E (fail cause location : Exec α)
  exhausted {α : Type} : E (exhausted : Exec α)
  andThen {α β : Type} {x : Exec α} {f : α → Exec β} : E x → (∀ a, E (f a)) → E (x >>= f)
  inScope {α : Type} {x : Exec α} : E x → E (inScope x)
  note (rule : String) (location : Location) (fields : Details) : E (note rule location fields)
  noteCall (name : String) (location : Location) (args : List Value) :
    E (noteCall name location args)
  call (name : String) (location : Location) (params : List Identifier) (args : List Value)
    {fuel calls : Nat} {statements : List Stmt} :
    E (forEach (Session.execute fuel calls) statements) →
      E (Session.noteCall name location args >>= fun _ => activate name location
        (declare params args >>= fun _ => forEach (Session.execute fuel calls) statements))
  name (id : Identifier) : E (name id)
  function (location : Location) (params : List Identifier) (body : Block) :
    E (function location params body)
  newArray (pairs : Pairs) : E (newArray pairs)
  fetch (ref : Ref) (key : Value) : E (fetch ref key)
  keep (pairs : Pairs) (key v : Value) : E (get (·.heap.store pairs key v) >>= orLimit)
  display (v : Value) : E (get (·.heap.display v) >>= orLimit)
  emit (text : String) : E (modify fun s => { s with output := s.output.push text })
  bind (name : String) (v : Value) : E (bind name v)
  store (ref : Ref) (key v : Value) : E (store ref key v)
  setPending (v : Value) : E (setPending v)

namespace Closed

variable {E : ⦃α : Type⦄ → Exec α → Prop} (h : Closed E)
include h

theorem printing (location : Location) (v : Value) : E (printing location v) := by
  rw [Session.printing, ← bind_assoc]
  refine h.andThen (h.display v) ?_
  intro text
  exact h.andThen (h.note _ _ _) fun _ => h.andThen (h.emit text) fun _ => h.value _

/-- What is closed is tracked, whatever the history is. -/
theorem tracked : Tracked (fun ⦃_⦄ _ _ _ _ x => E x) fun ⦃_⦄ _ _ _ _ x => E x where
  value a _ := h.value a
  fail := h.fail
  exhausted := h.exhausted
  andThen := h.andThen
  ofExpr holds := holds
  sequence := h.andThen
  inScope := h.inScope
  noteStatement _ := h.note _ _ _
  name := h.name
  function := h.function
  fetch := h.fetch
  bind name v _ := h.bind name v
  setPending v _ := h.setPending v
  store ref key v _ _ := h.store ref key v
  array {frame _ _ found} elements each :=
    @array_of_each (fun ⦃_⦄ _ x => E x) frame _ found (fun sofar => h.value sofar) h.andThen
      (fun _ sofar key v => h.keep sofar key v) (fun e => each e []) h.newArray
      (fun each => (each (.initial false)).elim fun _ holds => holds.2) elements
  printed := h.printing
  refused name location args := h.andThen (h.noteCall name location args) fun _ => h.fail _ nofun
  call name location params args _ _ _ _ each := h.call name location params args (each 0)

theorem evaluate (fuel calls : Nat) (e : Expr) : E (Session.evaluate fuel calls e) :=
  (h.tracked.program fuel calls 0 []).1 e

theorem execute (fuel calls : Nat) (st : Stmt) : E (Session.execute fuel calls st) :=
  (h.tracked.program fuel calls 0 []).2.1 st

/-- A statement is logged, and then does something that has the property. -/
theorem behindNote (fuel calls : Nat) (st : Stmt) :
    ∃ rest, Session.execute (fuel + 1) calls st = (noteStatement st >>= fun _ => rest) ∧
      E rest := by
  obtain ⟨_, rest, -, execution, later⟩ :=
    h.tracked.behindNote_succ (h.tracked.program fuel) calls 0 [] st
  exact ⟨rest, execution, later⟩

/-- The statements of a body, one after the other. -/
theorem body (fuel calls : Nat) (statements : List Stmt) :
    E (Exec.forEach (Session.execute fuel calls) statements) :=
  h.tracked.list fuel calls 0 [] statements

/-- The body of a run is a block. -/
theorem programBody (budget : Budget) (p : Program) : E (programBody budget p) :=
  h.tracked.programBody budget p 0

end Closed

end Mini.Exec
