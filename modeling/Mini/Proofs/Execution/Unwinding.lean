import Mini.Proofs.Execution.Tracked

/-!
# The calls that a fault leaves behind

The frame of a call is taken off the stack when the call has come to its end, and stays there
when its body fails. So the stack behind a fault still has the calls that were going on.

Which calls these are is read off the history, where each call is followed by what is done in it
and, if it comes to its end, by what its caller goes on with. The stack is looked at nowhere for
that. That it agrees is shown once for each step.
-/

namespace Mini

/-- A call that is made goes on inside those that were going on, until its caller goes on. The
innermost call comes first. -/
def Event.follow (calls : List Frame) (e : Event) : List Frame :=
  match e.deed with
  | .call name location _ => ⟨name, e.session.frames, some location⟩ :: calls
  | .resume => calls.tail
  | _ => calls

/-- The calls that are going on behind some events, where the given ones were going on before. -/
def goingOn (events : List Event) (calls : List Frame) : List Frame :=
  events.foldl Event.follow calls

theorem goingOn_append (events later : List Event) (calls : List Frame) :
    goingOn (events ++ later) calls = goingOn later (goingOn events calls) :=
  List.foldl_append

namespace Session

open Exec

variable {α β : Type}

/-- The calls that are going on where a run ends, outermost first. -/
def goingInRun (budget : Budget) (program : Program) (s : Session) : List Frame :=
  (goingOn (historyOfBody budget program s.frames s.begun) []).reverse

/-! ## The stack behind an execution -/

/-- When the execution is done, the stack is what it was, and so are the calls going on; when it
fails, the calls that have begun and not come to their end are on top of what the stack was. -/
structure Unwinds ⦃α : Type⦄ (found : Session → List Event) (x : Exec α) : Prop where
  done : ∀ ⦃s a t⦄, x s = .done a t → t.stack = s.stack ∧ ∀ calls, goingOn (found s) calls = calls
  failed : ∀ ⦃s fault t⦄, x s = .failed fault t → ∃ inner,
    t.stack = inner ++ s.stack ∧ ∀ calls, goingOn (found s) calls = inner ++ calls

namespace Unwinds

variable {x : Exec α} {found : Session → List Event}

theorem plain (h : Keeps stack x) : Unwinds noEvents x :=
  ⟨fun _ _ _ done => ⟨h.done done, fun _ => rfl⟩,
    fun _ _ _ failed => ⟨[], h.failed failed, fun _ => rfl⟩⟩

/-- An event that is neither a call nor the end of one. -/
theorem heard {frame : Nat} {deed : Session → Deed} (h : Keeps stack x)
    (quiet : ∀ s calls, Event.follow calls ⟨frame, deed s, s⟩ = calls) :
    Unwinds (heard frame deed x) x := by
  refine ⟨fun s a t done => ⟨h.done done, fun calls => ?_⟩,
    fun s fault t failed => ⟨[], h.failed failed, fun calls => ?_⟩⟩
  · rw [heard_done done]
    exact quiet s calls
  · rw [heard_failed failed]
    rfl

/-- Values that are written out are no calls. -/
theorem goingOn_writings {frame : Nat} {events : List Event} {s : Session}
    (writings : ∀ e ∈ events, ∃ values, e = ⟨frame, .writes values, s⟩) (calls : List Frame) :
    goingOn events calls = calls := by
  induction events with
  | nil => rfl
  | cons e events ih =>
      obtain ⟨⟨values, rfl⟩, others⟩ := List.forall_mem_cons.mp writings
      exact ih others

theorem ahead {frame : Nat} {earlier : Session → List Event} (writings : Writings frame earlier)
    (h : Unwinds found x) : Unwinds (ahead earlier found) x := by
  have same : ∀ s calls, goingOn (Session.ahead earlier found s) calls = goingOn (found s) calls :=
    fun s calls => by rw [Session.ahead, goingOn_append, goingOn_writings (writings s)]
  refine ⟨fun s a t done => ?_, fun s fault t failed => ?_⟩
  · simpa only [same] using h.done done
  · simpa only [same] using h.failed failed

theorem andThen {f : α → Exec β} {later : α → Session → List Event} (first : Unwinds found x)
    (second : ∀ a, Unwinds (later a) (f a)) : Unwinds (inTurn found x later) (x >>= f) := by
  refine ⟨fun s b t done => ?_, fun s fault t failed => ?_⟩
  · obtain ⟨a, u, here, there⟩ := bind_done done
    obtain ⟨stack, quiet⟩ := first.done here
    obtain ⟨stack', quiet'⟩ := (second a).done there
    refine ⟨stack'.trans stack, fun calls => ?_⟩
    rw [inTurn_done here, goingOn_append, quiet, quiet']
  · obtain here | ⟨a, u, here, there⟩ := bind_failed failed
    · rw [inTurn_failed here]
      exact first.failed here
    · obtain ⟨stack, quiet⟩ := first.done here
      obtain ⟨inner, stack', going⟩ := (second a).failed there
      refine ⟨inner, stack ▸ stack', fun calls => ?_⟩
      rw [inTurn_done here, goingOn_append, quiet, going]

theorem andThenPlain {f : α → Exec β} (first : Unwinds found x)
    (second : ∀ a, Keeps stack (f a)) : Unwinds found (x >>= f) := by
  have both := first.andThen fun a => plain (second a)
  rwa [inTurn_noEvents] at both

theorem lookUp (look : Session → Except Limit α) : Unwinds noEvents (get look >>= orLimit) :=
  plain ((Keeps.lookUp look).map stack)

/-- Scopes are no matter of the stack. -/
theorem inScope (h : Unwinds found x) :
    Unwinds (fun s => found { s with scopes := s.scopes.enter }) (inScope x) := by
  refine ⟨fun s a t done => ?_, fun s fault t failed => ?_⟩
  · obtain ⟨u, here, rfl⟩ := inScope_done done
    exact h.done here
  · obtain ⟨u, here, rfl⟩ := inScope_failed failed
    exact h.failed here

theorem printed {frame : Nat} (location : Location) (v : Value) :
    Unwinds (heardPrint frame location v) (printing location v) := by
  have logged : ∀ text, Unwinds (Session.heard frame (fun _ => .print location text)
      (note "PRINT" location [("output", .text text)])) (note "PRINT" location _) :=
    fun text => heard ((Keeps.note "PRINT" location _).map stack) fun _ _ => rfl
  exact (lookUp _).andThen fun text => (logged text).andThenPlain fun _ _ => rfl

theorem grown (frame : Nat) (array : Option Ref) (sofar : Pairs) (key v : Value) :
    Unwinds (heardBuild frame array sofar key v) (grown sofar key v) :=
  heard ((Keeps.lookUp _).map stack) fun _ _ => rfl

theorem of_sessions (h : ∀ s, ∃ same, same s = found s ∧ Unwinds same x) : Unwinds found x := by
  refine ⟨fun s a t done => ?_, fun s fault t failed => ?_⟩
  · obtain ⟨_, same, unwinds⟩ := h s
    exact same ▸ unwinds.done done
  · obtain ⟨_, same, unwinds⟩ := h s
    exact same ▸ unwinds.failed failed

/-- A call that is done takes its frame off the stack; one whose body fails leaves it there,
below the calls inside. -/
theorem call {frame : Nat} {name : String} {location : Location} {params : List Identifier}
    {args : List Value} {body : Exec Unit} {inside : Nat → Session → List Event}
    (h : ∀ callee, Unwinds (inside callee) body) :
    Unwinds (historyOfCall frame name location params args body inside)
      (noteCall name location args >>= fun _ =>
        activate name location (declare params args >>= fun _ => body)) := by
  have bound := fun callee => (plain ((Keeps.declare params args).map stack)).andThen fun _ =>
    h callee
  have noted := (keeps_noteCall name location args).map fun s => (s.stack, s.frames)
  refine ⟨fun s v t done => ?_, fun s fault t failed => ?_⟩
  · obtain ⟨_, u, here, done⟩ := bind_done done
    obtain ⟨stack, frames⟩ := Prod.mk.inj (noted.done here)
    obtain ⟨left, ended, rfl⟩ := activate_done done
    obtain ⟨stack', quiet⟩ := (bound u.frames).done ended
    have pushed : (unwound left).stack = ⟨name, u.frames, some location⟩ :: u.stack := stack'
    refine ⟨?_, fun calls => ?_⟩
    · rw [pop, pushed]
      exact stack
    · rw [historyOfCall, inTurn_done here, inTurn_done done, heardCall, heard_done here,
        goingOn_append, goingOn_append, historyInCall, quiet]
      rfl
  · obtain here | ⟨_, u, here, failed⟩ := bind_failed failed
    · refine ⟨[], congrArg Prod.fst (noted.failed here), fun calls => ?_⟩
      rw [historyOfCall, inTurn_failed here, heardCall, heard_failed here]
      rfl
    · obtain ⟨stack, frames⟩ := Prod.mk.inj (noted.done here)
      obtain ⟨left, ended, rfl⟩ := activate_failed failed
      obtain ⟨inner, stack', going⟩ := (bound u.frames).failed ended
      -- the calls inside the body stand above its own
      refine ⟨inner ++ [⟨name, s.frames, some location⟩], ?_, fun calls => ?_⟩
      · have left : (unwound left).stack = inner ++ ⟨name, u.frames, some location⟩ :: u.stack :=
          stack'
        rw [left, stack, frames, List.append_assoc]
        rfl
      · rw [historyOfCall, inTurn_done here, inTurn_failed failed, heardCall, heard_done here,
          goingOn_append, historyInCall, going, List.append_assoc]
        rfl

end Unwinds

theorem tracked_unwinds : Tracked (fun _ _ _ _ found x => Unwinds found x)
    fun _ _ _ _ found x => Unwinds found x where
  value _ _ := .plain fun _ => rfl
  fail _ _ := .plain fun _ => rfl
  exhausted := .plain fun _ => trivial
  andThen := Unwinds.andThen
  ofExpr unwinds := unwinds
  sequence := Unwinds.andThen
  inScope h := h.inScope
  noteStatement _ := .ahead (writings_bindings _) <|
    .heard ((Keeps.note _ _ _).map stack) fun _ _ => rfl
  name id := .plain ((Keeps.name id).map stack)
  function _ _ _ := .plain fun _ => rfl
  fetch _ _ := .lookUp _
  bind name v _ := .plain ((Keeps.bindName name v).map stack)
  setPending _ _ := .heard (fun _ => rfl) fun _ _ => rfl
  store ref key v _ _ := .heard ((Keeps.store ref key v).map stack) fun _ _ => rfl
  array elements each :=
    array_of_each (fun _ => .plain fun _ => rfl) Unwinds.andThen (Unwinds.grown _)
      (fun e => each e []) (fun _ => .plain fun _ => rfl) .of_sessions elements
  printed location v := .ahead (writings_print _ v) (.printed location v)
  refused name location args := .ahead (writings_call _ name args) <|
    (Unwinds.heard ((keeps_noteCall name location args).map stack) fun _ _ => rfl).andThenPlain
      fun _ _ => rfl
  call name _ _ args _ _ _ _ h := .ahead (writings_call _ name args) (.call h)

/-- The body of a call that is done leaves the stack as it was. -/
theorem stack_of_callBody_done {params : List Identifier} {args : List Value} {fuel calls : Nat}
    {statements : List Stmt} {s t : Session}
    (done : (declare params args >>= fun _ => forEach (execute fuel calls) statements) s =
      .done () t) : t.stack = s.stack := by
  obtain ⟨_, u, here, there⟩ := bind_done done
  rw [((tracked_unwinds.list fuel calls s.frames [] statements).done there).1]
  exact ((Keeps.declare params args).map stack).done here

/-- **A run that fails leaves its frame and the calls that were going on.** -/
theorem unwinds_programBody (budget : Budget) (p : Program) (frame : Nat) :
    Unwinds (historyOfBody budget p frame) (programBody budget p) :=
  tracked_unwinds.programBody budget p frame

end Session

end Mini
