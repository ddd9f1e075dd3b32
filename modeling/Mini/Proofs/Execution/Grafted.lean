import Mini.Proofs.Execution.Parallel
import Mini.Proofs.Execution.Progress
import Mini.Proofs.Execution.Restoration
import Mini.Proofs.Scopes.Relabelled

/-!
# Runs on top of what was there before

A session that has been used goes on counting arrays, frames, steps and runs, and has a stack, a
log and an output already. A run in it does what it does in a session of its own, on top of all
that: with numbers that are greater by a constant each, and with frames, steps and texts behind
those from before. Places may be replaced on the way as well.

`Ground` says what a run stands on, and `Over` relates the two sessions in the course of the run.
-/

namespace Mini

/-- What a run stands on: the session that was there before it, and the log that the other run
began with, which stands on nothing. -/
structure Ground where
  place : Location → Location
  under : Session
  origin : StepLog
  steps : Nat
  numbered : Session.Numbered under
  line_place : ∀ l, (place l).line = l.line
  column_place : ∀ l, (place l).column = l.column
  statement_place : ∀ l, (place l).statement = l.statement

namespace Ground

variable (g : Ground)

theorem ref_injective :
    Function.Injective fun ref : Ref => Ref.mk (ref.index + g.under.heap.arrays.size) := by
  rintro ⟨i⟩ ⟨j⟩ same
  exact congrArg Ref.mk (Nat.add_right_cancel (Ref.mk.inj same))

theorem literal_injective :
    Function.Injective fun i : FunctionId => FunctionId.mk (i.run + g.under.runs) i.line i.column := by
  rintro ⟨i, _, _⟩ ⟨j, _, _⟩ same
  simpa using same

/-- The labels of a run, on top of those that have been given out. -/
def relabelling : Relabelling where
  place := g.place
  name := id
  ref ref := ⟨ref.index + g.under.heap.arrays.size⟩
  literal i := ⟨i.run + g.under.runs, i.line, i.column⟩
  name_injective := Function.injective_id
  ref_injective := g.ref_injective
  literal_injective := g.literal_injective
  name_reserved := Relabelling.same.name_reserved

/-- No names are new. -/
theorem cause_relabelling (cause : Cause) : g.relabelling.cause cause = cause := by
  cases cause <;> rfl

theorem calleeName_relabelling (callee : Expr) :
    (g.relabelling.expr callee).calleeName = callee.calleeName := by
  cases callee <;> rfl

/-- A frame of the run on top of the others. -/
def frame (f : Frame) : Frame :=
  ⟨f.name, f.id + g.under.frames, f.callLocation.map g.place⟩

/-- A step of the run behind the others. -/
def entry (e : Entry) : Entry where
  index := e.index + g.steps
  frame := e.frame.map (· + g.under.frames)
  location := e.location.map g.place
  statement := e.statement
  env := e.env
  details := e.details

def fault (f : Fault) : Fault :=
  ⟨f.cause, f.location.map g.place⟩

/-- The newest steps of the frames of a run. -/
def newest (lastOf : OrderedMap Nat Entry) : OrderedMap Nat Entry :=
  lastOf.map fun item => (item.1 + g.under.frames, g.entry item.2)

/-- A number that a frame of the run has on top of the others is new to the log from before. -/
theorem new_frame (id : Nat) : id + g.under.frames ∉ g.under.log.lastOf.keys :=
  fun mem => absurd (g.numbered.logged _ mem) (Nat.not_lt_of_le (Nat.le_add_left _ _))

/-- The second log has the steps of the first one behind those that it had before. -/
structure OverLog (u w : StepLog) : Prop where
  verbose : w.verbose = u.verbose
  entries : ∃ made, u.entries.toList = g.origin.entries.toList ++ made ∧
    w.entries.toList = g.under.log.entries.toList ++ made.map g.entry
  last : u.next = g.origin.next ∧ u.last = g.origin.last ∧ w.last = g.under.log.last ∨
    ∃ e, u.last = some e ∧ w.last = some (g.entry e)
  next : w.next = u.next + g.steps
  lastOf : w.lastOf = g.under.log.lastOf ++ g.newest u.lastOf

/-- The second session is the first one on top of what was there before. -/
structure Over (u w : Session) : Prop where
  heap : w.heap.arrays = g.under.heap.arrays ++ u.heap.arrays.map g.relabelling.pairs
  scopes : w.scopes = g.relabelling.scopes u.scopes
  log : g.OverLog u.log w.log
  stack : w.stack = u.stack.map g.frame ++ g.under.stack
  frames : w.frames = u.frames + g.under.frames
  pending : w.pending = g.relabelling.value u.pending
  output : w.output = g.under.output ++ u.output
  runs : w.runs = u.runs + g.under.runs

/-- The two sessions in the course of a run, which always has a frame of its own. -/
structure Running (u w : Session) : Prop where
  grafted : g.Over u w
  busy : u.stack ≠ []

/-- How two executions end side by side. -/
inductive Ends {α : Type} (relabel : α → α) : Outcome α → Outcome α → Prop
  | done {a : α} {u w : Session} : g.Running u w → Ends relabel (.done a u) (.done (relabel a) w)
  | failed {fault : Fault} {u w : Session} : g.Running u w →
      Ends relabel (.failed fault u) (.failed (g.fault fault) w)
  | outOfFuel : Ends relabel .outOfFuel .outOfFuel

/-- Two executions that go on side by side. -/
def Follows ⦃α : Type⦄ (relabel : α → α) (x y : Exec α) : Prop :=
  ∀ ⦃u w⦄, g.Running u w → g.Ends relabel (x u) (y w)

variable {g} {α β : Type}

/-! ## Sessions -/

namespace Over

variable {u w : Session} (grafted : g.Over u w)
include grafted

/-- The heap has the arrays of the run behind those from before. -/
theorem carries : g.relabelling.Carries u.heap w.heap := by
  constructor
  · intro ref
    show w.heap.arrays[ref.index + g.under.heap.arrays.size]?.getD [] = _
    rw [grafted.heap, Array.getElem?_append_right (Nat.le_add_left _ _), Nat.add_sub_cancel,
      Array.getElem?_map, Heap.read]
    cases u.heap.arrays[ref.index]? <;> rfl
  · rw [grafted.heap, Array.size_append, Array.size_map]
    exact Nat.le_add_left _ _

theorem fresh : w.heap.fresh = g.relabelling.ref u.heap.fresh := by
  rw [Heap.fresh, grafted.heap, Array.size_append, Array.size_map, Nat.add_comm]
  rfl

theorem add (items : Pairs) :
    g.Over { u with heap := u.heap.add items }
      { w with heap := w.heap.add (g.relabelling.pairs items) } := by
  refine { grafted with heap := ?_ }
  show w.heap.arrays.push _ = _ ++ (u.heap.arrays.push _).map _
  rw [grafted.heap, Array.map_push, Array.append_push]

theorem write (ref : Ref) (items : Pairs) :
    g.Over { u with heap := u.heap.write ref items }
      { w with heap := w.heap.write (g.relabelling.ref ref) (g.relabelling.pairs items) } := by
  refine { grafted with heap := ?_ }
  show w.heap.arrays.setIfInBounds (ref.index + g.under.heap.arrays.size) _ =
    _ ++ (u.heap.arrays.setIfInBounds ref.index _).map _
  rw [grafted.heap, Array.setIfInBounds_append_right (Nat.le_add_left _ _), Nat.add_sub_cancel,
    Array.map_setIfInBounds]

theorem snapshot : w.scopes.snapshot w.heap = u.scopes.snapshot u.heap := by
  have names :
      (List.map fun entry : String × String => (g.relabelling.name entry.1, entry.2)) = id :=
    List.map_id_fun
  rw [grafted.scopes, Relabelling.snapshot_scopes grafted.carries, names]
  cases u.scopes.snapshot u.heap <;> rfl

/-- The innermost frame is one of the run. -/
theorem head (busy : u.stack ≠ []) :
    w.stack.head?.map Frame.id = (u.stack.head?.map Frame.id).map (· + g.under.frames) := by
  obtain ⟨top, rest, stack⟩ := List.exists_cons_of_ne_nil busy
  rw [grafted.stack, stack]
  rfl

/-- The next step of both, with the same snapshot. -/
theorem step (busy : u.stack ≠ []) (rule : String) (location : Location) (fields : Details) :
    w.step rule (some (g.place location)) fields =
      (u.step rule (some location) fields).map g.entry := by
  have entry : ∀ env details, w.entry (some (g.place location))
      (some (g.place location).statement) env details =
        g.entry (u.entry (some location) (some location.statement) env details) := by
    intro env details
    rw [Session.entry, Session.entry, grafted.head busy, StepLog.entry, StepLog.entry,
      grafted.log.next,
      g.statement_place]
    rfl
  cases verbose : u.log.verbose with
  | false =>
      have verbose' : w.log.verbose = false := grafted.log.verbose.trans verbose
      rw [Session.step_quiet verbose, Session.step_quiet verbose']
      exact congrArg Except.ok (entry _ _)
  | true =>
      have verbose' : w.log.verbose = true := grafted.log.verbose.trans verbose
      rw [Session.step_verbose verbose, Session.step_verbose verbose', grafted.snapshot]
      cases u.scopes.snapshot u.heap with
      | ok env => exact congrArg Except.ok (entry _ _)
      | error limit => rfl

theorem callFields (name : String) (args : List Value) :
    Exec.callFields name (args.map g.relabelling.value) w = Exec.callFields name args u := by
  rw [Exec.callFields, Exec.callFields, grafted.log.verbose, grafted.carries.mapM_display]

theorem record (e : Entry) : g.Over (u.record e) (w.record (g.entry e)) := by
  refine { grafted with log := ⟨grafted.log.verbose, ?_, .inr ⟨e, rfl, rfl⟩, ?_, ?_⟩ }
  · obtain ⟨made, entries, entries'⟩ := grafted.log.entries
    show ∃ made,
      (if u.log.verbose then u.log.entries.push e else u.log.entries).toList = _ ++ made ∧
      (if w.log.verbose then w.log.entries.push (g.entry e) else w.log.entries).toList = _
    rw [grafted.log.verbose]
    cases u.log.verbose with
    | false => exact ⟨made, entries, entries'⟩
    | true => exact ⟨made ++ [e], by simp [entries], by simp [entries']⟩
  · show w.log.next + 1 = u.log.next + 1 + g.steps
    rw [grafted.log.next]
    omega
  · show (w.log.add (g.entry e)).lastOf = _ ++ g.newest (u.log.add e).lastOf
    have under : (g.entry e).frame = e.frame.map (· + g.under.frames) := rfl
    rw [StepLog.add, StepLog.add, under]
    cases e.frame with
    | none => exact grafted.log.lastOf
    | some frame =>
        dsimp only [Option.map_some]
        rw [grafted.log.lastOf, OrderedMap.put_append (g.new_frame frame), newest,
          OrderedMap.put_map fun _ _ same => Nat.add_right_cancel same]
        rfl

theorem push (name : String) (location : Option Location) :
    g.Over (u.push name location) (w.push name (location.map g.place)) := by
  refine { grafted with stack := ?_, frames := ?_ }
  · show ⟨_, w.frames, _⟩ :: w.stack = _
    rw [grafted.frames, grafted.stack]
    rfl
  · show w.frames + 1 = u.frames + 1 + _
    rw [grafted.frames]
    omega

theorem pop (busy : u.stack ≠ []) : g.Over u.pop w.pop := by
  obtain ⟨top, rest, stack⟩ := List.exists_cons_of_ne_nil busy
  have stack' : w.stack = g.frame top :: (rest.map g.frame ++ g.under.stack) := by
    rw [grafted.stack, stack]
    rfl
  rw [Session.pop, Session.pop, stack, stack']
  refine { grafted with log := { grafted.log with lastOf := ?_ }, stack := rfl }
  show w.log.lastOf.erase (top.id + g.under.frames) = _ ++ g.newest (u.log.lastOf.erase top.id)
  rw [grafted.log.lastOf, OrderedMap.erase_append (g.new_frame top.id), newest,
    OrderedMap.erase_map fun _ _ same => Nat.add_right_cancel same]
  rfl

end Over

/-! ## Ways of putting executions together -/

namespace Follows

variable {relabel : α → α} {relabel' : β → β}

theorem ends_iff {o o' : Outcome α} :
    g.Ends relabel o o' ↔ Exec.EndsBeside g.Running g.fault relabel o o' := by
  constructor
  · rintro (running | running | -)
    · exact .done running
    · exact .failed running
    · exact .outOfFuel
  · rintro (running | running | -)
    · exact .done running
    · exact .failed running
    · exact .outOfFuel

theorem iff_beside {x y : Exec α} :
    g.Follows relabel x y ↔ Exec.Beside g.Running g.fault relabel x y :=
  forall₃_congr fun _ _ _ => ends_iff

theorem value (relabel : α → α) (a : α) :
    g.Follows relabel (Exec.value a) (Exec.value (relabel a)) :=
  iff_beside.mpr (.value relabel a)

theorem fail (relabel : α → α) (cause : Cause) (location : Option Location) :
    g.Follows relabel (Exec.fail cause location) (Exec.fail cause (location.map g.place)) :=
  fun _ _ running => .failed running

theorem andThen {x y : Exec α} {f f' : α → Exec β} (first : g.Follows relabel x y)
    (later : ∀ a, g.Follows relabel' (f a) (f' (relabel a))) :
    g.Follows relabel' (x >>= f) (y >>= f') :=
  iff_beside.mpr ((iff_beside.mp first).andThen fun a => iff_beside.mp (later a))

/-- Changes of the session that keep it on the ground. -/
theorem modify {f f' : Session → Session}
    (keeps : ∀ {u w}, g.Running u w → g.Running (f u) (f' w)) :
    g.Follows id (Exec.modify f) (Exec.modify f') :=
  iff_beside.mpr (.modify keeps)

theorem lookUp (relabel : α → α) {look look' : Session → Except Limit α}
    (same : ∀ {u w}, g.Running u w → look' w = (look u).map relabel) :
    g.Follows relabel (Exec.get look >>= Exec.orLimit) (Exec.get look' >>= Exec.orLimit) :=
  iff_beside.mpr (.lookUp relabel (fun _ => rfl) same)

/-! ### Single steps -/

theorem note (rule : String) (location : Location) (fields : Details) :
    g.Follows id (Exec.note rule location fields) (Exec.note rule (g.place location) fields) := by
  intro u w running
  rw [Exec.note_apply, Exec.note_apply, running.grafted.step running.busy]
  cases u.step rule (some location) fields with
  | ok e => exact .done ⟨running.grafted.record e, running.busy⟩
  | error limit => exact .failed running

theorem noteCall (name : String) (location : Location) (args : List Value) :
    g.Follows id (Session.noteCall name location args)
      (Session.noteCall name (g.place location) (args.map g.relabelling.value)) := by
  refine andThen (lookUp id fun running => ?_) fun fields => note "CALL" location fields
  rw [running.grafted.callFields, Except.map_id]
  rfl

theorem name (id : Identifier) :
    g.Follows g.relabelling.value (Exec.name id) (Exec.name (g.relabelling.identifier id)) := by
  intro u w running
  have found := g.relabelling.get_scopes u.scopes id.name
  rw [← running.grafted.scopes] at found
  replace found : w.scopes.get id.name = _ := found
  have same : (g.relabelling.identifier id).name = id.name := rfl
  rw [Exec.name_apply, Exec.name_apply, same, found]
  by_cases isTrue : id.name = "true"
  · rw [if_pos isTrue, if_pos isTrue]
    exact .done running
  · rw [if_neg isTrue, if_neg isTrue]
    by_cases isFalse : id.name = "false"
    · rw [if_pos isFalse, if_pos isFalse]
      exact .done running
    · rw [if_neg isFalse, if_neg isFalse]
      cases u.scopes.get id.name with
      | ok v => exact .done running
      | error missing =>
          dsimp only
          rw [g.cause_relabelling]
          exact .failed running

theorem function (location : Location) (params : List Identifier) (body : Block) :
    g.Follows g.relabelling.value (Exec.function location params body)
      (Exec.function (g.place location) (params.map g.relabelling.identifier)
        (g.relabelling.block body)) := by
  intro u w running
  have same : (FunctionId.mk w.runs (g.place location).line (g.place location).column) =
      g.relabelling.literal ⟨u.runs, location.line, location.column⟩ := by
    rw [running.grafted.runs, g.line_place, g.column_place]
    rfl
  show g.Ends _
    (.done (Value.function ⟨⟨u.runs, location.line, location.column⟩, params, body⟩) u)
    (.done (Value.function ⟨⟨w.runs, (g.place location).line, (g.place location).column⟩, _, _⟩) w)
  rw [same]
  exact .done running

theorem newArray (items : Pairs) :
    g.Follows g.relabelling.value (Exec.newArray items)
      (Exec.newArray (g.relabelling.pairs items)) := by
  intro u w running
  rw [Exec.newArray_apply, Exec.newArray_apply, running.grafted.fresh]
  exact .done ⟨running.grafted.add items, running.busy⟩

theorem store (ref : Ref) (key v : Value) :
    g.Follows id (Exec.store ref key v)
      (Exec.store (g.relabelling.ref ref) (g.relabelling.value key) (g.relabelling.value v)) := by
  intro u w running
  have carries := running.grafted.carries
  rw [Exec.store_apply, Exec.store_apply, carries.read, carries.store]
  cases u.heap.store (u.heap.read ref) key v with
  | ok items => exact .done ⟨running.grafted.write ref items, running.busy⟩
  | error limit => exact .failed running

theorem bindName (name : String) (v : Value) :
    g.Follows id (Exec.bind name v) (Exec.bind name (g.relabelling.value v)) := by
  intro u w running
  have bound := g.relabelling.bind_scopes u.scopes name v
  rw [← running.grafted.scopes] at bound
  replace bound : w.scopes.bind name _ = _ := bound
  rw [Exec.bindName_apply, Exec.bindName_apply, bound]
  cases u.scopes.bind name v with
  | ok scopes => exact .done ⟨{ running.grafted with scopes := rfl }, running.busy⟩
  | error cause => exact .failed running

theorem declare : ∀ (params : List Identifier) (args : List Value),
    g.Follows id (Exec.declare params args)
      (Exec.declare (params.map g.relabelling.identifier) (args.map g.relabelling.value))
  | [], _ => value id ()
  | _ :: _, [] => value id ()
  | param :: params, arg :: args => by
      intro u w running
      have declared := g.relabelling.declare_scopes u.scopes param.name arg
      rw [← running.grafted.scopes] at declared
      replace declared : w.scopes.declare (g.relabelling.identifier param).name _ = _ := declared
      rw [List.map_cons, List.map_cons, Exec.declare_cons_apply, Exec.declare_cons_apply, declared]
      cases u.scopes.declare param.name arg with
      | ok scopes =>
          exact declare params args ⟨{ running.grafted with scopes := rfl }, running.busy⟩
      | error cause => exact .failed running

/-! ### Scopes and calls -/

theorem entered {u w : Session} (running : g.Running u w) :
    g.Running { u with scopes := u.scopes.enter } { w with scopes := w.scopes.enter } := by
  refine ⟨{ running.grafted with scopes := ?_ }, running.busy⟩
  show w.scopes.enter = _
  rw [running.grafted.scopes, g.relabelling.enter_scopes]

theorem left {u w : Session} (running : g.Running u w) :
    g.Running { u with scopes := u.scopes.leave } { w with scopes := w.scopes.leave } := by
  refine ⟨{ running.grafted with scopes := ?_ }, running.busy⟩
  show w.scopes.leave = _
  rw [running.grafted.scopes, g.relabelling.leave_scopes]

theorem inScope {x y : Exec α} (h : g.Follows relabel x y) :
    g.Follows relabel (Exec.inScope x) (Exec.inScope y) :=
  iff_beside.mpr ((iff_beside.mp h).inScope entered left)

/-- A call whose body leaves the stack as it was. -/
theorem activate (name : String) (location : Location) {body body' : Exec Unit}
    (keeps : ∀ {s a t}, body s = .done a t → t.stack = s.stack) (h : g.Follows id body body') :
    g.Follows g.relabelling.value (Exec.activate name location body)
      (Exec.activate name (g.place location) body') := by
  intro u w running
  have begun : g.Running (u.push name (some location)) (w.push name (some (g.place location))) :=
    ⟨running.grafted.push name (some location), List.cons_ne_nil _ _⟩
  have ends : g.Ends id (body (Exec.activated name location u))
    (body' (Exec.activated name (g.place location) w)) := h (entered begun)
  have unwound : ∀ {t t'}, g.Running t t' → g.Running (Exec.unwound t) (Exec.unwound t') :=
    fun running => ⟨{ (left running).grafted with pending := rfl }, running.busy⟩
  rw [Exec.activate_apply, Exec.activate_apply]
  generalize ended : body (Exec.activated name location u) = o at ends
  generalize body' (Exec.activated name (g.place location) w) = o' at ends
  cases ends with
  | @done _ t t' running' =>
      have stack : (Exec.unwound t).stack = ⟨name, u.frames, some location⟩ :: u.stack :=
        keeps ended
      have popped : (Exec.unwound t).pop.stack = u.stack := by rw [Session.pop, stack]
      dsimp only
      rw [running'.grafted.pending]
      exact .done ⟨(unwound running').grafted.pop running'.busy, popped ▸ running.busy⟩
  | failed running => exact .failed (unwound running)
  | outOfFuel => exact .outOfFuel

end Follows

/-- **A run goes on alike on any ground.** -/
theorem parallel (g : Ground) : Exec.Parallel g.relabelling g.Follows where
  value := Follows.value
  fail relabel cause _ location := Follows.fail relabel cause location
  exhausted _ _ _ _ := .outOfFuel
  andThen first later := first.andThen later
  call callee location params args fuel calls statements h := by
    rw [g.calleeName_relabelling]
    refine (Follows.noteCall _ location args).andThen fun _ => ?_
    exact Follows.activate _ location Session.stack_of_callBody_done
      ((Follows.declare params args).andThen fun _ => h)
  note := Follows.note
  noteCall callee location args := by
    rw [g.calleeName_relabelling]
    exact Follows.noteCall _ location args
  name := Follows.name
  function := Follows.function
  newArray := Follows.newArray
  fetch ref key := .lookUp _ fun running => by
    rw [running.grafted.carries.read, running.grafted.carries.lookup]
  keep items key v := .lookUp _ fun running => running.grafted.carries.store items key v
  display v := .lookUp _ fun running => by
    rw [running.grafted.carries.display, Except.map_id]
    rfl
  emit text := .modify fun running =>
    ⟨{ running.grafted with output := by rw [running.grafted.output, Array.append_push] },
      running.busy⟩
  inScope h := h.inScope
  bind := Follows.bindName
  store := Follows.store
  setPending v := .modify fun running => ⟨{ running.grafted with pending := rfl }, running.busy⟩

/-! ## Runs -/

/-- How two runs end side by side. At a fault both have logged a step. -/
inductive RunEnds (g : Ground) : Outcome Unit → Outcome Unit → Prop
  | done {u w : Session} : g.Over u w → RunEnds g (.done () u) (.done () w)
  | failed {fault : Fault} {u w : Session} {e : Entry} : g.Over u w → u.log.last = some e →
      w.log.last = some (g.entry e) → RunEnds g (.failed fault u) (.failed (g.fault fault) w)
  | outOfFuel : RunEnds g .outOfFuel .outOfFuel

/-- What the newest step is blamed for is blamed on the same place. -/
theorem blame {u w : Session} {e : Entry} (newest : u.log.last = some e)
    (newest' : w.log.last = some (g.entry e)) (fault : Fault) :
    w.blame (g.fault fault) = g.fault (u.blame fault) := by
  obtain ⟨cause, location⟩ := fault
  cases cause with
  | limit limit =>
      show Fault.mk _ (w.log.last.bind _) = Fault.mk _ ((u.log.last.bind _).map _)
      rw [newest, newest']
      rfl
  | undefined | noScope | mismatch | notApplicable | divideByZero | remainderByZero | notArray
  | notAssignable | notCallable | arity | printArity => rfl

/-- **A run on top of other runs does what it does by itself**, if the sessions match at the
beginning. -/
theorem run {s s' : Session} (running : g.Running s.begun s'.begun)
    (origin : g.origin.next = s.log.next) (budget : Session.Budget) (p : Program) :
    g.RunEnds (s.run budget p) (s'.run budget (g.relabelling.program p)) := by
  have ends := g.parallel.programBody budget p running
  rw [Session.run_eq, Session.run_eq]
  generalize ended : Session.programBody budget p s.begun = o at ends
  generalize Session.programBody budget _ s'.begun = o' at ends
  cases ends with
  | done running' => exact .done (running'.grafted.pop running'.busy)
  | @failed fault u w running' =>
      have next := Session.next_lt_of_programBody_failed ended
      rcases running'.grafted.log.last with ⟨nothing, -⟩ | ⟨e, newest, newest'⟩
      · have begun : s.begun.log.next = s.log.next := rfl
        omega
      · dsimp only
        rw [blame newest newest']
        exact .failed running'.grafted newest newest'
  | outOfFuel => exact .outOfFuel

end Ground

end Mini
