import Mini.Proofs.Execution.Progress
import Mini.Proofs.Execution.Restoration

/-!
# The chain of pending calls

A call is logged before its frame is put on the stack, and until that frame is gone no other step
is made under the caller. So the newest step of a frame that waits is the call it waits for: that
of the frame above it. `Waiting` says so of all callers of a frame, `Chained` of a session. The
frame on top may be so new that no step has been made under it. A body that fails has made one,
so behind a run that fails every frame has its step.
-/

namespace Mini

/-- A step is the call of a frame: it was made where the frame says that it was called, and names
the function that the frame names. -/
structure Entry.Calls (e : Entry) (frame : Frame) : Prop where
  location : e.location = frame.callLocation
  details : ∃ details, e.details = some details ∧ details.find? "rule" = some (.text "CALL") ∧
    details.find? "function" = some (.text frame.name)

namespace Session

open Exec

variable {α β : Type}

/-! ## Frames that wait for a call -/

/-- The newest steps of the callers of a frame, the outermost caller's first: that of each caller
is the call of the frame above it, and later than those below. The callers are given innermost
first, as the stack has them. -/
inductive Waiting : Frame → List Frame → OrderedMap Nat Entry → Prop
  | outermost (frame : Frame) : Waiting frame [] []
  | call {callee caller : Frame} {callers : List Frame} {log : OrderedMap Nat Entry} {e : Entry} :
      Waiting caller callers log → caller.id < callee.id →
      (∀ older ∈ log, older.2.index < e.index) → e.Calls callee →
      Waiting callee (caller :: callers) (log ++ [(caller.id, e)])

namespace Waiting

variable {frame : Frame} {callers : List Frame} {log : OrderedMap Nat Entry}

theorem id_lt (waiting : Waiting frame callers log) : ∀ id ∈ log.keys, id < frame.id := by
  induction waiting with
  | outermost => exact fun _ mem => absurd mem List.not_mem_nil
  | call _ lt _ _ ih =>
      intro id mem
      rw [OrderedMap.keys, List.map_append, List.mem_append] at mem
      rcases mem with older | newest
      · exact Nat.lt_trans (ih id older) lt
      · rw [List.mem_singleton.mp newest]
        exact lt

theorem keys_eq (waiting : Waiting frame callers log) :
    log.keys = callers.reverse.map Frame.id := by
  induction waiting with
  | outermost => rfl
  | call _ _ _ _ ih =>
      rw [OrderedMap.keys] at ih ⊢
      rw [List.map_append, ih, List.reverse_cons, List.map_append]
      rfl

theorem ascending (waiting : Waiting frame callers log) : log.keys.Pairwise (· < ·) := by
  induction waiting with
  | outermost => exact .nil
  | call waiting _ _ _ ih =>
      rw [OrderedMap.keys, List.map_append, List.pairwise_append]
      refine ⟨ih, List.pairwise_singleton _ _, fun id mem newest here => ?_⟩
      rw [List.mem_singleton.mp here]
      exact waiting.id_lt id mem

theorem indices_ascending (waiting : Waiting frame callers log) :
    log.Pairwise fun older newer => older.2.index < newer.2.index := by
  induction waiting with
  | outermost => exact .nil
  | call _ _ later _ ih =>
      rw [List.pairwise_append]
      refine ⟨ih, List.pairwise_singleton _ _, fun older mem newest here => ?_⟩
      rw [List.mem_singleton.mp here]
      exact later older mem

/-- Each step is the call of the next frame. -/
theorem calls (waiting : Waiting frame callers log) :
    List.Forall₂ Entry.Calls (log.map Prod.snd) (callers.reverse ++ [frame]).tail := by
  induction waiting with
  | outermost => exact .nil
  | @call callee caller callers log e _ _ _ calls ih =>
      have frames : ((caller :: callers).reverse ++ [callee]).tail =
          (callers.reverse ++ [caller]).tail ++ [callee] := by
        rw [List.reverse_cons, List.tail_append_of_ne_nil (by simp)]
      rw [frames, List.map_append]
      exact List.rel_append ih (.cons calls .nil)

end Waiting

/-! ## Sessions with a chain of calls -/

/-- All frames below the top of the stack wait for the call of the one above, and `newest` is the
newest step of the frame on top, if one has been made under it. -/
structure Chained (s : Session) (newest : Option Entry) : Prop where
  numbered : Numbered s
  past : ∀ step ∈ s.log.lastOf, step.2.index < s.log.next
  chain : ∃ frame callers log, s.stack = frame :: callers ∧ Waiting frame callers log ∧
    s.log.lastOf = log ++ (newest.map fun e => (frame.id, e)).toList ∧
    ∀ e ∈ newest, ∀ older ∈ log, older.2.index < e.index

namespace Chained

variable {s t : Session} {newest : Option Entry}

theorem resumes (h : Chained s newest) (resumes : Resumes s t)
    (lastOf : t.log.lastOf = s.log.lastOf) (next : s.log.next ≤ t.log.next) :
    Chained t newest := by
  obtain ⟨numbered, past, chain⟩ := h
  rw [← lastOf] at past chain
  rw [← resumes.stack] at chain
  exact ⟨numbered.resumes resumes, fun step mem => Nat.lt_of_lt_of_le (past step mem) next, chain⟩

/-- A step replaces the newest one of the frame on top. -/
theorem record (h : Chained s newest) {rule : String} {location : Option Location}
    {fields : Details} {e : Entry} (made : s.step rule location fields = .ok e) :
    Chained (s.record e) (some e) := by
  obtain ⟨numbered, past, frame, callers, log, stack, waiting, lastOf, -⟩ := h
  have index : e.index = s.log.next := by
    obtain ⟨env, rfl⟩ := step_ok made
    rfl
  have older : ∀ step ∈ log, step.2.index < e.index := by
    intro step mem
    rw [index]
    exact past step (lastOf ▸ List.mem_append_left _ mem)
  have put : (s.record e).log.lastOf = log ++ [(frame.id, e)] := by
    have under : e.frame = some frame.id := by rw [frame_of_step made, stack]; rfl
    have new : frame.id ∉ log.keys := fun mem => Nat.lt_irrefl _ (waiting.id_lt _ mem)
    show (s.log.add e).lastOf = _
    rw [StepLog.add, under, lastOf]
    dsimp only
    rw [OrderedMap.put_append new]
    cases newest <;> simp [OrderedMap.put]
  refine ⟨numbered.resumes (.record made), ?_, frame, callers, log, stack, waiting, put, ?_⟩
  · rw [put]
    intro step mem
    show step.2.index < s.log.next + 1
    rcases List.mem_append.mp mem with mem | mem
    · have before := older step mem
      omega
    · rw [List.mem_singleton.mp mem]
      show e.index < _
      omega
  · intro e' same step mem
    cases same
    exact older step mem

/-- A frame is put on the stack behind the step of its call. -/
theorem push {e : Entry} (h : Chained s (some e)) {name : String} {location : Location}
    (calls : e.Calls ⟨name, s.frames, some location⟩) :
    Chained (activated name location s) none := by
  obtain ⟨numbered, past, frame, callers, log, stack, waiting, lastOf, older⟩ := h
  have known : frame.id < s.frames := numbered.stacked frame (stack ▸ List.mem_cons_self)
  have numbered := numbered.push name (some location)
  refine ⟨⟨numbered.logged, numbered.stacked⟩, past, ⟨name, s.frames, some location⟩,
    frame :: callers, s.log.lastOf, congrArg _ stack, ?_, (List.append_nil _).symm, ?_⟩
  · rw [lastOf]
    exact .call waiting known (older e rfl) calls
  · intro e none
    cases none

end Chained

/-! ## Executions that keep the chain -/

/-- What the chain is about. -/
def books (s : Session) : List Frame × Nat × StepLog :=
  (s.stack, s.frames, s.log)

/-- There is a chain, and the frame on top has a step. -/
def Linked (s : Session) : Prop :=
  ∃ e, Chained s (some e)

theorem of_books {s t : Session} (same : t.books = s.books) :
    t.stack = s.stack ∧ t.frames = s.frames ∧ t.log = s.log := by
  simpa [books] using same

theorem Chained.of_books {s t : Session} {newest : Option Entry} (h : Chained s newest)
    (same : t.books = s.books) : Chained t newest := by
  obtain ⟨stack, frames, log⟩ := Session.of_books same
  refine h.resumes ⟨stack, Nat.le_of_eq frames.symm, .inl ?_⟩ ?_ ?_
  · rw [log]
  · rw [log]
  · rw [log]

/-- However an execution ends that begins with a chain, it has logged a step and there is a
chain, or it has not touched the books. -/
structure KeepsChain ⦃α : Type⦄ (x : Exec α) : Prop where
  done : ∀ ⦃s newest a t⦄, Chained s newest → x s = .done a t → Linked t ∨ t.books = s.books
  failed : ∀ ⦃s newest fault t⦄, Chained s newest → x s = .failed fault t →
    Linked t ∨ t.books = s.books

/-- What comes later counts from where the earlier part has ended. -/
theorem Linked.trans {s t u : Session} {newest : Option Entry} (h : Chained s newest)
    (first : Linked t ∨ t.books = s.books)
    (later : ∀ newest, Chained t newest → Linked u ∨ u.books = t.books) :
    Linked u ∨ u.books = s.books := by
  rcases first with ⟨e, linked⟩ | same
  · rcases later (some e) linked with linked' | same'
    · exact .inl linked'
    · exact .inl ⟨e, linked.of_books same'⟩
  · rcases later newest (h.of_books same) with linked' | same'
    · exact .inl linked'
    · exact .inr (same'.trans same)

namespace KeepsChain

theorem of_keeps {x : Exec α} (h : Keeps books x) : KeepsChain x :=
  ⟨fun _ _ _ _ _ done => .inr (h.done done), fun _ _ _ _ _ failed => .inr (h.failed failed)⟩

theorem andThen ⦃α β : Type⦄ {x : Exec α} {f : α → Exec β} (first : KeepsChain x)
    (later : ∀ a, KeepsChain (f a)) : KeepsChain (x >>= f) := by
  refine ⟨fun s newest b t h done => ?_, fun s newest fault t h failed => ?_⟩
  · obtain ⟨a, u, done, done'⟩ := bind_done done
    exact Linked.trans h (first.done h done) fun newest h => (later a).done h done'
  · obtain failed | ⟨a, u, done, failed⟩ := bind_failed failed
    · exact first.failed h failed
    · exact Linked.trans h (first.done h done) fun newest h => (later a).failed h failed

theorem lookUp (look : Session → Except Limit α) : KeepsChain (get look >>= orLimit) :=
  of_keeps ((Keeps.lookUp look).map books)

theorem note (rule : String) (location : Location) (fields : Details) :
    KeepsChain (note rule location fields) := by
  refine ⟨fun s newest a t h done => ?_, fun s newest fault t h failed => ?_⟩
  · rw [note_apply] at done
    split at done
    · rename_i e made
      cases done
      exact .inl ⟨e, h.record made⟩
    · cases done
  · rw [note_apply] at failed
    split at failed
    · cases failed
    · cases failed
      exact .inr rfl

theorem noteCall (name : String) (location : Location) (args : List Value) :
    KeepsChain (noteCall name location args) :=
  (lookUp _).andThen fun fields => note "CALL" location fields

theorem inScope ⦃α : Type⦄ {x : Exec α} (h : KeepsChain x) : KeepsChain (inScope x) := by
  refine ⟨fun s newest a t chained done => ?_, fun s newest fault t chained failed => ?_⟩
  · obtain ⟨u, here, rfl⟩ := inScope_done done
    have entered := chained.of_books (t := { s with scopes := s.scopes.enter }) rfl
    exact (h.done entered here).imp_left fun ⟨e, linked⟩ => ⟨e, linked.of_books rfl⟩
  · obtain ⟨u, here, rfl⟩ := inScope_failed failed
    have entered := chained.of_books (t := { s with scopes := s.scopes.enter }) rfl
    exact (h.failed entered here).imp_left fun ⟨e, linked⟩ => ⟨e, linked.of_books rfl⟩

end KeepsChain

/-! ### Calls -/

section Call

variable {name : String} {location : Location} {args : List Value} {s t : Session}

/-- A call that is logged has its description and is the newest step. -/
theorem noteCall_done (done : noteCall name location args s = .done () t) :
    ∃ fields e, callFields name args s = .ok fields ∧
      s.step "CALL" (some location) fields = .ok e ∧ t = s.record e := by
  obtain ⟨fields, u, looked, noted⟩ := bind_done done
  rw [lookUp_apply] at looked
  split at looked
  · rename_i described
    cases looked
    rw [note_apply] at noted
    split at noted
    · rename_i e made
      cases noted
      exact ⟨_, e, described, made, rfl⟩
    · cases noted
  · cases looked

/-- The step of a call names the function, whether or not it describes the arguments. -/
theorem calls_of_noteCall {fields : Details} {e : Entry}
    (described : callFields name args s = .ok fields)
    (made : s.step "CALL" (some location) fields = .ok e) (id : Nat) :
    e.Calls ⟨name, id, some location⟩ := by
  obtain ⟨env, rfl⟩ := step_ok made
  refine ⟨rfl, _, rfl, ?_⟩
  cases verbose : s.log.verbose with
  | false =>
      rw [callFields_quiet verbose] at described
      cases described
      exact ⟨rfl, rfl⟩
  | true =>
      rw [callFields_verbose verbose] at described
      split at described
      · cases described
        exact ⟨rfl, rfl⟩
      · cases described

section Activate

variable {newest : Option Entry} (chained : Chained s newest) {fields : Details} {e : Entry}
  (described : callFields name args s = .ok fields)
  (made : s.step "CALL" (some location) fields = .ok e)
  {params : List Identifier} {fuel calls : Nat} {statements : List Stmt}
include chained described made

/-- A call that is done has taken its frame and all steps under it out of the books, so that its
own step is the newest again. -/
theorem linked_of_activate_done {v : Value} (done : activate name location
    (declare params args >>= fun _ => forEach (execute fuel calls) statements) (s.record e) =
      .done v t) : Linked t := by
  have logged := chained.record made
  have inside := logged.push (calls_of_noteCall described made (s.record e).frames)
  obtain ⟨u, ended, rfl⟩ := activate_done done
  have advances : Advances (declare params args >>= fun _ =>
      forEach (execute fuel calls) statements) :=
    (Advances.of_keeps ((Keeps.declare params args).map log)).andThen fun _ =>
      closed_advances.body fuel calls statements
  have pushed := (keepsNumbers_callBody params args fuel calls statements).done inside.numbered ended
  have pushed : Resumes ((s.record e).push name (some location)) (unwound u) :=
    ⟨pushed.stack, pushed.frames, pushed.lastOf⟩
  obtain ⟨resumes, lastOf⟩ := logged.numbered.pop pushed
  have next := advances.done ended
  refine ⟨e, logged.resumes resumes lastOf ?_⟩
  rw [pop_next]
  exact next

/-- A call that fails in its body has logged a step under its frame. -/
theorem linked_of_activate_failed (h : KeepsChain (forEach (execute fuel calls) statements))
    {fault : Fault} (failed : activate name location
      (declare params args >>= fun _ => forEach (execute fuel calls) statements) (s.record e) =
        .failed fault t) : Linked t := by
  have inside := (chained.record made).push
    (calls_of_noteCall described made (s.record e).frames)
  obtain ⟨u, ended, rfl⟩ := activate_failed failed
  have body : KeepsChain (declare params args >>= fun _ => forEach (execute fuel calls) statements) :=
    (KeepsChain.of_keeps ((Keeps.declare params args).map books)).andThen fun _ => h
  rcases body.failed inside ended with ⟨e', linked⟩ | same
  · exact ⟨e', linked.of_books rfl⟩
  · have next := next_lt_of_callBody_failed described ended
    rw [(of_books same).2.2] at next
    exact absurd next (Nat.lt_irrefl _)

end Activate

end Call

theorem KeepsChain.call (name : String) (location : Location) (params : List Identifier)
    (args : List Value) {fuel calls : Nat} {statements : List Stmt}
    (h : KeepsChain (forEach (execute fuel calls) statements)) :
    KeepsChain (Session.noteCall name location args >>= fun _ => activate name location
      (declare params args >>= fun _ => forEach (execute fuel calls) statements)) := by
  refine ⟨fun s newest v t chained done => ?_, fun s newest fault t chained failed => ?_⟩
  · obtain ⟨_, _, noted, done⟩ := bind_done done
    obtain ⟨fields, e, described, made, rfl⟩ := noteCall_done noted
    exact .inl (linked_of_activate_done chained described made done)
  · obtain failed | ⟨_, _, noted, failed⟩ := bind_failed failed
    · exact (KeepsChain.noteCall name location args).failed chained failed
    · obtain ⟨fields, e, described, made, rfl⟩ := noteCall_done noted
      exact .inl (linked_of_activate_failed chained described made h failed)

theorem closed_keepsChain : Closed KeepsChain where
  value _ := .of_keeps fun _ => rfl
  fail _ _ := .of_keeps fun _ => rfl
  exhausted := .of_keeps fun _ => trivial
  andThen first later := first.andThen later
  call name location params args _ _ _ h := .call name location params args h
  note := KeepsChain.note
  noteCall := KeepsChain.noteCall
  name id := .of_keeps ((Keeps.name id).map books)
  function _ _ _ := .of_keeps fun _ => rfl
  newArray _ := .of_keeps fun _ => rfl
  fetch _ _ := .lookUp _
  keep _ _ _ := .lookUp _
  display _ := .lookUp _
  emit _ := .of_keeps fun _ => rfl
  inScope h := h.inScope
  bind name v := .of_keeps ((Keeps.bindName name v).map books)
  store ref key v := .of_keeps ((Keeps.store ref key v).map books)
  setPending _ := .of_keeps fun _ => rfl

/-! ## Runs that fail -/

theorem chained_begun (verbose : Bool) : Chained (initial verbose).begun none :=
  ⟨(idle_initial verbose).begun, fun _ mem => absurd mem List.not_mem_nil,
    ⟨topLevel, 0, none⟩, [], [], rfl, .outermost _, rfl, fun _ none => nomatch none⟩

/-- A run that fails has logged a step, and the chain goes up to where it failed. -/
theorem linked_of_run_failed {verbose : Bool} {budget : Budget} {program : Program}
    {fault : Fault} {t : Session}
    (failed : (initial verbose).run budget program = .failed fault t) :
    Linked t := by
  rw [run_eq] at failed
  split at failed
  · cases failed
  · rename_i _ _ here
    cases failed
    have kept := closed_keepsChain.programBody budget program
    rcases kept.failed (chained_begun verbose) here with linked | same
    · exact linked
    · have next := next_lt_of_programBody_failed here
      have still : t.log.next = (initial verbose).begun.log.next :=
        congrArg (fun books => books.2.2.next) same
      omega
  · cases failed

/-- Where the log has a step for each frame, the traceback shows the frames at these steps. -/
theorem map_ofFrame {log : StepLog} {frames : List Frame} {steps : OrderedMap Nat Entry}
    (same : steps.keys = frames.map Frame.id)
    (found : ∀ step ∈ steps, log.lastOf.find? step.1 = some step.2) :
    frames.map (TraceFrame.ofFrame log) =
      List.zipWith (fun frame e => ⟨frame.name, e.location, some e⟩) frames
        (steps.map Prod.snd) := by
  induction frames generalizing steps with
  | nil => rfl
  | cons frame frames ih =>
      obtain _ | ⟨⟨id, e⟩, steps⟩ := steps
      · cases same
      obtain ⟨rfl, others⟩ := List.cons.inj same
      have here : TraceFrame.ofFrame log frame = ⟨frame.name, e.location, some e⟩ := by
        rw [TraceFrame.ofFrame, found _ List.mem_cons_self]
      have rest := ih others fun step mem => found step (List.mem_cons_of_mem _ mem)
      rw [List.map_cons, here, rest]
      rfl

namespace Linked

variable {t : Session} (linked : Linked t)
include linked

/-- The books behind an execution that has logged a step: the chain of the callers, and on top of
it the newest step. -/
theorem exists_waiting : ∃ frame callers log e, t.stack.reverse = callers.reverse ++ [frame] ∧
    Waiting frame callers log ∧ t.log.lastOf = log ++ [(frame.id, e)] ∧
    ∀ older ∈ log, older.2.index < e.index := by
  obtain ⟨e, -, -, frame, callers, log, stack, waiting, lastOf, later⟩ := linked
  refine ⟨frame, callers, log, e, ?_, waiting, lastOf, later e rfl⟩
  rw [stack, List.reverse_cons]

theorem keys_eq : t.log.lastOf.keys = t.stack.reverse.map Frame.id := by
  obtain ⟨frame, callers, log, e, stack, waiting, lastOf, -⟩ := linked.exists_waiting
  rw [stack, lastOf, List.map_append, ← waiting.keys_eq, OrderedMap.keys, List.map_append]
  rfl

theorem calls : List.Forall₂ Entry.Calls (t.log.lastOf.map Prod.snd).dropLast
    t.stack.reverse.tail := by
  obtain ⟨frame, callers, log, e, stack, waiting, lastOf, -⟩ := linked.exists_waiting
  rw [stack, lastOf, List.map_append]
  show List.Forall₂ Entry.Calls (log.map Prod.snd ++ [e]).dropLast _
  rw [List.dropLast_concat]
  exact waiting.calls

theorem indices_ascending :
    ((t.log.lastOf.map Prod.snd).map Entry.index).Pairwise (· < ·) := by
  obtain ⟨frame, callers, log, e, -, waiting, lastOf, later⟩ := linked.exists_waiting
  rw [lastOf, List.map_map, List.pairwise_map, List.pairwise_append]
  refine ⟨waiting.indices_ascending, List.pairwise_singleton _ _, fun older mem newest here => ?_⟩
  rw [List.mem_singleton.mp here]
  exact later older mem

theorem trace_eq : t.trace = List.zipWith (fun frame e => ⟨frame.name, e.location, some e⟩)
    t.stack.reverse (t.log.lastOf.map Prod.snd) := by
  refine map_ofFrame linked.keys_eq fun step mem => OrderedMap.find?_of_mem ?_ mem
  obtain ⟨frame, callers, log, e, stack, waiting, lastOf, -⟩ := linked.exists_waiting
  rw [lastOf, OrderedMap.keys, List.map_append, List.nodup_append]
  refine ⟨waiting.ascending.imp Nat.ne_of_lt, List.nodup_singleton _, fun id mem top here => ?_⟩
  rw [List.mem_singleton.mp here]
  exact Nat.ne_of_lt (waiting.id_lt id mem)

end Linked

/-- **The traceback is the chain of pending calls.** Behind the first run of a session, if it
fails, the log keeps a step for the run and for each call that was going on, and for nothing else.
The step of each frame but the last is the call of the next frame, and later steps are deeper in
the chain; the traceback shows every frame at its step. -/
theorem runSource_chain {verbose : Bool} {budget : Budget} {source : Source} {fault : Fault}
    {t : Session} (ran : (initial verbose).runSource budget source = (.failed fault, t)) :
    ∃ program, Program.ofSource source = .ok program ∧
      let frames := ⟨topLevel, 0, none⟩ :: goingInRun budget program (initial verbose)
      let steps := t.log.lastOf.map Prod.snd
      t.stack.reverse = frames ∧ t.log.lastOf.keys = frames.map Frame.id ∧
        List.Forall₂ Entry.Calls steps.dropLast frames.tail ∧
        (steps.map Entry.index).Pairwise (· < ·) ∧
        t.trace = List.zipWith (fun frame e => ⟨frame.name, e.location, some e⟩) frames steps := by
  obtain ⟨_, ended, -⟩ | ⟨program, read, ⟨ended, -⟩ | ⟨_, -, failed⟩ | ⟨ended, -⟩⟩ :=
    runSource_cases ran
  · cases ended
  · cases ended
  · obtain ⟨-, stack⟩ := (idle_initial verbose).run_failed failed
    have stack : t.stack.reverse =
      ⟨topLevel, 0, none⟩ :: goingInRun budget program (initial verbose) := stack
    have linked := linked_of_run_failed failed
    refine ⟨program, read, ?_⟩
    rw [← stack]
    exact ⟨rfl, linked.keys_eq, linked.calls, linked.indices_ascending, linked.trace_eq⟩
  · cases ended

/-- A source that fails two calls deep, inside an array literal. Before each of the calls that are
going on then, and under each, other calls have been done. -/
def nested : Source :=
  ⟨"nested", "twice = func(n) \x7b return n + n; \x7d;\n" ++
    "last = func(a, b) \x7b return twice(a) + [missing]; \x7d;\n" ++
    "first = func(n) \x7b return [twice(n), last(twice(n), twice(twice(n)))]; \x7d;\n" ++
    "x = [twice(1), first(twice(2))];"⟩

theorem runSource_chain_nested :
    ∃ fault t, (initial true).runSource ⟨30, 10⟩ nested = (.failed fault, t) ∧
      t.stack.reverse.map Frame.name = [topLevel, "first", "last"] ∧
      ∃ program, Program.ofSource nested = .ok program ∧
        let frames := ⟨topLevel, 0, none⟩ :: goingInRun ⟨30, 10⟩ program (initial true)
        let steps := t.log.lastOf.map Prod.snd
        t.stack.reverse = frames ∧ List.Forall₂ Entry.Calls steps.dropLast frames.tail := by
  have names : (failure? ((initial true).runSource ⟨30, 10⟩ nested)).map
      (fun failed => failed.2.stack.reverse.map Frame.name) =
        some [topLevel, "first", "last"] := by decide +kernel
  obtain ⟨⟨fault, t⟩, failed, names⟩ := Option.map_eq_some_iff.mp names
  have ran := of_failure? failed
  obtain ⟨program, read, stack, -, calls, -⟩ := runSource_chain ran
  exact ⟨fault, t, ran, names, program, read, stack, calls⟩

end Session

end Mini
