import Mini.Proofs.Execution.Closed
import Mini.Proofs.Execution.Unwinding
import Mini.Proofs.Scopes.Shape

/-!
# What a run leaves as it was

Scopes and frames are tidied up in two ways. A scope is closed on every way out, so every
execution leaves the shape of the scopes as it was, whatever that was and however it ends. A
frame is taken off the stack, and out of the log, only when its call is done. That this gives
back the log from before needs that the number of a new frame is in the log nowhere: frames are
numbered upwards, and nothing in a session has a number that has not been given out.
-/

namespace Mini.Session

open Exec

variable {α β : Type}

/-! ## The shape of the scopes -/

/-- An execution leaves the shape of the scopes as it was, however it ends. -/
def KeepsShape ⦃α : Type⦄ (x : Exec α) : Prop :=
  Keeps (·.scopes.shape) x

theorem keepsShape_declare : ∀ (params : List Identifier) (args : List Value),
    KeepsShape (declare params args)
  | [], _, s => rfl
  | _ :: _, [], s => rfl
  | param :: params, arg :: args, s => by
      rw [declare_cons_apply]
      cases declared : s.scopes.declare param.name arg with
      | ok scopes =>
          have later := keepsShape_declare params args { s with scopes := scopes }
          dsimp only at later ⊢
          rwa [Scopes.shape_declare declared] at later
      | error cause => rfl

/-- The scope around an execution is closed on every way out. -/
theorem keepsShape_inScope {x : Exec α} (h : KeepsShape x) : KeepsShape (inScope x) := by
  refine Keeps.of_ends (fun done => ?_) (fun failed => ?_)
  · obtain ⟨u, here, rfl⟩ := inScope_done done
    exact Scopes.shape_leave (h.done here)
  · obtain ⟨u, here, rfl⟩ := inScope_failed failed
    exact Scopes.shape_leave (h.failed here)

theorem keepsShape_activate (name : String) (location : Location) {body : Exec Unit}
    (h : KeepsShape body) : KeepsShape (activate name location body) := by
  refine Keeps.of_ends (fun done => ?_) (fun failed => ?_)
  · obtain ⟨u, here, rfl⟩ := activate_done done
    rw [pop_scopes]
    exact Scopes.shape_leave (h.done here)
  · obtain ⟨u, here, rfl⟩ := activate_failed failed
    exact Scopes.shape_leave (h.failed here)

theorem keepsShape_noteCall (name : String) (location : Location) (args : List Value) :
    KeepsShape (noteCall name location args) :=
  (keeps_noteCall name location args).map (·.scopes.shape)

theorem closed_keepsShape : Closed KeepsShape where
  value _ _ := rfl
  fail _ _ _ := rfl
  exhausted _ := trivial
  andThen := Keeps.andThen
  note rule location fields := (Keeps.note rule location fields).map (·.scopes.shape)
  noteCall := keepsShape_noteCall
  name id := (Keeps.name id).map (·.scopes.shape)
  function _ _ _ _ := rfl
  newArray _ _ := rfl
  fetch _ _ := (Keeps.lookUp _).map (·.scopes.shape)
  keep _ _ _ := (Keeps.lookUp _).map (·.scopes.shape)
  display _ := (Keeps.lookUp _).map (·.scopes.shape)
  emit _ _ := rfl
  call name location params args _ _ _ h :=
    Keeps.andThen (keepsShape_noteCall name location args) fun _ =>
      keepsShape_activate name location ((keepsShape_declare params args).andThen fun _ => h)
  inScope := keepsShape_inScope
  bind name v s := by
    rw [bindName_apply]
    cases bound : s.scopes.bind name v with
    | ok scopes => exact Scopes.shape_bind bound
    | error cause => rfl
  store ref key v := (Keeps.store ref key v).map (·.scopes.shape)
  setPending _ _ := rfl

/-! ## Numbers of frames -/

/-- Frames that the log and the stack know have numbers that have been given out. -/
structure Numbered (s : Session) : Prop where
  logged : ∀ frame ∈ s.log.lastOf.keys, frame < s.frames
  stacked : ∀ frame ∈ s.stack, frame.id < s.frames

/-- Behind an execution that is done the stack is what it was, and nothing in the log has changed
but the newest step of the innermost frame. -/
structure Resumes (s t : Session) : Prop where
  stack : t.stack = s.stack
  frames : s.frames ≤ t.frames
  lastOf : t.log.lastOf = s.log.lastOf ∨
    ∃ frame e, s.stack.head? = some frame ∧ t.log.lastOf = s.log.lastOf.put frame.id e

/-- What numbers of frames are about. -/
def numbering (s : Session) : List Frame × Nat × OrderedMap Nat Entry :=
  (s.stack, s.frames, s.log.lastOf)

theorem Resumes.of_numbering {s t : Session} (same : t.numbering = s.numbering) :
    Resumes s t := by
  obtain ⟨stack, frames, lastOf⟩ : t.stack = s.stack ∧ t.frames = s.frames ∧
      t.log.lastOf = s.log.lastOf := by
    simpa [numbering] using same
  exact ⟨stack, Nat.le_of_eq frames.symm, .inl lastOf⟩

theorem Resumes.trans {s t u : Session} (h : Resumes s t) (h' : Resumes t u) : Resumes s u := by
  refine ⟨h'.stack.trans h.stack, Nat.le_trans h.frames h'.frames, ?_⟩
  rcases h'.lastOf with same | ⟨frame, e, top, put⟩
  · rw [same]
    exact h.lastOf
  · rw [h.stack] at top
    refine .inr ⟨frame, e, top, ?_⟩
    rcases h.lastOf with same | ⟨frame', e', top', put'⟩
    · rw [put, same]
    · rw [top] at top'
      cases top'
      rw [put, put', OrderedMap.put_put]

theorem Numbered.resumes {s t : Session} (h : Numbered s) (resumes : Resumes s t) :
    Numbered t := by
  refine ⟨fun frame mem => ?_, fun frame mem => ?_⟩
  · refine Nat.lt_of_lt_of_le ?_ resumes.frames
    rcases resumes.lastOf with same | ⟨top, e, head, put⟩
    · rw [same] at mem
      exact h.logged frame mem
    · rw [put] at mem
      rcases OrderedMap.mem_keys_put mem with old | rfl
      · exact h.logged frame old
      · exact h.stacked top (List.mem_of_mem_head? head)
  · rw [resumes.stack] at mem
    exact Nat.lt_of_lt_of_le (h.stacked frame mem) resumes.frames

/-- A new frame has a number that nothing else has. -/
theorem Numbered.new {s : Session} (h : Numbered s) : s.frames ∉ s.log.lastOf.keys :=
  fun mem => Nat.lt_irrefl _ (h.logged _ mem)

theorem Numbered.push {s : Session} (h : Numbered s) (name : String)
    (callLocation : Option Location) : Numbered (s.push name callLocation) := by
  refine ⟨fun frame mem => Nat.lt_succ_of_lt (h.logged frame mem), ?_⟩
  refine List.forall_mem_cons.mpr ⟨Nat.lt_succ_self _, fun frame mem => ?_⟩
  exact Nat.lt_succ_of_lt (h.stacked frame mem)

/-- A step is made under the innermost frame. -/
theorem frame_of_step {s : Session} {rule : String} {location : Option Location}
    {fields : Details} {e : Entry} (made : s.step rule location fields = .ok e) :
    e.frame = s.stack.head?.map Frame.id := by
  obtain ⟨env, rfl⟩ := step_ok made
  rfl

theorem Resumes.record {s : Session} {rule : String} {location : Option Location}
    {fields : Details} {e : Entry} (made : s.step rule location fields = .ok e) :
    Resumes s (s.record e) := by
  refine ⟨rfl, Nat.le_refl _, ?_⟩
  show (s.log.add e).lastOf = _ ∨ ∃ frame e', _ ∧ (s.log.add e).lastOf = _
  rw [StepLog.add, frame_of_step made]
  cases s.stack.head? with
  | none => exact .inl rfl
  | some frame => exact .inr ⟨frame, e, rfl, rfl⟩

/-- Taking a frame off the stack undoes putting it there, and what has been logged under it is
forgotten. -/
theorem Numbered.pop {s t : Session} (h : Numbered s) {name : String}
    {callLocation : Option Location} (resumes : Resumes (s.push name callLocation) t) :
    Resumes s t.pop ∧ t.pop.log.lastOf = s.log.lastOf := by
  have stack : t.stack = ⟨name, s.frames, callLocation⟩ :: s.stack := resumes.stack
  have frames : s.frames ≤ t.pop.frames := by
    rw [pop_frames]
    exact Nat.le_of_succ_le resumes.frames
  have lastOf : t.log.lastOf.erase s.frames = s.log.lastOf := by
    -- the log from before does not know the frame, so at most its newest step goes
    rcases resumes.lastOf with same | ⟨frame, e, top, put⟩
    · rw [same]
      exact OrderedMap.erase_of_not_mem h.new
    · cases top
      rw [put]
      exact OrderedMap.erase_put h.new e
  have forgotten : t.pop.log.lastOf = s.log.lastOf := by
    rw [Session.pop, stack]
    exact lastOf
  refine ⟨⟨?_, frames, .inl forgotten⟩, forgotten⟩
  rw [Session.pop, stack]

/-- From a session with numbered frames, an execution that is done resumes the session, and one
that fails leaves numbered frames. -/
structure KeepsNumbers ⦃α : Type⦄ (x : Exec α) : Prop where
  done : ∀ ⦃s a t⦄, Numbered s → x s = .done a t → Resumes s t
  failed : ∀ ⦃s fault t⦄, Numbered s → x s = .failed fault t → Numbered t

namespace KeepsNumbers

theorem of_keeps {x : Exec α} (h : Keeps numbering x) : KeepsNumbers x :=
  ⟨fun _ _ _ _ done => .of_numbering (h.done done),
    fun _ _ _ numbered failed => numbered.resumes (.of_numbering (h.failed failed))⟩

theorem andThen ⦃α β : Type⦄ {x : Exec α} {f : α → Exec β} (first : KeepsNumbers x)
    (later : ∀ a, KeepsNumbers (f a)) : KeepsNumbers (x >>= f) := by
  refine ⟨fun s b t numbered done => ?_, fun s fault t numbered failed => ?_⟩
  · obtain ⟨a, u, done, done'⟩ := bind_done done
    have resumes := first.done numbered done
    exact resumes.trans ((later a).done (numbered.resumes resumes) done')
  · obtain failed | ⟨a, u, done, failed⟩ := bind_failed failed
    · exact first.failed numbered failed
    · exact (later a).failed (numbered.resumes (first.done numbered done)) failed

theorem lookUp (look : Session → Except Limit α) : KeepsNumbers (get look >>= orLimit) :=
  of_keeps ((Keeps.lookUp look).map numbering)

theorem note (rule : String) (location : Location) (fields : Details) :
    KeepsNumbers (note rule location fields) := by
  refine ⟨fun s a t numbered done => ?_, fun s fault t numbered failed => ?_⟩
  · rw [note_apply] at done
    split at done
    · rename_i e made
      cases done
      exact .record made
    · cases done
  · rw [note_apply] at failed
    split at failed
    · cases failed
    · cases failed
      exact numbered

theorem noteCall (name : String) (location : Location) (args : List Value) :
    KeepsNumbers (noteCall name location args) :=
  (lookUp _).andThen fun fields => note "CALL" location fields

theorem inScope ⦃α : Type⦄ {x : Exec α} (h : KeepsNumbers x) : KeepsNumbers (inScope x) := by
  have inside : ∀ {s : Session}, Numbered s → Numbered { s with scopes := s.scopes.enter } :=
    fun numbered => ⟨numbered.logged, numbered.stacked⟩
  refine ⟨fun s a t numbered done => ?_, fun s fault t numbered failed => ?_⟩
  · obtain ⟨u, here, rfl⟩ := inScope_done done
    have resumes := h.done (inside numbered) here
    exact ⟨resumes.stack, resumes.frames, resumes.lastOf⟩
  · obtain ⟨u, here, rfl⟩ := inScope_failed failed
    have left := h.failed (inside numbered) here
    exact ⟨left.logged, left.stacked⟩

/-- A call takes its frame off the stack and out of the log when its body is done. -/
theorem activate (name : String) (location : Location) {body : Exec Unit}
    (h : KeepsNumbers body) : KeepsNumbers (activate name location body) := by
  have inside : ∀ {s}, Numbered s → Numbered (activated name location s) := fun numbered =>
    ⟨(numbered.push name (some location)).logged, (numbered.push name (some location)).stacked⟩
  refine ⟨fun s a t numbered done => ?_, fun s fault t numbered failed => ?_⟩
  -- the body resumes the session with the new frame on top, and taking it off resumes the old one
  · obtain ⟨u, here, rfl⟩ := activate_done done
    have resumes := h.done (inside numbered) here
    have resumes : Resumes (s.push name (some location)) (unwound u) :=
      ⟨resumes.stack, resumes.frames, resumes.lastOf⟩
    exact (numbered.pop resumes).1
  · obtain ⟨u, here, rfl⟩ := activate_failed failed
    have left := h.failed (inside numbered) here
    exact ⟨left.logged, left.stacked⟩

end KeepsNumbers

theorem closed_keepsNumbers : Closed KeepsNumbers where
  value _ := .of_keeps fun _ => rfl
  fail _ _ := .of_keeps fun _ => rfl
  exhausted := .of_keeps fun _ => trivial
  andThen first later := first.andThen later
  note := KeepsNumbers.note
  noteCall := KeepsNumbers.noteCall
  name id := .of_keeps ((Keeps.name id).map numbering)
  function _ _ _ := .of_keeps fun _ => rfl
  newArray _ := .of_keeps fun _ => rfl
  fetch _ _ := .lookUp _
  keep _ _ _ := .lookUp _
  display _ := .lookUp _
  emit _ := .of_keeps fun _ => rfl
  call name location params args _ _ _ h :=
    (KeepsNumbers.noteCall name location args).andThen fun _ => .activate name location
      ((KeepsNumbers.of_keeps ((Keeps.declare params args).map numbering)).andThen fun _ => h)
  inScope h := h.inScope
  bind name v := .of_keeps ((Keeps.bindName name v).map numbering)
  store ref key v := .of_keeps ((Keeps.store ref key v).map numbering)
  setPending _ := .of_keeps fun _ => rfl

theorem keepsNumbers_callBody (params : List Identifier) (args : List Value) (fuel calls : Nat)
    (statements : List Stmt) :
    KeepsNumbers (declare params args >>= fun _ => forEach (execute fuel calls) statements) :=
  (KeepsNumbers.of_keeps ((Keeps.declare params args).map numbering)).andThen fun _ =>
    closed_keepsNumbers.body fuel calls statements

/-! ## Sessions between runs -/

/-- The sessions that runs lead to. -/
inductive Reachable : Session → Prop
  | initial (verbose : Bool) : Reachable (.initial verbose)
  | runSource {s : Session} (budget : Budget) (source : Source) :
      Reachable s → Reachable (s.runSource budget source).2

/-- Between runs no scope is open, and the frames are numbered. -/
structure Idle (s : Session) : Prop where
  scopes : s.scopes = .empty
  numbered : Numbered s

theorem idle_initial (verbose : Bool) : Idle (initial verbose) :=
  ⟨rfl, fun _ mem => absurd mem List.not_mem_nil, fun _ mem => absurd mem List.not_mem_nil⟩

section Run

variable {budget : Budget} {program : Program} {s t : Session} (idle : Idle s)
include idle

theorem Idle.begun : Numbered s.begun :=
  ⟨(idle.numbered.push topLevel none).logged, (idle.numbered.push topLevel none).stacked⟩

/-- The body of a run closes the scopes that it opens. -/
theorem Idle.closes (closed : t.scopes.shape = s.begun.scopes.shape) : t.scopes = .empty := by
  have shape : t.scopes.shape = Scopes.empty.shape := closed.trans (congrArg _ idle.scopes)
  exact Scopes.eq_empty_of_shape shape

/-- A run that is done leaves no frame of its own. -/
theorem Idle.run_done (done : s.run budget program = .done () t) :
    Idle t ∧ t.stack = s.stack ∧ t.log.lastOf = s.log.lastOf := by
  rw [run_eq] at done
  split at done
  · rename_i _ u here
    cases done
    have resumes := (closed_keepsNumbers.programBody budget program).done idle.begun here
    have resumes : Resumes (s.push topLevel none) u :=
      ⟨resumes.stack, resumes.frames, resumes.lastOf⟩
    obtain ⟨resumes, lastOf⟩ := idle.numbered.pop resumes
    have scopes := idle.closes ((closed_keepsShape.programBody budget program).done here)
    have after : Idle u.pop := ⟨(pop_scopes u).trans scopes, idle.numbered.resumes resumes⟩
    exact ⟨after, resumes.stack, lastOf⟩
  · cases done
  · cases done

/-- A run that fails leaves its frame with those of the calls that were going on. -/
theorem Idle.run_failed {fault : Fault} (failed : s.run budget program = .failed fault t) :
    Idle t ∧ t.stack.reverse =
      s.stack.reverse ++ ⟨topLevel, s.frames, none⟩ :: goingInRun budget program s := by
  rw [run_eq] at failed
  split at failed
  · cases failed
  · rename_i fault' u here
    cases failed
    have numbered := (closed_keepsNumbers.programBody budget program).failed idle.begun here
    have scopes := idle.closes ((closed_keepsShape.programBody budget program).failed here)
    refine ⟨⟨scopes, numbered⟩, ?_⟩
    obtain ⟨inner, stack, going⟩ := (unwinds_programBody budget program s.frames).failed here
    -- the stack has the innermost frame first, the list of calls the outermost
    have stack : t.stack = inner ++ ⟨topLevel, s.frames, none⟩ :: s.stack := stack
    rw [goingInRun, going, stack, List.append_nil, List.reverse_append, List.reverse_cons,
      List.append_assoc]
    rfl
  · cases failed

end Run

/-- A source is rejected, or it is a program and ends as the run of that does. -/
theorem runSource_cases {s t : Session} {budget : Budget} {source : Source} {ending : Ending}
    (ran : s.runSource budget source = (ending, t)) :
    (∃ fault, ending = .rejected fault ∧ t = s) ∨
      ∃ program, Program.ofSource source = .ok program ∧
        (ending = .finished ∧ s.run budget program = .done () t ∨
          (∃ fault, ending = .failed fault ∧ s.run budget program = .failed fault t) ∨
          ending = .unfinished ∧ t = s) := by
  unfold runSource at ran
  split at ran
  · cases ran
    exact .inl ⟨_, rfl, rfl⟩
  · rename_i program read
    refine .inr ⟨program, read, ?_⟩
    split at ran
    · rename_i ended
      cases ran
      exact .inl ⟨rfl, ended⟩
    · rename_i fault _ ended
      cases ran
      exact .inr (.inl ⟨fault, rfl, ended⟩)
    · cases ran
      exact .inr (.inr ⟨rfl, rfl⟩)

theorem Reachable.idle {s : Session} (reachable : Reachable s) : Idle s := by
  induction reachable with
  | initial verbose => exact idle_initial verbose
  | @runSource s budget source _ idle =>
      generalize ran : s.runSource budget source = ended
      obtain ⟨ending, t⟩ := ended
      obtain ⟨fault, -, rfl⟩ | ⟨program, -, ⟨-, done⟩ | ⟨fault, -, failed⟩ | ⟨-, rfl⟩⟩ :=
        runSource_cases ran
      · exact idle
      · exact (idle.run_done done).1
      · exact (idle.run_failed failed).1
      · exact idle

/-- **Runs restore the session.** Whatever has been run before, no scope is open behind a run.
Behind one that is done the stack and the newest steps of its frames are what they were; behind
one that fails the stack has the run and the calls that were going on on top, and a source that
is rejected changes nothing. Every expression and every statement by itself leaves the shape of
the scopes as it was, whatever that was and however it ends. -/
theorem runSource_restores {s t : Session} {budget : Budget} {source : Source} {ending : Ending}
    (reachable : Reachable s) (ran : s.runSource budget source = (ending, t)) :
    (match ending with
      | .finished => t.scopes = .empty ∧ t.stack = s.stack ∧ t.log.lastOf = s.log.lastOf
      | .failed _ =>
          t.scopes = .empty ∧ ∃ program, Program.ofSource source = .ok program ∧
            t.stack.reverse = s.stack.reverse ++
              ⟨topLevel, s.frames, none⟩ :: goingInRun budget program s
      | .rejected _ => t.scopes = .empty ∧ t = s
      | .unfinished => True) ∧
    ∀ fuel calls, (∀ e, Keeps (·.scopes.shape) (evaluate fuel calls e)) ∧
      ∀ st, Keeps (·.scopes.shape) (execute fuel calls st) := by
  have idle := reachable.idle
  refine ⟨?_, fun fuel calls =>
    ⟨closed_keepsShape.evaluate fuel calls, closed_keepsShape.execute fuel calls⟩⟩
  obtain ⟨fault, rfl, rfl⟩ | ⟨program, read, ⟨rfl, done⟩ | ⟨fault, rfl, failed⟩ | ⟨rfl, -⟩⟩ :=
    runSource_cases ran
  · exact ⟨idle.scopes, rfl⟩
  · obtain ⟨after, stack, lastOf⟩ := idle.run_done done
    exact ⟨after.scopes, stack, lastOf⟩
  · obtain ⟨after, stack⟩ := idle.run_failed failed
    exact ⟨after.scopes, program, read, stack⟩
  · trivial

/-- A session in which a run has failed, two calls deep. -/
def broken : Session :=
  ((initial false).runSource ⟨30, 10⟩
    ⟨"broken", "f = func() \x7b y; \x7d; g = func(n) \x7b f(); \x7d; g(1);"⟩).2

/-- A source that fails while it evaluates the argument of a call, behind a call that is done. -/
def argument : Source :=
  ⟨"argument", "h = func(a) \x7b return a; \x7d; k = func() \x7b z; \x7d; x = [h(1), h(k())];"⟩

theorem runSource_restores_broken :
    Reachable broken ∧ broken.stack.map Frame.name = ["f", "g", "<top-level>"] ∧
    ∃ fault t, broken.runSource ⟨30, 10⟩ argument = (.failed fault, t) ∧
      t.stack.map Frame.name = ["k", "<top-level>", "f", "g", "<top-level>"] ∧
      t.scopes = .empty ∧ ∃ program, Program.ofSource argument = .ok program ∧
        t.stack.reverse = broken.stack.reverse ++
          ⟨topLevel, broken.frames, none⟩ :: goingInRun ⟨30, 10⟩ program broken := by
  have reachable : Reachable broken := .runSource _ _ (.initial false)
  refine ⟨reachable, by decide +kernel, ?_⟩
  have names : (failure? (broken.runSource ⟨30, 10⟩ argument)).map
      (fun failed => failed.2.stack.map Frame.name) =
        some ["k", "<top-level>", "f", "g", "<top-level>"] := by decide +kernel
  obtain ⟨⟨fault, t⟩, failed, names⟩ := Option.map_eq_some_iff.mp names
  have ran := of_failure? failed
  exact ⟨fault, t, ran, names, (runSource_restores reachable ran).1⟩

end Mini.Session
