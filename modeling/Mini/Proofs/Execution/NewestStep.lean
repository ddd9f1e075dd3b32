import Mini.Proofs.Execution.PendingCalls

/-!
# The newest step and the frame on top

What is reported of a failure names the newest step of all; the traceback shows each frame at its
own newest step. For the frame on top these are the same step as long as no call has returned to
it since. When a call returns its frame is forgotten, but the newest step stays one that was made
under it, or under a call that it made. So the two steps differ exactly if the newest one was made
under a frame that is gone, and then the frame on top is shown at the call of that frame.
-/

namespace Mini.Session

open Exec

variable {α β : Type}

/-! ## Steps of calls that have returned -/

/-- The frame of this number, and all that came later, are gone: what the stack and the log know
is older. -/
structure Gone (s : Session) (id : Nat) : Prop where
  logged : ∀ known ∈ s.log.lastOf.keys, known < id
  stacked : ∀ frame ∈ s.stack, frame.id < id

/-- The step `last` is later than `e`, and was made under a frame that is gone: that of the call
that `e` is, or one that came behind it. -/
structure Overtaken (s : Session) (e last : Entry) : Prop where
  later : e.index < last.index
  call : ∃ callee id, e.Calls callee ∧ s.Gone callee.id ∧ callee.id ≤ id ∧ id < s.frames ∧
    last.frame = some id

/-- The newest step `e` of the frame on top and the newest step `last` of all. -/
structure Dated (s : Session) (frame : Frame) (e last : Entry) : Prop where
  numbered : Numbered s
  top : s.stack.head? = some frame
  own : s.log.lastOf.find? frame.id = some e
  under : e.frame = some frame.id
  newest : s.log.last = some last
  next : last.index + 1 = s.log.next
  relation : last = e ∨ s.Overtaken e last

/-- There is a frame on top, and frames have their numbers. -/
structure Standing (s : Session) : Prop where
  numbered : Numbered s
  top : ∃ frame, s.stack.head? = some frame

/-- Behind an execution a step has been logged and the newest ones are known, or the books are
what they were. -/
def Moved (s t : Session) : Prop :=
  (s.log.next < t.log.next ∧ ∃ frame e last, Dated t frame e last) ∨ t.books = s.books

section Books

variable {s t u : Session}

theorem Numbered.of_books (h : Numbered s) (same : t.books = s.books) : Numbered t := by
  obtain ⟨stack, frames, log⟩ := Session.of_books same
  exact h.resumes ⟨stack, Nat.le_of_eq frames.symm, .inl (by rw [log])⟩

theorem Standing.of_books (h : Standing s) (same : t.books = s.books) : Standing t := by
  refine ⟨h.numbered.of_books same, ?_⟩
  rw [(Session.of_books same).1]
  exact h.top

theorem Dated.of_books {frame : Frame} {e last : Entry} (h : Dated s frame e last)
    (same : t.books = s.books) : Dated t frame e last := by
  obtain ⟨stack, frames, log⟩ := Session.of_books same
  refine ⟨h.numbered.of_books same, stack ▸ h.top, log ▸ h.own, h.under, log ▸ h.newest,
    log ▸ h.next, h.relation.imp_right fun overtaken => ?_⟩
  obtain ⟨callee, id, calls, gone, le, given, under⟩ := overtaken.call
  exact ⟨overtaken.later, callee, id, calls, ⟨log ▸ gone.logged, stack ▸ gone.stacked⟩, le,
    frames ▸ given, under⟩

theorem Dated.standing {frame : Frame} {e last : Entry} (h : Dated s frame e last) : Standing s :=
  ⟨h.numbered, frame, h.top⟩

theorem Moved.standing (h : Standing s) (moved : Moved s t) : Standing t := by
  rcases moved with ⟨-, frame, e, last, dated⟩ | same
  · exact dated.standing
  · exact h.of_books same

theorem Moved.trans (first : Moved s t) (later : Moved t u) : Moved s u := by
  rcases later with ⟨next, dated⟩ | same
  · have before : s.log.next ≤ t.log.next := by
      rcases first with ⟨next, -⟩ | same
      · exact Nat.le_of_lt next
      · rw [(Session.of_books same).2.2]
    exact .inl ⟨Nat.lt_of_le_of_lt before next, dated⟩
  · rcases first with ⟨next, frame, e, last, dated⟩ | same'
    · refine .inl ⟨?_, frame, e, last, dated.of_books same⟩
      rw [(Session.of_books same).2.2]
      exact next
    · exact .inr (same.trans same')

/-- A step that has just been made is the newest one in both ways. -/
theorem dated_record {frame : Frame} (numbered : Numbered s)
    (top : s.stack.head? = some frame) {rule : String} {location : Option Location}
    {fields : Details} {e : Entry} (made : s.step rule location fields = .ok e) :
    Dated (s.record e) frame e e := by
  have under : e.frame = some frame.id := by rw [frame_of_step made, top]; rfl
  have index : e.index = s.log.next := by
    obtain ⟨env, rfl⟩ := step_ok made
    rfl
  have lastOf : (s.record e).log.lastOf = s.log.lastOf.put frame.id e := by
    show (s.log.add e).lastOf = _
    rw [StepLog.add, under]
  refine ⟨numbered.resumes (.record made), top, ?_, under, rfl, ?_, .inl rfl⟩
  · rw [lastOf, OrderedMap.find?_put_self]
  · rw [index]
    rfl

/-- The newest step was made under the frame on top or a later one. -/
theorem Dated.frame_le {frame : Frame} {e last : Entry} (h : Dated s frame e last) :
    ∃ id, last.frame = some id ∧ frame.id ≤ id ∧ id < s.frames := by
  have stacked : frame ∈ s.stack := List.mem_of_mem_head? h.top
  rcases h.relation with rfl | overtaken
  · exact ⟨frame.id, h.under, Nat.le_refl _, h.numbered.stacked frame stacked⟩
  · obtain ⟨callee, id, -, gone, le, given, under⟩ := overtaken.call
    have behind := gone.stacked frame stacked
    exact ⟨id, under, by omega, given⟩

end Books

/-! ## Executions -/

/-- However an execution ends that begins with a frame on top, the newest steps are known or the
books are what they were. -/
structure KeepsNewest ⦃α : Type⦄ (x : Exec α) : Prop where
  done : ∀ ⦃s a t⦄, Standing s → x s = .done a t → Moved s t
  failed : ∀ ⦃s fault t⦄, Standing s → x s = .failed fault t → Moved s t

namespace KeepsNewest

theorem of_keeps {x : Exec α} (h : Keeps books x) : KeepsNewest x :=
  ⟨fun _ _ _ _ done => .inr (h.done done), fun _ _ _ _ failed => .inr (h.failed failed)⟩

theorem andThen ⦃α β : Type⦄ {x : Exec α} {f : α → Exec β} (first : KeepsNewest x)
    (later : ∀ a, KeepsNewest (f a)) : KeepsNewest (x >>= f) := by
  refine ⟨fun s b t h done => ?_, fun s fault t h failed => ?_⟩
  · obtain ⟨a, u, done, done'⟩ := bind_done done
    have moved := first.done h done
    exact moved.trans ((later a).done (moved.standing h) done')
  · obtain failed | ⟨a, u, done, failed⟩ := bind_failed failed
    · exact first.failed h failed
    · have moved := first.done h done
      exact moved.trans ((later a).failed (moved.standing h) failed)

theorem lookUp (look : Session → Except Limit α) : KeepsNewest (get look >>= orLimit) :=
  of_keeps ((Keeps.lookUp look).map books)

theorem note (rule : String) (location : Location) (fields : Details) :
    KeepsNewest (note rule location fields) := by
  refine ⟨fun s a t h done => ?_, fun s fault t h failed => ?_⟩
  · rw [note_apply] at done
    split at done
    · rename_i e made
      cases done
      obtain ⟨frame, top⟩ := h.top
      exact .inl ⟨Nat.lt_succ_self _, frame, e, e, dated_record h.numbered top made⟩
    · cases done
  · rw [note_apply] at failed
    split at failed
    · cases failed
    · cases failed
      exact .inr rfl

theorem noteCall (name : String) (location : Location) (args : List Value) :
    KeepsNewest (noteCall name location args) :=
  (lookUp _).andThen fun fields => note "CALL" location fields

theorem inScope ⦃α : Type⦄ {x : Exec α} (h : KeepsNewest x) : KeepsNewest (inScope x) := by
  have entered (s : Session) : Moved s { s with scopes := s.scopes.enter } := .inr rfl
  have left (t : Session) : Moved t { t with scopes := t.scopes.leave } := .inr rfl
  refine ⟨fun s a t standing done => ?_, fun s fault t standing failed => ?_⟩
  · obtain ⟨u, here, rfl⟩ := inScope_done done
    exact (entered s).trans ((h.done ((entered s).standing standing) here).trans (left u))
  · obtain ⟨u, here, rfl⟩ := inScope_failed failed
    exact (entered s).trans ((h.failed ((entered s).standing standing) here).trans (left u))

end KeepsNewest

/-! ### Calls -/

section Call

variable {name : String} {location : Location} {args : List Value} {s t : Session}
  {fields : Details} {e : Entry} {params : List Identifier} {fuel calls : Nat}
  {statements : List Stmt}

theorem standing_activated (name : String) (location : Location) (numbered : Numbered s) :
    Standing (activated name location s) := by
  have numbered := numbered.push name (some location)
  exact ⟨⟨numbered.logged, numbered.stacked⟩, _, rfl⟩

theorem keepsNewest_callBody (args : List Value) (params : List Identifier)
    (h : KeepsNewest (forEach (execute fuel calls) statements)) :
    KeepsNewest (declare params args >>= fun _ => forEach (execute fuel calls) statements) :=
  (KeepsNewest.of_keeps ((Keeps.declare params args).map books)).andThen fun _ => h

/-- Where a call has been logged and has returned, its step is the newest one of the frame on top.
The newest one of all is the same, or was made under the frame of the call or a later one. -/
theorem dated_pop {frame : Frame} {u : Session} (logged : Dated s frame e e)
    (calls : e.Calls ⟨name, s.frames, some location⟩)
    (resumes : Resumes (s.push name (some location)) u)
    (moved : Moved (activated name location s) u) :
    s.log.next ≤ u.log.next ∧ ∃ last, Dated u.pop frame e last := by
  obtain ⟨resumed, lastOf⟩ := logged.numbered.pop resumes
  have numbered := logged.numbered.resumes resumed
  have top : u.pop.stack.head? = some frame := by rw [resumed.stack, logged.top]
  have own : u.pop.log.lastOf.find? frame.id = some e := by rw [lastOf, logged.own]
  have newest : u.pop.log.last = u.log.last := by
    rw [Session.pop]
    split <;> rfl
  rcases moved with ⟨next, callee, e', last, dated⟩ | same
  · have next : s.log.next < u.log.next := next
    have first : callee.id = s.frames := by
      have onTop := dated.top
      rw [resumes.stack] at onTop
      cases onTop
      rfl
    obtain ⟨id, under, le, given⟩ := dated.frame_le
    have gone : u.pop.Gone s.frames :=
      ⟨lastOf ▸ logged.numbered.logged, resumed.stack ▸ logged.numbered.stacked⟩
    have later : e.index < last.index := by
      have here := logged.next
      have there := dated.next
      omega
    refine ⟨Nat.le_of_lt next, last, numbered, top, own, logged.under, newest ▸ dated.newest,
      ?_, .inr ⟨later, _, id, calls, gone, first ▸ le, ?_, under⟩⟩
    · rw [pop_next]
      exact dated.next
    · rw [pop_frames]
      exact given
  · have log : u.log = s.log := (of_books same).2.2
    refine ⟨Nat.le_of_eq (congrArg _ log.symm), e, numbered, top, own, logged.under, ?_, ?_,
      .inl rfl⟩
    · rw [newest, log, logged.newest]
    · rw [pop_next, log, logged.next]

section Activate

variable (standing : Standing s) (described : callFields name args s = .ok fields)
  (made : s.step "CALL" (some location) fields = .ok e)
  (h : KeepsNewest (forEach (execute fuel calls) statements))
include standing described made h

theorem moved_of_activate_done {v : Value} (done : activate name location
    (declare params args >>= fun _ => forEach (execute fuel calls) statements) (s.record e) =
      .done v t) : Moved s t := by
  obtain ⟨frame, top⟩ := standing.top
  have logged := dated_record standing.numbered top made
  obtain ⟨u, ended, rfl⟩ := activate_done done
  have begun := standing_activated name location logged.numbered
  have resumes := (keepsNumbers_callBody params args fuel calls statements).done begun.numbered ended
  have resumes : Resumes ((s.record e).push name (some location)) (unwound u) :=
    ⟨resumes.stack, resumes.frames, resumes.lastOf⟩
  have moved := (keepsNewest_callBody args params h).done begun ended
  have unwinding : Moved u (unwound u) := .inr rfl
  obtain ⟨next, last, dated⟩ := dated_pop logged (calls_of_noteCall described made _) resumes
    (moved.trans unwinding)
  refine .inl ⟨?_, frame, e, last, dated⟩
  rw [pop_next]
  exact next

/-- A call that fails in its body has made a step under its frame. -/
theorem moved_of_activate_failed {fault : Fault} (failed : activate name location
    (declare params args >>= fun _ => forEach (execute fuel calls) statements) (s.record e) =
      .failed fault t) : Moved s t := by
  obtain ⟨frame, top⟩ := standing.top
  have logged := dated_record standing.numbered top made
  obtain ⟨u, ended, rfl⟩ := activate_failed failed
  have begun := standing_activated name location logged.numbered
  have moved := (keepsNewest_callBody args params h).failed begun ended
  have unwinding : Moved u (unwound u) := .inr rfl
  have recorded : s.log.next < (s.record e).log.next := Nat.lt_succ_self _
  rcases moved.trans unwinding with ⟨next, dated⟩ | same
  · exact .inl ⟨Nat.lt_trans recorded next, dated⟩
  · have next := next_lt_of_callBody_failed described ended
    have log : u.log = _ := (of_books same).2.2
    rw [log] at next
    exact absurd next (Nat.lt_irrefl _)

end Activate

end Call

theorem KeepsNewest.call (name : String) (location : Location) (params : List Identifier)
    (args : List Value) {fuel calls : Nat} {statements : List Stmt}
    (h : KeepsNewest (forEach (execute fuel calls) statements)) :
    KeepsNewest (Session.noteCall name location args >>= fun _ => activate name location
      (declare params args >>= fun _ => forEach (execute fuel calls) statements)) := by
  refine ⟨fun s v t standing done => ?_, fun s fault t standing failed => ?_⟩
  · obtain ⟨_, _, noted, done⟩ := bind_done done
    obtain ⟨fields, e, described, made, rfl⟩ := noteCall_done noted
    exact moved_of_activate_done standing described made h done
  · obtain failed | ⟨_, _, noted, failed⟩ := bind_failed failed
    · exact (KeepsNewest.noteCall name location args).failed standing failed
    · obtain ⟨fields, e, described, made, rfl⟩ := noteCall_done noted
      exact moved_of_activate_failed standing described made h failed

theorem closed_keepsNewest : Closed KeepsNewest where
  value _ := .of_keeps fun _ => rfl
  fail _ _ := .of_keeps fun _ => rfl
  exhausted := .of_keeps fun _ => trivial
  andThen first later := first.andThen later
  call name location params args _ _ _ h := .call name location params args h
  note := KeepsNewest.note
  noteCall := KeepsNewest.noteCall
  name id := .of_keeps ((Keeps.name id).map books)
  function _ _ _ := .of_keeps fun _ => rfl
  newArray _ := .of_keeps fun _ => rfl
  fetch _ _ := .lookUp _
  keep _ _ _ := .lookUp _
  display _ := .lookUp _
  emit _ := .of_keeps fun _ => rfl
  inScope h := h.inScope
  bind name v := .of_keeps ((Keeps.bindName name v).map books)
  store ref key v := .of_keeps ((Keeps.store ref key v).map books)
  setPending _ := .of_keeps fun _ => rfl

/-! ## Runs that fail -/

/-- A run that fails has logged a step, and what is blamed for a limit is the place of the newest
one. -/
theorem dated_of_run_failed {budget : Budget} {program : Program} {s t : Session} {fault : Fault}
    (idle : Idle s) (failed : s.run budget program = .failed fault t) :
    (∃ frame e last, Dated t frame e last) ∧
      ∀ limit, fault.cause = .limit limit → fault.location = t.log.last.bind Entry.location := by
  rw [run_eq] at failed
  split at failed
  · cases failed
  · rename_i raised _ here
    cases failed
    have standing : Standing s.begun := ⟨idle.begun, _, rfl⟩
    constructor
    · rcases (closed_keepsNewest.programBody budget program).failed standing here with
        ⟨-, dated⟩ | same
      · exact dated
      · have next := next_lt_of_programBody_failed here
        rw [(of_books same).2.2] at next
        exact absurd next (Nat.lt_irrefl _)
    · intro limit cause
      unfold blame at cause ⊢
      split
      · rfl
      · rename_i other
        split at cause
        · rename_i limit' isLimit
          exact absurd isLimit (other limit')
        · exact absurd cause (other limit)
  · cases failed

/-- The last frame that a traceback shows is the one on top, at its newest step. -/
theorem Dated.trace_getLast {t : Session} {frame : Frame} {e last : Entry}
    (h : Dated t frame e last) : t.trace.getLast? = some ⟨frame.name, e.location, some e⟩ := by
  rw [trace, List.getLast?_map, List.getLast?_reverse, h.top, Option.map_some, TraceFrame.ofFrame,
    h.own]

/-- The newest step is that of the frame on top exactly if it was made under that frame. -/
theorem Dated.index_eq_iff {t : Session} {frame : Frame} {e last : Entry}
    (h : Dated t frame e last) : last.index = e.index ↔ last.frame = some frame.id := by
  have stacked : frame ∈ t.stack := List.mem_of_mem_head? h.top
  rcases h.relation with rfl | ⟨later, callee, id, -, gone, le, -, under⟩
  · exact ⟨fun _ => h.under, fun _ => rfl⟩
  · have behind := gone.stacked frame stacked
    rw [under, Option.some.injEq]
    constructor
    · intro same
      omega
    · intro same
      omega

/-- **The step that is reported of a failure.** In any session, a run that fails is reported with
the newest step of all, and a limit is blamed on the place of that step. The traceback ends with
the frame on top at its own newest step. The two are the same step exactly if the newest one was
made under the frame on top; otherwise that frame is shown at a call that has returned, and the
newest step was made later, under the frame of that call or one behind it, of which neither the
stack nor the log knows any more. -/
theorem runSource_reported_step {budget : Budget} {source : Source} {fault : Fault}
    {s t : Session} (reachable : Reachable s)
    (ran : s.runSource budget source = (.failed fault, t)) :
    ∃ frame e last, t.stack.head? = some frame ∧ t.log.lastOf.find? frame.id = some e ∧
      t.trace.getLast? = some ⟨frame.name, e.location, some e⟩ ∧
      (t.report fault).step = some (last.index : Int) ∧
      (∀ limit, fault.cause = .limit limit → fault.location = last.location) ∧
      ((t.report fault).step = some (e.index : Int) ↔ last.frame = some frame.id) ∧
      (last = e ∨ t.Overtaken e last) := by
  obtain ⟨_, ended, -⟩ | ⟨program, -, ⟨ended, -⟩ | ⟨_, ended, failed⟩ | ⟨ended, -⟩⟩ :=
    runSource_cases ran
  · cases ended
  · cases ended
  · cases ended
    obtain ⟨⟨frame, e, last, dated⟩, blamed⟩ := dated_of_run_failed reachable.idle failed
    have step : (t.report fault).step = some (last.index : Int) := by
      rw [report, dated.newest]
      rfl
    rw [dated.newest] at blamed
    refine ⟨frame, e, last, dated.top, dated.own, dated.trace_getLast, step, blamed, ?_,
      dated.relation⟩
    rw [step, Option.some.injEq, Int.natCast_inj]
    exact dated.index_eq_iff
  · cases ended

/-- A source that fails while it prints, behind a call that is done. -/
def behindCall : Source :=
  ⟨"behind", "f = func() \x7b x = 1; \x7d;\na = [0];\na[0] = a;\nprint([f(), a]);"⟩

theorem runSource_reported_step_behindCall :
    Reachable broken ∧ ∃ fault t, broken.runSource ⟨30, 10⟩ behindCall = (.failed fault, t) ∧
      fault.cause = .limit .nesting ∧
      ∃ frame e last, t.stack.head? = some frame ∧ t.log.lastOf.find? frame.id = some e ∧
        t.trace.getLast? = some ⟨frame.name, e.location, some e⟩ ∧
        (t.report fault).step = some (last.index : Int) ∧
        (∀ limit, fault.cause = .limit limit → fault.location = last.location) ∧
        ((t.report fault).step = some (e.index : Int) ↔ last.frame = some frame.id) ∧
        (last = e ∨ t.Overtaken e last) := by
  have reachable : Reachable broken := .runSource _ _ (.initial false)
  refine ⟨reachable, ?_⟩
  have cause : (failure? (broken.runSource ⟨30, 10⟩ behindCall)).map (·.1.cause) =
      some (.limit .nesting) := by decide +kernel
  obtain ⟨⟨fault, t⟩, failed, cause⟩ := Option.map_eq_some_iff.mp cause
  have ran := of_failure? failed
  exact ⟨fault, t, ran, cause, runSource_reported_step reachable ran⟩

/-- A source that fails in an addition, behind the call that is its left side. -/
def addedCall : Source :=
  ⟨"added", "f = func() \x7b x = 1; \x7d;\ny = f() + 1;"⟩

/-- **The step that is reported need not be one of the frame that failed.** Only the top level is
on the stack, and its newest step is the call; the step in the body of the call is reported. -/
theorem misreported_addedCall :
    ∃ fault t frame e, (initial false).runSource ⟨30, 10⟩ addedCall = (.failed fault, t) ∧
      t.stack = [frame] ∧ t.log.lastOf.find? frame.id = some e ∧
      (t.report fault).step ≠ some (e.index : Int) := by
  have steps : (failure? ((initial false).runSource ⟨30, 10⟩ addedCall)).map (fun failed =>
      (failed.2.stack.map Frame.id, (failed.2.log.lastOf.find? 0).map Entry.index,
        (failed.2.report failed.1).step)) = some ([0], some 3, some 4) := by decide +kernel
  obtain ⟨⟨fault, t⟩, failed, steps⟩ := Option.map_eq_some_iff.mp steps
  obtain ⟨stack, own, step⟩ : t.stack.map Frame.id = [0] ∧
      (t.log.lastOf.find? 0).map Entry.index = some 3 ∧ (t.report fault).step = some 4 := by
    simpa using steps
  obtain ⟨frame, single, id⟩ := List.map_eq_singleton_iff.mp stack
  obtain ⟨e, found, index⟩ := Option.map_eq_some_iff.mp own
  refine ⟨fault, t, frame, e, of_failure? failed, single, id ▸ found, ?_⟩
  rw [step, index]
  decide

end Mini.Session
