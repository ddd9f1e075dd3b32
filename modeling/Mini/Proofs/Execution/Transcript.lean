import Mini.Proofs.Execution.PendingCalls

/-!
# The verbose log as a transcript

A step is logged and what it describes is done at two different times, and either may fail. Between
them nothing can: a statement is logged before anything else of it is done, a call when its
arguments have been evaluated and written out and only the frame is to be made, a print when its
text is ready. So the log and the history of a session tell the same, event by event, and so do
the output and the prints, the frames and the calls. The one exception is a call that is logged
where no more calls may nest: it has its step and gets no frame, and the run fails with it.
-/

namespace Mini

/-! ## What the steps say -/

/-- The place and the details that a verbose log has of a deed. Arguments are written out as they
display when the call is logged. -/
inductive Deed.Noted (h : Heap) : Deed → Location → Details → Prop
  | statement (st : Stmt) :
      Noted h (.statement st) st.location [("rule", .text st.kindName)]
  | call {args : List Value} {texts : List String} (name : String) (location : Location) :
      args.mapM h.display = .ok texts →
      Noted h (.call name location args) location
        [("rule", .text "CALL"), ("function", .text name), ("args", .list (texts.map .text))]
  | refused {args : List Value} {texts : List String} (name : String) (location : Location) :
      args.mapM h.display = .ok texts →
      Noted h (.refused name location args) location
        [("rule", .text "CALL"), ("function", .text name), ("args", .list (texts.map .text))]
  | print (location : Location) (text : String) :
      Noted h (.print location text) location [("rule", .text "PRINT"), ("output", .text text)]

/-- A step of a verbose log tells of an event: it was made by the activation that did it, at its
place, and has the bindings and the details as they were then. -/
structure Entry.Tells (e : Entry) (event : Event) : Prop where
  frame : e.frame = some event.frame
  noted : ∃ location details, event.deed.Noted event.session.heap location details ∧
    e.location = some location ∧ e.statement = some location.statement ∧
    e.details = some details
  env : ∃ env, event.session.scopes.snapshot event.session.heap = .ok env ∧ e.env = some env

/-- What a step says under a name. -/
def Entry.field (e : Entry) (name : String) : Option Text.Json :=
  e.details.bind (·.find? name)

/-- The step was logged under the given rule. -/
def Entry.isUnder (rule : String) (e : Entry) : Bool :=
  match e.field "rule" with
  | some (.text found) => found = rule
  | _ => false

/-- Deeds that have a step in the log. -/
def Deed.isLogged : Deed → Bool
  | .statement _ | .call .. | .refused .. | .print .. => true
  | .resume | .returns _ | .assign .. | .build .. | .writes _ => false

/-- Calls that get a frame. -/
def Deed.opens : Deed → Bool
  | .call .. => true
  | _ => false

def Deed.isRefused : Deed → Bool
  | .refused .. => true
  | _ => false

/-- The text that is printed. -/
def Deed.text : Deed → Option String
  | .print _ text => some text
  | _ => none

theorem Deed.Noted.isLogged {h : Heap} {deed : Deed} {location : Location} {details : Details}
    (noted : deed.Noted h location details) : deed.isLogged = true := by
  cases noted <;> rfl

theorem Deed.not_refused {deed : Deed} (quiet : deed.isLogged = false) :
    deed.isRefused = false := by
  cases deed <;> first | rfl | cases quiet

/-- The run has failed because calls nested too deep. -/
def Fault.isTooDeep (fault : Fault) : Bool :=
  fault.cause = .limit .calls

namespace Session

open Exec

variable {α β : Type}

/-- The run got past reading its source. -/
def Ending.began : Ending → Bool
  | .finished | .failed _ => true
  | .rejected _ | .unfinished => false

/-- The run has failed because calls nested too deep. -/
def Ending.isTooDeep : Ending → Bool
  | .failed fault => fault.isTooDeep
  | .finished | .rejected _ | .unfinished => false

/-! ## Between two sessions -/

/-- From one session to the next all that is logged, printed and given a number is what the events
in between call for. -/
structure Told (s : Session) (events : List Event) (t : Session) : Prop where
  verbose : t.log.verbose = true
  steps : ∃ new, t.log.entries.toList = s.log.entries.toList ++ new ∧
    t.log.next = s.log.next + new.length ∧
    new.map Entry.index = List.range' s.log.next new.length ∧
    List.Forall₂ Entry.Tells new (events.filter (·.deed.isLogged))
  output : t.output.toList = s.output.toList ++ events.filterMap (·.deed.text)
  frames : t.frames = s.frames + events.countP (·.deed.opens)

/-- What transcripts are about. -/
def transcribed (s : Session) : Bool × Array Entry × Nat × Array String × Nat :=
  (s.log.verbose, s.log.entries, s.log.next, s.output, s.frames)

namespace Told

variable {s t u : Session} {events later : List Event}

theorem trans (first : Told s events t) (second : Told t later u) :
    Told s (events ++ later) u := by
  obtain ⟨new, entries, next, indices, tells⟩ := first.steps
  obtain ⟨new', entries', next', indices', tells'⟩ := second.steps
  refine ⟨second.verbose, ⟨new ++ new', ?_, ?_, ?_, ?_⟩, ?_, ?_⟩
  · rw [entries', entries, List.append_assoc]
  · rw [next', next, List.length_append, Nat.add_assoc]
  · rw [List.map_append, indices, indices', next, List.length_append]
    exact List.range'_append_1
  · rw [List.filter_append]
    exact List.rel_append tells tells'
  · rw [second.output, first.output, List.filterMap_append, List.append_assoc]
  · rw [second.frames, first.frames, List.countP_append, Nat.add_assoc]

/-- Where nothing of this has changed, nothing is told. -/
theorem nothing (verbose : s.log.verbose = true) (same : t.transcribed = s.transcribed) :
    Told s [] t := by
  obtain ⟨verbose', entries, next, output, frames⟩ : t.log.verbose = s.log.verbose ∧
      t.log.entries = s.log.entries ∧ t.log.next = s.log.next ∧ t.output = s.output ∧
      t.frames = s.frames := by
    simpa [transcribed] using same
  refine ⟨verbose'.trans verbose, ⟨[], ?_, next, rfl, .nil⟩, ?_, frames⟩
  · rw [entries, List.append_nil]
  · rw [output]
    exact (List.append_nil _).symm

/-- What has no step is no matter of the log. -/
theorem quiet {event : Event} (told : Told s events t) (quiet : event.deed.isLogged = false) :
    Told s (event :: events) t := by
  obtain ⟨frame, deed, session⟩ := event
  cases deed with
  | resume | returns | assign | build | writes =>
      exact ⟨told.verbose, told.steps, told.output, told.frames⟩
  | statement | call | refused | print => cases quiet

/-- What is told ends where nothing of it changes any more, -/
theorem ends (told : Told s events t) (same : u.transcribed = t.transcribed) :
    Told s events u := by
  have both := told.trans (nothing told.verbose same)
  rwa [List.append_nil] at both

/-- and begins where nothing of it has changed yet. -/
theorem begins (told : Told t events u) (verbose : s.log.verbose = true)
    (same : t.transcribed = s.transcribed) : Told s events u :=
  (nothing verbose same).trans told

end Told

/-- The log is verbose, and the innermost frame is the given one. -/
structure Writing (frame : Nat) (s : Session) : Prop where
  verbose : s.log.verbose = true
  top : s.stack.head?.map Frame.id = some frame

theorem Writing.told {frame : Nat} {s t : Session} {events : List Event} (h : Writing frame s)
    (told : Told s events t) (stack : t.stack = s.stack) : Writing frame t :=
  ⟨told.verbose, stack ▸ h.top⟩

/-- A step that is logged tells of a deed, once the text is printed or the frame is made that the
deed is about. -/
theorem Writing.logged {frame : Nat} {s t : Session} (h : Writing frame s) {rule : String}
    {location : Location} {fields : Details} {e : Entry} {deed : Deed}
    (made : s.step rule (some location) fields = .ok e)
    (noted : deed.Noted s.heap location (OrderedMap.putAll [("rule", .text rule)] fields))
    (log : t.log = (s.record e).log) (output : t.output.toList = s.output.toList ++ deed.text.toList)
    (frames : t.frames = s.frames + if deed.opens then 1 else 0) :
    Told s [⟨frame, deed, s⟩] t := by
  rw [step_verbose h.verbose] at made
  split at made
  · rename_i env snapshot
    have same := Except.ok.inj made
    have tells : e.Tells ⟨frame, deed, s⟩ := by
      rw [← same]
      exact ⟨h.top, ⟨location, _, noted, rfl, rfl, rfl⟩, env, snapshot, rfl⟩
    have index : e.index = s.log.next := by rw [← same]; rfl
    refine ⟨?_, ⟨[e], ?_, ?_, ?_, ?_⟩, ?_, ?_⟩
    · rw [log]
      exact h.verbose
    · rw [log]
      show (s.log.add e).entries.toList = _
      rw [StepLog.add, if_pos h.verbose, Array.toList_push]
    · rw [log]
      rfl
    · exact congrArg (fun index => [index]) index
    · have kept : [(⟨frame, deed, s⟩ : Event)].filter (·.deed.isLogged) = [⟨frame, deed, s⟩] :=
        List.filter_cons_of_pos noted.isLogged
      rw [kept]
      exact .cons tells .nil
    · rw [output]
      cases deed <;> rfl
    · rw [frames]
      cases deed <;> rfl
  · cases made

/-! ## Executions -/

/-- An execution under a frame tells its history, however it ends. If it is done it leaves the
stack as it was and has been refused no call; if it fails it has been refused one at most, and
fails with that. -/
structure Tells (frame : Nat) ⦃α : Type⦄ (found : Session → List Event) (x : Exec α) : Prop where
  done : ∀ ⦃s a t⦄, Writing frame s → x s = .done a t →
    t.stack = s.stack ∧ Told s (found s) t ∧ (found s).countP (·.deed.isRefused) = 0
  failed : ∀ ⦃s fault t⦄, Writing frame s → x s = .failed fault t →
    Told s (found s) t ∧
      (found s).countP (·.deed.isRefused) ≤ if fault.isTooDeep then 1 else 0

/-- What is kept by an execution in which nothing happens. -/
def still (s : Session) : List Frame × Bool × Array Entry × Nat × Array String × Nat :=
  (s.stack, s.transcribed)

namespace Tells

variable {frame : Nat} {x : Exec α} {found : Session → List Event}

theorem of_keeps (h : Keeps still x) : Tells frame noEvents x := by
  have stack : Keeps Session.stack x := h.map Prod.fst
  have transcribed : Keeps transcribed x := h.map Prod.snd
  refine ⟨fun s a t writing done => ?_, fun s fault t writing failed => ?_⟩
  · exact ⟨stack.done done, .nothing writing.verbose (transcribed.done done), rfl⟩
  · exact ⟨.nothing writing.verbose (transcribed.failed failed), Nat.zero_le _⟩

theorem andThen {f : α → Exec β} {later} (first : Tells frame found x)
    (second : ∀ a, Tells frame (later a) (f a)) :
    Tells frame (inTurn found x later) (x >>= f) := by
  refine ⟨fun s b t writing done => ?_, fun s fault t writing failed => ?_⟩
  · obtain ⟨a, u, here, there⟩ := bind_done done
    obtain ⟨stack, told, none⟩ := first.done writing here
    obtain ⟨stack', told', none'⟩ := (second a).done (writing.told told stack) there
    rw [inTurn_done here, List.countP_append]
    exact ⟨stack'.trans stack, told.trans told', by omega⟩
  · obtain here | ⟨a, u, here, there⟩ := bind_failed failed
    · rw [inTurn_failed here]
      exact first.failed writing here
    · obtain ⟨stack, told, none⟩ := first.done writing here
      obtain ⟨told', most⟩ := (second a).failed (writing.told told stack) there
      rw [inTurn_done here, List.countP_append]
      exact ⟨told.trans told', by omega⟩

theorem inScope {inside : Session → List Event} (h : Tells frame inside x) :
    Tells frame (fun s => inside { s with scopes := s.scopes.enter }) (inScope x) := by
  have entered : ∀ {s}, Writing frame s → Writing frame { s with scopes := s.scopes.enter } :=
    fun writing => ⟨writing.verbose, writing.top⟩
  refine ⟨fun s a t writing done => ?_, fun s fault t writing failed => ?_⟩
  · obtain ⟨u, here, rfl⟩ := inScope_done done
    obtain ⟨stack, told, none⟩ := h.done (entered writing) here
    have told := told.begins writing.verbose rfl
    exact ⟨stack, told.ends rfl, none⟩
  · obtain ⟨u, here, rfl⟩ := inScope_failed failed
    obtain ⟨told, most⟩ := h.failed (entered writing) here
    have told := told.begins writing.verbose rfl
    exact ⟨told.ends rfl, most⟩

/-- The values that are written out for a step are told of with the step. -/
theorem ahead {earlier : Session → List Event} (writings : Writings frame earlier)
    (h : Tells frame found x) : Tells frame (ahead earlier found) x := by
  have silent : ∀ {s t events}, ∀ earlier : List Event,
      (∀ e ∈ earlier, ∃ values, e = ⟨frame, .writes values, s⟩) → Told s events t →
      Told s (earlier ++ events) t ∧
        (earlier ++ events).countP (·.deed.isRefused) = events.countP (·.deed.isRefused) := by
    intro s t events earlier writings told
    induction earlier with
    | nil => exact ⟨told, rfl⟩
    | cons e earlier ih =>
        obtain ⟨⟨values, rfl⟩, others⟩ := List.forall_mem_cons.mp writings
        obtain ⟨told, same⟩ := ih others
        exact ⟨told.quiet rfl, same⟩
  refine ⟨fun s a t writing done => ?_, fun s fault t writing failed => ?_⟩
  · obtain ⟨stack, told, none⟩ := h.done writing done
    obtain ⟨told, same⟩ := silent (earlier s) (writings s) told
    exact ⟨stack, told, same.trans none⟩
  · obtain ⟨told, most⟩ := h.failed writing failed
    obtain ⟨told, same⟩ := silent (earlier s) (writings s) told
    exact ⟨told, same.symm ▸ most⟩

theorem of_sessions (h : ∀ s, ∃ same, same s = found s ∧ Tells frame same x) :
    Tells frame found x := by
  refine ⟨fun s a t writing done => ?_, fun s fault t writing failed => ?_⟩
  · obtain ⟨_, same, tells⟩ := h s
    exact same ▸ tells.done writing done
  · obtain ⟨_, same, tells⟩ := h s
    exact same ▸ tells.failed writing failed

/-! ### Steps -/

theorem lookUp (look : Session → Except Limit α) : Tells frame noEvents (get look >>= orLimit) :=
  of_keeps ((Keeps.lookUp look).map still)

theorem noteStatement (st : Stmt) :
    Tells frame (heardStatement frame st) (noteStatement st) := by
  refine ⟨fun s a t writing done => ?_, fun s fault t writing failed => ?_⟩
  · rw [heardStatement, heard_done done]
    rw [Session.noteStatement, note_apply] at done
    split at done
    · rename_i e made
      cases done
      exact ⟨rfl, writing.logged made (.statement st) rfl (List.append_nil _).symm rfl, rfl⟩
    · cases done
  · rw [heardStatement, heard_failed failed]
    rw [Session.noteStatement, note_apply] at failed
    split at failed
    · cases failed
    · cases failed
      exact ⟨.nothing writing.verbose rfl, Nat.zero_le _⟩

/-- The step of a call writes out the arguments. -/
theorem texts_of_callFields {name : String} {args : List Value} {s : Session} {fields : Details}
    (verbose : s.log.verbose = true) (described : callFields name args s = .ok fields) :
    ∃ texts, args.mapM s.heap.display = .ok texts ∧
      fields = [("function", .text name), ("args", .list (texts.map .text))] := by
  rw [callFields_verbose verbose] at described
  split at described
  · rename_i texts shown
    cases described
    exact ⟨texts, shown, rfl⟩
  · cases described

theorem noteCall_failed {name : String} {location : Location} {args : List Value} {s t : Session}
    {fault : Fault} (failed : noteCall name location args s = .failed fault t) : t = s := by
  obtain failed | ⟨fields, u, looked, unlogged⟩ := bind_failed failed
  · exact (Keeps.lookUp _).failed failed
  · have same : u = s := (Keeps.lookUp _).done looked
    rw [note_apply, same] at unlogged
    split at unlogged
    · cases unlogged
    · cases unlogged
      rfl

section Call

variable {name : String} {location : Location} {args : List Value} {s t : Session}

/-- Nothing is done by a call that is not logged. -/
theorem told_of_noteCall_failed {fault : Fault} {deed : Session → Deed} (writing : Writing frame s)
    (failed : noteCall name location args s = .failed fault t) :
    Told s (heard frame deed (noteCall name location args) s) t := by
  rw [heard_failed failed]
  obtain rfl := noteCall_failed failed
  exact .nothing writing.verbose rfl

/-- A call that is logged is told of, and so is one that is refused. -/
theorem refused :
    Tells frame (heardRefused frame name location args)
      (noteCall name location args >>= fun _ => (fail (.limit .calls) none : Exec Value)) := by
  refine ⟨fun s a t writing done => ?_, fun s fault t writing failed => ?_⟩
  · obtain ⟨_, u, -, failed⟩ := bind_done done
    cases failed
  · obtain failed | ⟨_, u, noted, failed⟩ := bind_failed failed
    · refine ⟨told_of_noteCall_failed writing failed, ?_⟩
      rw [heardRefused, heard_failed failed]
      exact Nat.zero_le _
    · cases failed
      rw [heardRefused, heard_done noted]
      obtain ⟨fields, e, described, made, rfl⟩ := noteCall_done noted
      obtain ⟨texts, shown, rfl⟩ := texts_of_callFields writing.verbose described
      have told := writing.logged (t := s.record e) made (.refused name location shown) rfl
        (List.append_nil _).symm rfl
      exact ⟨told, Nat.le_refl 1⟩

/-- Where the body of a call begins, the call has its step and its frame. -/
theorem told_activated {fields : Details} {e : Entry} (writing : Writing frame s)
    (described : callFields name args s = .ok fields)
    (made : s.step "CALL" (some location) fields = .ok e) :
    Told s [⟨frame, .call name location args, s⟩] (activated name location (s.record e)) := by
  obtain ⟨texts, shown, rfl⟩ := texts_of_callFields writing.verbose described
  exact writing.logged made (.call name location shown) rfl (List.append_nil _).symm rfl

theorem told_pop {events : List Event} (told : Told s events t) : Told s events t.pop :=
  told.ends (by
    unfold transcribed
    rw [pop_verbose, pop_entries, pop_next, pop_output, pop_frames])

theorem call {params : List Identifier} {body : Exec Unit} {inside : Nat → Session → List Event}
    (h : ∀ callee, Tells callee (inside callee) body) :
    Tells frame (historyOfCall frame name location params args body inside)
      (noteCall name location args >>= fun _ =>
        activate name location (declare params args >>= fun _ => body)) := by
  have bound : ∀ callee, Tells callee (inTurn noEvents (declare params args) fun _ => inside callee)
      (declare params args >>= fun _ => body) :=
    fun callee => (of_keeps ((Keeps.declare params args).map still)).andThen fun _ => h callee
  refine ⟨fun s v t writing done => ?_, fun s fault t writing failed => ?_⟩
  · obtain ⟨_, u, noted, done⟩ := bind_done done
    rw [historyOfCall, inTurn_done noted, inTurn_done done, heardCall, heard_done noted,
      heardResume_apply]
    obtain ⟨fields, e, described, made, rfl⟩ := noteCall_done noted
    have begun := told_activated writing described made
    obtain ⟨u, inner, rfl⟩ := activate_done done
    -- the body leaves the stack with the callee's frame on top, and that is the one taken off
    obtain ⟨stack, told, none⟩ := (bound s.frames).done ⟨begun.verbose, rfl⟩ inner
    have ended := told_pop ((begun.trans told).ends (u := unwound u) rfl)
    have resumed : Told (unwound u).pop [⟨frame, .resume, (unwound u).pop⟩] (unwound u).pop :=
      (Told.nothing ended.verbose rfl).quiet rfl
    refine ⟨?_, ?_, ?_⟩
    · rw [pop, show (unwound u).stack = _ from stack]
      rfl
    · rw [← List.append_assoc]
      exact ended.trans resumed
    · rw [List.countP_append, List.countP_append]
      exact congrArg (0 + · + 0) none
  · obtain failed | ⟨_, u, noted, failed⟩ := bind_failed failed
    · rw [historyOfCall, inTurn_failed failed]
      refine ⟨told_of_noteCall_failed writing failed, ?_⟩
      rw [heardCall, heard_failed failed]
      exact Nat.zero_le _
    · rw [historyOfCall, inTurn_done noted, inTurn_failed failed, heardCall, heard_done noted]
      obtain ⟨fields, e, described, made, rfl⟩ := noteCall_done noted
      have begun := told_activated writing described made
      obtain ⟨u, inner, rfl⟩ := activate_failed failed
      obtain ⟨told, most⟩ := (bound s.frames).failed ⟨begun.verbose, rfl⟩ inner
      exact ⟨(begun.trans told).ends rfl, most⟩

end Call

theorem printing_apply (location : Location) (v : Value) (s : Session) :
    printing location v s =
      match s.heap.display v with
      | .error limit => .failed ⟨.limit limit, none⟩ s
      | .ok text =>
          match s.step "PRINT" (some location) [("output", .text text)] with
          | .error limit => .failed ⟨.limit limit, none⟩ s
          | .ok e => .done .nothing { s.record e with output := s.output.push text } := by
  unfold printing
  rw [← bind_assoc, bind_apply, lookUp_apply]
  cases s.heap.display v with
  | error limit => rfl
  | ok text =>
      dsimp only
      rw [bind_apply, note_apply]
      cases s.step "PRINT" (some location) [("output", .text text)] <;> rfl

/-- A text is printed behind its step. -/
theorem printed (location : Location) (v : Value) :
    Tells frame (heardPrint frame location v) (printing location v) := by
  refine ⟨fun s w t writing done => ?_, fun s fault t writing failed => ?_⟩
  · rw [printing_apply] at done
    rw [heardPrint, lookUp_apply]
    cases shown : s.heap.display v with
    | error limit =>
        rw [shown] at done
        cases done
    | ok text =>
        rw [shown] at done
        dsimp only at done
        split at done
        · cases done
        · rename_i e made
          cases done
          dsimp only [listBehind]
          rw [heard_done (note_ok made)]
          refine ⟨rfl, writing.logged made (.print location text) rfl ?_ rfl, rfl⟩
          exact Array.toList_push
  · rw [printing_apply] at failed
    rw [heardPrint, lookUp_apply]
    cases shown : s.heap.display v with
    | error limit =>
        rw [shown] at failed
        cases failed
        exact ⟨.nothing writing.verbose rfl, Nat.zero_le _⟩
    | ok text =>
        rw [shown] at failed
        dsimp only at failed
        split at failed
        · rename_i limit made
          cases failed
          dsimp only [listBehind]
          rw [heard, note_apply, made]
          exact ⟨.nothing writing.verbose rfl, Nat.zero_le _⟩
        · cases failed

theorem quiet {deed : Session → Deed} (h : Keeps still x)
    (quiet : ∀ s, (deed s).isLogged = false) : Tells frame (heard frame deed x) x := by
  have steps : Tells frame noEvents x := of_keeps h
  refine ⟨fun s a t writing done => ?_, fun s fault t writing failed => ?_⟩
  · obtain ⟨stack, told, -⟩ := steps.done writing done
    rw [heard_done done]
    refine ⟨stack, told.quiet (quiet s), ?_⟩
    simp [Deed.not_refused (quiet s)]
  · rw [heard_failed failed]
    exact steps.failed writing failed

theorem grown (array : Option Ref) (sofar : Pairs) (key v : Value) :
    Tells frame (heardBuild frame array sofar key v) (grown sofar key v) :=
  quiet ((Keeps.lookUp _).map still) fun _ => rfl

end Tells

theorem tracked_tells : Tracked (fun _ frame _ _ found x => Tells frame found x)
    fun _ frame _ _ found x => Tells frame found x where
  value _ _ := .of_keeps fun _ => rfl
  fail _ _ := .of_keeps fun _ => rfl
  exhausted := .of_keeps fun _ => trivial
  andThen := Tells.andThen
  ofExpr tells := tells
  sequence := Tells.andThen
  inScope h := h.inScope
  noteStatement st := .ahead (writings_bindings _) (.noteStatement st)
  name id := .of_keeps ((Keeps.name id).map still)
  function _ _ _ := .of_keeps fun _ => rfl
  fetch _ _ := .lookUp _
  bind name v _ := .of_keeps ((Keeps.bindName name v).map still)
  setPending _ _ := .quiet (fun _ => rfl) fun _ => rfl
  store ref key v _ _ := .quiet ((Keeps.store ref key v).map still) fun _ => rfl
  array elements each :=
    array_of_each (fun _ => .of_keeps fun _ => rfl) Tells.andThen Tells.grown (fun e => each e [])
      (fun _ => .of_keeps fun _ => rfl) .of_sessions elements
  printed location v := .ahead (writings_print _ v) (.printed location v)
  refused name _ args := .ahead (writings_call _ name args) .refused
  call name _ _ args _ _ _ _ h := .ahead (writings_call _ name args) (.call h)

/-! ## Runs -/

theorem isTooDeep_blame (s : Session) (fault : Fault) :
    (s.blame fault).isTooDeep = fault.isTooDeep := by
  unfold blame
  split <;> rfl

/-- A run that has come to an end tells its history behind its frame, if it got one. -/
theorem Ran.told {budget : Budget} {s t : Session} {events : List Event} {ending : Ending}
    (ran : Ran budget s events ending t) (verbose : s.log.verbose = true) (ends : ending.Ends) :
    Told { s with frames := s.frames + if ending.began then 1 else 0 } events t ∧
      events.countP (·.deed.isRefused) ≤ if ending.isTooDeep then 1 else 0 := by
  have writing : Writing s.frames s.begun := ⟨verbose, rfl⟩
  cases ran with
  | rejected fault => exact ⟨.nothing verbose rfl, Nat.zero_le _⟩
  | @finished program u here =>
      obtain ⟨-, told, none⟩ := (tracked_tells.programBody budget program s.frames).done writing here
      exact ⟨Tells.told_pop (told.begins verbose rfl), Nat.le_of_eq none⟩
  | @failed program fault t here =>
      obtain ⟨told, most⟩ := (tracked_tells.programBody budget program s.frames).failed writing here
      refine ⟨told.begins verbose rfl, ?_⟩
      rw [Ending.isTooDeep, isTooDeep_blame]
      exact most
  | unfinished => exact ends.elim

/-! ## Logs that tell a history -/

section Entries

variable {e : Entry} {frame : Nat} {deed : Deed} {session : Session}
  (tells : e.Tells ⟨frame, deed, session⟩)
include tells

theorem isUnder_print : e.isUnder "PRINT" = deed.text.isSome := by
  obtain ⟨-, ⟨location, details, noted, -, -, same⟩, -⟩ := tells
  unfold Entry.isUnder Entry.field
  rw [same]
  cases noted with
  | statement st => cases st <;> rfl
  | call | refused | print => rfl

theorem isUnder_call : e.isUnder "CALL" = (deed.opens || deed.isRefused) := by
  obtain ⟨-, ⟨location, details, noted, -, -, same⟩, -⟩ := tells
  unfold Entry.isUnder Entry.field
  rw [same]
  cases noted with
  | statement st => cases st <;> rfl
  | call | refused | print => rfl

theorem field_output {text : String} (printed : deed.text = some text) :
    e.field "output" = some (.text text) := by
  obtain ⟨-, ⟨location, details, noted, -, -, same⟩, -⟩ := tells
  unfold Entry.field
  rw [same]
  cases noted with
  | print => cases printed; rfl
  | statement | call | refused => cases printed

end Entries

variable {entries : List Entry} {events : List Event}

/-- The prints of a log are those of its events. -/
theorem prints_eq (tells : List.Forall₂ Entry.Tells entries events) :
    (entries.filter (·.isUnder "PRINT")).map (·.field "output") =
      (events.filterMap (·.deed.text)).map fun text => some (.text text) := by
  induction tells with
  | nil => rfl
  | @cons e event entries events first _ ih =>
      obtain ⟨frame, deed, session⟩ := event
      have under := isUnder_print first
      rw [List.filterMap_cons]
      cases printed : deed.text with
      | none =>
          rw [printed] at under
          rw [List.filter_cons_of_neg (by simp [under])]
          exact ih
      | some text =>
          rw [printed] at under
          rw [List.filter_cons_of_pos under, List.map_cons, field_output first printed, ih]
          rfl

/-- The calls of a log are those that got a frame and those that were refused. -/
theorem calls_eq (tells : List.Forall₂ Entry.Tells entries events) :
    entries.countP (·.isUnder "CALL") =
      events.countP (·.deed.opens) + events.countP (·.deed.isRefused) := by
  induction tells with
  | nil => rfl
  | @cons e event entries events first _ ih =>
      obtain ⟨frame, deed, session⟩ := event
      simp only [List.countP_cons, ih, isUnder_call first]
      cases deed <;> simp [Deed.opens, Deed.isRefused] <;> omega

/-- What is not logged is neither printed nor called. -/
theorem filterMap_logged (events : List Event) :
    (events.filter (·.deed.isLogged)).filterMap (·.deed.text) =
      events.filterMap (·.deed.text) := by
  induction events with
  | nil => rfl
  | cons event events ih =>
      obtain ⟨frame, deed, session⟩ := event
      cases deed with
      | print location text => exact congrArg (text :: ·) ih
      | statement | call | refused | resume | returns | assign | build | writes => exact ih

theorem countP_logged {p : Deed → Bool} (logged : ∀ deed, p deed = true → deed.isLogged = true)
    (events : List Event) :
    (events.filter (·.deed.isLogged)).countP (p ·.deed) = events.countP (p ·.deed) := by
  rw [List.countP_filter]
  refine List.countP_congr fun event _ => ?_
  simpa using logged event.deed

/-! ## Sequences of runs -/

theorem Told.frames_add {s t : Session} {events : List Event} (told : Told s events t) (n : Nat) :
    Told { s with frames := s.frames + n } events { t with frames := t.frames + n } := by
  refine ⟨told.verbose, told.steps, told.output, ?_⟩
  have frames := told.frames
  dsimp only
  omega

/-- All runs together tell their history behind a session that has only their frames. -/
theorem Recorded.told {endings : List Ending} {history : List Event} {s : Session}
    (recorded : Recorded true endings history s) :
    Told { Session.initial true with frames := endings.countP Ending.began } history s ∧
      history.countP (·.deed.isRefused) ≤ endings.countP Ending.isTooDeep := by
  induction recorded with
  | initial => exact ⟨.nothing rfl rfl, Nat.le_refl 0⟩
  | @run endings history s t budget source ending recorded ran ends ih =>
      obtain ⟨told, refused⟩ := ih
      obtain ⟨told', refused'⟩ := (ran_of_runSource ran).told told.verbose ends
      have both := (told.frames_add (if ending.began then 1 else 0)).trans told'
      rw [List.countP_append, List.countP_append, List.countP_append]
      refine ⟨?_, ?_⟩
      · have count : [ending].countP Ending.began = if ending.began then 1 else 0 :=
          List.countP_singleton
        rw [count]
        exact both
      · have count : [ending].countP Ending.isTooDeep = if ending.isTooDeep then 1 else 0 :=
          List.countP_singleton
        rw [count]
        omega

/-- Steps that are numbered upwards have the number of their place. -/
theorem index_eq {seed : Entry} {later : List Entry} (first : seed.index = 0)
    (indices : later.map Entry.index = List.range' 1 later.length) (k : Nat) (e : Entry)
    (found : (seed :: later)[k]? = some e) : e.index = k := by
  cases k with
  | zero =>
      cases found
      exact first
  | succ k =>
      have same : (later.map Entry.index)[k]? = some e.index := by
        rw [List.getElem?_map]
        exact congrArg (Option.map Entry.index) found
      rw [indices] at same
      obtain ⟨inside, same⟩ := List.getElem?_eq_some_iff.mp same
      rw [List.getElem_range'] at same
      omega

/-- **The verbose log is a faithful transcript.** Whatever has been run, successfully or not: the
prints of the log say, in order, what has been printed. As many calls have been logged, and as
many runs begun, as frames have been made, but for a call that was refused, of which a run has one
at most, and fails with it. Steps are numbered in the order of the log. And step by step the log
behind its seed tells of the history: each step has the frame of the activation that did what it
describes, with its place, its bindings and what is recorded about it. -/
theorem transcript {endings : List Ending} {history : List Event} {s : Session}
    (recorded : Recorded true endings history s) :
    let entries := s.log.entries.toList
    (entries.filter (·.isUnder "PRINT")).map (·.field "output") =
        s.output.toList.map (fun text => some (.text text)) ∧
      entries.countP (·.isUnder "CALL") + endings.countP Ending.began =
        s.frames + history.countP (·.deed.isRefused) ∧
      history.countP (·.deed.isRefused) ≤ endings.countP Ending.isTooDeep ∧
      (∀ (k : Nat) (e : Entry), entries[k]? = some e → e.index = k) ∧
      ∃ seed later, entries = seed :: later ∧ seed.isUnder "SEED" = true ∧
        List.Forall₂ Entry.Tells later (history.filter (·.deed.isLogged)) := by
  obtain ⟨⟨-, ⟨later, entries, -, indices, tells⟩, output, frames⟩, refused⟩ := recorded.told
  obtain ⟨seed, started, isSeed, noPrint, noCall, first⟩ : ∃ seed : Entry,
      (initial true).log.entries.toList = [seed] ∧ seed.isUnder "SEED" = true ∧
        seed.isUnder "PRINT" = false ∧ seed.isUnder "CALL" = false ∧ seed.index = 0 :=
    ⟨_, rfl, rfl, rfl, rfl, rfl⟩
  -- the seed is neither a print nor a call, so both can be counted behind it
  replace entries : s.log.entries.toList = seed :: later :=
    entries.trans (congrArg (· ++ later) started)
  replace indices : later.map Entry.index = List.range' 1 later.length := indices
  have prints := prints_eq tells
  rw [filterMap_logged] at prints
  have calls := calls_eq tells
  rw [countP_logged (fun deed opens => by cases deed <;> first | rfl | cases opens),
    countP_logged (fun deed refused => by cases deed <;> first | rfl | cases refused)] at calls
  dsimp only at frames ⊢
  rw [entries]
  refine ⟨?_, ?_, refused, ?_, seed, later, rfl, isSeed, tells⟩
  · rw [List.filter_cons_of_neg (by simp [noPrint]), prints, output]
    rfl
  · rw [List.countP_cons_of_neg (by simp [noCall]), calls]
    omega
  · exact index_eq first indices

/-- A source that prints in calls and outside. -/
def telling : Source :=
  ⟨"telling", "f = func(n) \x7b print(n); return n; \x7d;\nprint(f(1) + f(2));"⟩

/-- A source that fails in a call, behind a print and in front of another. -/
def breaking : Source :=
  ⟨"breaking", "f = func(n) \x7b print(n); print(missing); \x7d;\nprint([f(4)]);"⟩

theorem transcript_breaking :
    ∃ fault history s, Recorded true [.finished, .failed fault] history s ∧
      s.output.toList = ["1", "2", "3", "4"] ∧ s.frames = 5 ∧
      let entries := s.log.entries.toList
      (entries.filter (·.isUnder "PRINT")).map (·.field "output") =
          ["1", "2", "3", "4"].map (fun text => some (.text text)) ∧
        entries.countP (·.isUnder "CALL") + 2 = 5 ∧
        (∀ (k : Nat) (e : Entry), entries[k]? = some e → e.index = k) ∧
        ∃ seed later, entries = seed :: later ∧
          List.Forall₂ Entry.Tells later (history.filter (·.deed.isLogged)) := by
  have shown : ((finish? ((initial true).runSource ⟨30, 10⟩ telling)).bind fun s =>
      (failure? (s.runSource ⟨30, 10⟩ breaking)).map fun failed =>
        (failed.1.isTooDeep, failed.2.output.toList, failed.2.frames)) =
      some (false, ["1", "2", "3", "4"], 5) := by decide +kernel
  obtain ⟨s, finished, shown⟩ := Option.bind_eq_some_iff.mp shown
  obtain ⟨⟨fault, t⟩, failed, shown⟩ := Option.map_eq_some_iff.mp shown
  obtain ⟨notTooDeep, output, frames⟩ : fault.isTooDeep = false ∧
      t.output.toList = ["1", "2", "3", "4"] ∧ t.frames = 5 := by
    simpa using shown
  have recorded := (Recorded.initial.run (of_finish? finished) trivial).run (of_failure? failed)
    trivial
  obtain ⟨prints, calls, refused, indices, seed, later, entries, -, tells⟩ := transcript recorded
  have none : [Ending.finished, .failed fault].countP Ending.isTooDeep = 0 := by
    simp [Ending.isTooDeep, notTooDeep]
  have begun : [Ending.finished, .failed fault].countP Ending.began = 2 := rfl
  refine ⟨fault, _, t, recorded, output, frames, ?_, ?_, indices, seed, later, entries, tells⟩
  · rw [prints, output]
  · dsimp only [List.nil_append, List.cons_append] at calls refused
    omega

end Session

end Mini
