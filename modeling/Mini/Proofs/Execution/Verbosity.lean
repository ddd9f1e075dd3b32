import Mini.Proofs.Execution.Tracked
import Mini.Proofs.Heap.Contents
import Mini.Traceback

/-!
# Quiet and verbose runs

A verbose session does all that a quiet one does, and besides writes out values for
its log. Two such runs of one program go step by step together. They part where a
value has no display: there the verbose run stops with a limit, while the quiet one
goes on and can only add to the output that both have made so far.
-/

namespace Mini

/-! ## Logs -/

namespace OrderedMap

variable {κ υ ω : Type}

/-- A map with all its values replaced. -/
def mapValues (f : υ → ω) (m : OrderedMap κ υ) : OrderedMap κ ω :=
  m.map fun entry => (entry.1, f entry.2)

variable [DecidableEq κ]

theorem mapValues_put (f : υ → ω) (m : OrderedMap κ υ) (key : κ) (value : υ) :
    (m.put key value).mapValues f = (m.mapValues f).put key (f value) :=
  (put_map (fun _ _ => id) f m key value).symm

theorem mapValues_erase (f : υ → ω) (m : OrderedMap κ υ) (key : κ) :
    (m.erase key).mapValues f = (m.mapValues f).erase key :=
  (erase_map (fun _ _ => id) f m key).symm

end OrderedMap

/-- A step without what only a verbose log records about it. -/
def Entry.bare (e : Entry) : Entry :=
  { e with env := none, details := none }

/-- A quiet and a verbose log of the same steps. -/
structure StepLog.Alike (quiet verbose : StepLog) : Prop where
  isQuiet : quiet.verbose = false
  isVerbose : verbose.verbose = true
  next : quiet.next = verbose.next
  last : quiet.last.map Entry.bare = verbose.last.map Entry.bare
  lastOf : quiet.lastOf.mapValues Entry.bare = verbose.lastOf.mapValues Entry.bare

namespace StepLog.Alike

variable {quiet verbose : StepLog}

theorem initial : (StepLog.initial false).Alike (StepLog.initial true) :=
  ⟨rfl, rfl, rfl, rfl, rfl⟩

theorem add (h : quiet.Alike verbose) {e e' : Entry} (same : e.bare = e'.bare) :
    (quiet.add e).Alike (verbose.add e') := by
  have frames : e.frame = e'.frame := by
    have both := congrArg Entry.frame same
    exact both
  refine ⟨h.isQuiet, h.isVerbose, congrArg (· + 1) h.next, congrArg some same, ?_⟩
  unfold StepLog.add
  rw [← frames]
  cases e.frame with
  | none => exact h.lastOf
  | some frame =>
      show OrderedMap.mapValues _ (OrderedMap.put _ _ _) = OrderedMap.mapValues _ (OrderedMap.put _ _ _)
      rw [OrderedMap.mapValues_put, OrderedMap.mapValues_put, h.lastOf, same]

theorem release (h : quiet.Alike verbose) (frame : Nat) :
    (quiet.release frame).Alike (verbose.release frame) := by
  refine ⟨h.isQuiet, h.isVerbose, h.next, h.last, ?_⟩
  show OrderedMap.mapValues _ (OrderedMap.erase _ _) = OrderedMap.mapValues _ (OrderedMap.erase _ _)
  rw [OrderedMap.mapValues_erase, OrderedMap.mapValues_erase, h.lastOf]

/-- Both logs blame the same place. -/
theorem last_location (h : quiet.Alike verbose) :
    quiet.last.bind Entry.location = verbose.last.bind Entry.location := by
  have bare : ∀ last : Option Entry,
      (last.map Entry.bare).bind Entry.location = last.bind Entry.location := by
    intro last
    cases last <;> rfl
  rw [← bare quiet.last, h.last, bare]

end StepLog.Alike

namespace Session

open Exec

/-! ## Sessions -/

/-- A session with another log. -/
def withLog (s : Session) (log : StepLog) : Session :=
  { s with log := log }

/-- A quiet and a verbose session that differ in their logs at most, and there in what is
recorded about the steps only. -/
structure Alike (quiet verbose : Session) : Prop where
  heap : quiet.heap = verbose.heap
  scopes : quiet.scopes = verbose.scopes
  stack : quiet.stack = verbose.stack
  frames : quiet.frames = verbose.frames
  pending : quiet.pending = verbose.pending
  output : quiet.output = verbose.output
  runs : quiet.runs = verbose.runs
  log : quiet.log.Alike verbose.log

theorem Alike.of_log {s : Session} {log : StepLog} (h : s.log.Alike log) :
    Alike s (s.withLog log) :=
  ⟨rfl, rfl, rfl, rfl, rfl, rfl, rfl, h⟩

/-- A fault is reported alike in both. -/
theorem Alike.report {quiet verbose : Session} (h : Alike quiet verbose) (fault : Fault) :
    quiet.report fault = verbose.report fault := by
  have index : ∀ last : Option Entry,
      (last.map Entry.bare).map (fun e => (e.index : Int)) = last.map fun e => (e.index : Int) := by
    intro last
    cases last <;> rfl
  unfold Session.report
  rw [← index quiet.log.last, h.log.last, index]

theorem pop_withLog {s : Session} {log : StepLog} (h : s.log.Alike log) :
    ∃ log', s.pop.log.Alike log' ∧ (s.withLog log).pop = s.pop.withLog log' := by
  obtain ⟨heap, scopes, quiet, stack, frames, pending, output, runs⟩ := s
  cases stack with
  | nil => exact ⟨log, h, rfl⟩
  | cons frame rest => exact ⟨log.release frame.id, h.release frame.id, rfl⟩

/-! ## What a verbose session writes out -/

/-- Values that are to be written out for the log, and the session they stand in. -/
structure Rendering where
  session : Session
  values : List Value

end Session

/-- The values that an event comes to, if a verbose log writes them out. -/
def Event.rendering (e : Event) : Option Session.Rendering :=
  match e.deed with
  | .writes values => some ⟨e.session, values⟩
  | _ => none

namespace Session

open Exec

/-- The renderings in the course of a run. -/
def renderingsOfRun (budget : Budget) (program : Program) (s : Session) : List Rendering :=
  (historyOfBody budget program s.frames s.begun).filterMap Event.rendering

/-- A quiet log takes any step. -/
theorem step_quiet {s : Session} (h : s.log.verbose = false) (rule : String)
    (location : Option Location) (fields : Details) :
    s.step rule location fields = .ok (s.entry location (location.map Location.statement) none
      (some (OrderedMap.putAll [("rule", .text rule)] fields))) := by
  unfold step
  rw [h]
  rfl

theorem step_verbose {s : Session} (h : s.log.verbose = true) (rule : String)
    (location : Option Location) (fields : Details) :
    s.step rule location fields =
      match s.scopes.snapshot s.heap with
      | .ok env => .ok (s.entry location (location.map Location.statement) (some env)
          (some (OrderedMap.putAll [("rule", .text rule)] fields)))
      | .error limit => .error limit := by
  unfold step
  rw [h]
  cases s.scopes.snapshot s.heap <;> rfl

theorem callFields_quiet {s : Session} (h : s.log.verbose = false) (name : String)
    (args : List Value) : callFields name args s = .ok [("function", .text name)] := by
  unfold callFields
  rw [h]
  rfl

theorem callFields_verbose {s : Session} (h : s.log.verbose = true) (name : String)
    (args : List Value) :
    callFields name args s =
      match args.mapM s.heap.display with
      | .ok texts => .ok [("function", .text name), ("args", .list (texts.map .text))]
      | .error limit => .error limit := by
  unfold callFields
  rw [h]
  dsimp only [if_true]
  cases args.mapM s.heap.display <;> rfl

theorem snapshotOf_error {h : Heap} {limit : Limit} : ∀ {bindings : OrderedMap String Value},
    Scopes.snapshotOf h bindings = .error limit →
    ∃ v ∈ bindings.map Prod.snd, h.display v = .error limit
  | [], e => by cases e
  | (name, v) :: rest, e => by
      cases hv : h.display v with
      | error l =>
          have first : Scopes.snapshotText h v = .error l := by
            unfold Scopes.snapshotText
            rw [hv]
            rfl
          rw [Scopes.snapshotOf, first] at e
          cases e
          exact ⟨v, List.mem_cons_self, hv⟩
      | ok text =>
          have first : Scopes.snapshotText h v =
              .ok (v.kind.name ++ ":" ++ Scopes.cut text) := by
            unfold Scopes.snapshotText
            rw [hv]
            rfl
          rw [Scopes.snapshotOf, first] at e
          cases later : Scopes.snapshotOf h rest with
          | ok texts => rw [later] at e; cases e
          | error l =>
              rw [later] at e
              cases e
              obtain ⟨w, mem, fails⟩ := snapshotOf_error later
              exact ⟨w, List.mem_cons_of_mem _ mem, fails⟩

/-- A snapshot fails at a value that is bound in the current scope. -/
theorem snapshot_error {s : Session} {limit : Limit}
    (e : s.scopes.snapshot s.heap = .error limit) :
    ∃ v ∈ s.visible, s.heap.display v = .error limit := by
  unfold Scopes.snapshot at e
  unfold visible
  cases hc : s.scopes.current with
  | none => rw [hc] at e; cases e
  | some handle =>
      rw [hc] at e
      exact snapshotOf_error e

theorem mapM_display_error {h : Heap} {limit : Limit} : ∀ {args : List Value},
    args.mapM h.display = .error limit → ∃ v ∈ args, h.display v = .error limit
  | [], e => by cases e
  | v :: rest, e => by
      rw [List.mapM_cons] at e
      cases hv : h.display v with
      | error l =>
          rw [hv] at e
          cases e
          exact ⟨v, List.mem_cons_self, hv⟩
      | ok text =>
          rw [hv] at e
          cases later : rest.mapM h.display with
          | ok texts => rw [later] at e; cases e
          | error l =>
              rw [later] at e
              cases e
              obtain ⟨w, mem, fails⟩ := mapM_display_error later
              exact ⟨w, List.mem_cons_of_mem _ mem, fails⟩

end Session

/-! ## Outcomes -/

/-- An execution has ended with all the output of a session and perhaps more. -/
def Outcome.Continues {α : Type} (o : Outcome α) (s : Session) : Prop :=
  match o with
  | .done _ t | .failed _ t => s.output.toList <+: t.output.toList
  | .outOfFuel => True

theorem Outcome.Continues.trans {α : Type} {o : Outcome α} {s t : Session}
    (first : s.output.toList <+: t.output.toList) (later : o.Continues t) : o.Continues s := by
  cases o with
  | done a u => exact List.IsPrefix.trans first later
  | failed fault u => exact List.IsPrefix.trans first later
  | outOfFuel => trivial

namespace Session

open Exec

/-- How a quiet and a verbose execution end. They end alike, unless the verbose one has
parted from the other where it came to values that it was to write out, at one without a
display. -/
inductive Tied {α : Type} (found : List Event) : Outcome α → Outcome α → Prop
  | unfinished {o : Outcome α} : Tied found .outOfFuel o
  | done {a : α} {s : Session} {log : StepLog} :
      s.log.Alike log → Tied found (.done a s) (.done a (s.withLog log))
  | failed {fault : Fault} {s : Session} {log : StepLog} :
      s.log.Alike log → Tied found (.failed fault s) (.failed fault (s.withLog log))
  | parted {o : Outcome α} {e : Event} {r : Rendering} {v : Value} {limit : Limit} {t : Session} :
      e ∈ found → e.rendering = some r → v ∈ r.values → r.session.heap.display v = .error limit →
        o.Continues t → Tied found o (.failed ⟨.limit limit, none⟩ t)

/-- An execution that only adds to the output, and that goes on alike in a quiet and a
verbose session. -/
structure Lockstep ⦃α : Type⦄ (found : Session → List Event) (x : Exec α) : Prop where
  goesOn : ∀ s, (x s).Continues s
  tied : ∀ ⦃s log⦄, s.log.Alike log →
    Tied (found (s.withLog log)) (x s) (x (s.withLog log))

variable {α β : Type}

theorem Tied.mono {found more : List Event} {o o' : Outcome α} (h : Tied found o o')
    (sub : found ⊆ more) : Tied more o o' := by
  cases h with
  | unfinished => exact .unfinished
  | done alike => exact .done alike
  | failed alike => exact .failed alike
  | parted mem writes shown fails continues => exact .parted (sub mem) writes shown fails continues

theorem Lockstep.mono {found more : Session → List Event} {x : Exec α} (h : Lockstep found x)
    (sub : ∀ s, found s ⊆ more s) : Lockstep more x :=
  ⟨h.goesOn, fun s log alike => (h.tied alike).mono (sub (s.withLog log))⟩

/-- Where the renderings are told of that an execution comes across, other events may be, too. -/
theorem Lockstep.ahead {earlier found : Session → List Event} {x : Exec α}
    (h : Lockstep earlier x) : Lockstep (ahead earlier found) x :=
  h.mono fun _ => List.subset_append_left _ _

/-! ## Putting executions together -/

theorem continues_bind {x : Exec α} {f : α → Exec β} (hx : ∀ s, (x s).Continues s)
    (hf : ∀ a s, (f a s).Continues s) (s : Session) : ((x >>= f) s).Continues s := by
  have first := hx s
  rw [bind_apply]
  cases hs : x s with
  | done a t =>
      rw [hs] at first
      exact (hf a t).trans first
  | failed fault t =>
      rw [hs] at first
      exact first
  | outOfFuel => trivial

theorem tied_bind {x : Exec α} {f : α → Exec β} {first later} {s : Session} {log : StepLog}
    (hx : Tied (first (s.withLog log)) (x s) (x (s.withLog log)))
    (hf : ∀ a, Lockstep (later a) (f a)) :
    Tied (inTurn first x later (s.withLog log)) ((x >>= f) s) ((x >>= f) (s.withLog log)) := by
  rw [bind_apply, bind_apply, inTurn]
  generalize x s = o at hx ⊢
  generalize x (s.withLog log) = o' at hx ⊢
  cases hx with
  | unfinished => exact .unfinished
  | done alike => exact ((hf _).tied alike).mono (List.subset_append_right _ _)
  | failed alike => exact .failed alike
  | parted mem writes shown fails continues =>
      refine .parted (List.mem_append_left _ mem) writes shown fails ?_
      -- the quiet execution goes on, and keeps what it had printed when the other one stopped
      cases o with
      | done a u => exact ((hf a).goesOn u).trans continues
      | failed fault u => exact continues
      | outOfFuel => trivial

theorem lockstep_bind {x : Exec α} {f : α → Exec β} {first later} (hx : Lockstep first x)
    (hf : ∀ a, Lockstep (later a) (f a)) : Lockstep (inTurn first x later) (x >>= f) := by
  constructor
  · exact continues_bind hx.goesOn fun a => (hf a).goesOn
  · intro s log alike
    exact tied_bind (hx.tied alike) hf

theorem lockstep_inScope {x : Exec α} {inside} (hx : Lockstep inside x) :
    Lockstep (fun s => inside { s with scopes := s.scopes.enter }) (inScope x) := by
  constructor
  · intro s
    have continues := hx.goesOn { s with scopes := s.scopes.enter }
    rw [inScope_apply]
    cases hs : x { s with scopes := s.scopes.enter } with
    | done a t => rw [hs] at continues; exact continues
    | failed fault t => rw [hs] at continues; exact continues
    | outOfFuel => trivial
  · intro s log alike
    have tied := hx.tied (s := { s with scopes := s.scopes.enter }) alike
    rw [inScope_apply, inScope_apply]
    show Tied (inside (withLog { s with scopes := s.scopes.enter } log)) _
      (match x (withLog { s with scopes := s.scopes.enter } log) with
        | .done a t => .done a { t with scopes := t.scopes.leave }
        | .failed fault t => .failed fault { t with scopes := t.scopes.leave }
        | .outOfFuel => .outOfFuel)
    generalize x { s with scopes := s.scopes.enter } = o at tied ⊢
    generalize x (withLog { s with scopes := s.scopes.enter } log) = o' at tied ⊢
    cases tied with
    | unfinished => exact .unfinished
    | done alike => exact .done alike
    | failed alike => exact .failed alike
    | parted mem writes shown fails continues =>
        refine .parted mem writes shown fails ?_
        cases o <;> exact continues

theorem lockstep_activate (name : String) (location : Location) {body : Exec Unit}
    {inside : Nat → Session → List Event} (h : ∀ callee, Lockstep (inside callee) body) :
    Lockstep (fun s => inside s.frames (activated name location s))
      (activate name location body) := by
  constructor
  · intro s
    have continues := (h 0).goesOn (activated name location s)
    rw [activate_apply]
    cases hs : body (activated name location s) with
    | done a t =>
        rw [hs] at continues
        show s.output.toList <+: (unwound t).pop.output.toList
        rw [pop_output]
        exact continues
    | failed fault t => rw [hs] at continues; exact continues
    | outOfFuel => trivial
  · intro s log alike
    have tied := (h s.frames).tied (s := activated name location s) alike
    have withLog : activated name location (s.withLog log) =
        (activated name location s).withLog log := rfl
    rw [activate_apply, activate_apply, withLog]
    generalize body (activated name location s) = o at tied ⊢
    generalize body ((activated name location s).withLog log) = o' at tied ⊢
    cases tied with
    | unfinished => exact .unfinished
    | @done _ t log' alike =>
        obtain ⟨log'', alike, left⟩ := pop_withLog (s := unwound t) alike
        have same : (unwound (t.withLog log')).pop = (unwound t).pop.withLog log'' := left
        show Tied _ (.done t.pending (unwound t).pop) (.done t.pending (unwound (t.withLog log')).pop)
        rw [same]
        exact .done alike
    | failed alike => exact .failed alike
    | parted mem writes shown fails continues =>
        refine .parted mem writes shown fails ?_
        cases o with
        | done a t =>
            show _ <+: (unwound t).pop.output.toList
            rw [pop_output]
            exact continues
        | failed fault t => exact continues
        | outOfFuel => trivial

/-! ## Single steps -/

/-- A step that takes no notice of the log. -/
structure Blind (x : Exec α) : Prop where
  goesOn : ∀ s, (x s).Continues s
  same : ∀ s, (∃ a t, x s = .done a t ∧ t.log = s.log ∧
      ∀ log, x (s.withLog log) = .done a (t.withLog log)) ∨
    ∃ fault t, x s = .failed fault t ∧ t.log = s.log ∧
      ∀ log, x (s.withLog log) = .failed fault (t.withLog log)

theorem Blind.lockstep {x : Exec α} (h : Blind x) {found} : Lockstep found x := by
  constructor
  · exact h.goesOn
  · intro s log alike
    rcases h.same s with ⟨a, t, quiet, kept, verbose⟩ | ⟨fault, t, quiet, kept, verbose⟩
    · rw [quiet, verbose]
      rw [← kept] at alike
      exact .done alike
    · rw [quiet, verbose]
      rw [← kept] at alike
      exact .failed alike

/-- What comes after an execution, if nothing is written out any more. -/
theorem lockstep_bindPlain {x : Exec α} {f : α → Exec β} {found} (hx : Lockstep found x)
    (hf : ∀ a, Lockstep noEvents (f a)) : Lockstep found (x >>= f) := by
  have both := lockstep_bind hx hf
  rwa [inTurn_noEvents] at both

theorem blind_lookUp {look : Session → Except Limit α}
    (free : ∀ s log, look (s.withLog log) = look s) : Blind (get look >>= orLimit) := by
  constructor
  · intro s
    rw [lookUp_apply]
    cases look s <;> exact List.prefix_rfl
  · intro s
    simp only [lookUp_apply, free]
    cases look s with
    | ok a => exact Or.inl ⟨a, s, rfl, rfl, fun _ => rfl⟩
    | error limit => exact Or.inr ⟨_, s, rfl, rfl, fun _ => rfl⟩

theorem blind_name (id : Identifier) : Blind (name id) := by
  have free : ∀ s log, (withLog s log).scopes = s.scopes := fun _ _ => rfl
  constructor
  · intro s
    rw [name_apply]
    split
    · exact List.prefix_rfl
    · split
      · exact List.prefix_rfl
      · cases s.scopes.get id.name <;> exact List.prefix_rfl
  · intro s
    simp only [name_apply, free]
    split
    · exact Or.inl ⟨_, s, rfl, rfl, fun _ => rfl⟩
    · split
      · exact Or.inl ⟨_, s, rfl, rfl, fun _ => rfl⟩
      · cases s.scopes.get id.name with
        | ok v => exact Or.inl ⟨v, s, rfl, rfl, fun _ => rfl⟩
        | error cause => exact Or.inr ⟨_, s, rfl, rfl, fun _ => rfl⟩

theorem blind_store (ref : Ref) (key v : Value) : Blind (store ref key v) := by
  have free : ∀ s log, (withLog s log).heap = s.heap := fun _ _ => rfl
  constructor
  · intro s
    rw [store_apply]
    cases s.heap.store (s.heap.read ref) key v <;> exact List.prefix_rfl
  · intro s
    simp only [store_apply, free]
    cases s.heap.store (s.heap.read ref) key v with
    | ok pairs => exact Or.inl ⟨(), { s with heap := s.heap.write ref pairs }, rfl, rfl, fun _ => rfl⟩
    | error limit => exact Or.inr ⟨_, s, rfl, rfl, fun _ => rfl⟩

theorem blind_bind (name : String) (v : Value) : Blind (bind name v) := by
  have free : ∀ s log, (withLog s log).scopes = s.scopes := fun _ _ => rfl
  constructor
  · intro s
    rw [bindName_apply]
    cases s.scopes.bind name v <;> exact List.prefix_rfl
  · intro s
    simp only [bindName_apply, free]
    cases s.scopes.bind name v with
    | ok scopes => exact Or.inl ⟨(), { s with scopes := scopes }, rfl, rfl, fun _ => rfl⟩
    | error cause => exact Or.inr ⟨_, s, rfl, rfl, fun _ => rfl⟩

theorem blind_declare : ∀ (params : List Identifier) (args : List Value),
    Blind (declare params args)
  | [], _ => ⟨fun _ => List.prefix_rfl, fun s => Or.inl ⟨(), s, rfl, rfl, fun _ => rfl⟩⟩
  | _ :: _, [] => ⟨fun _ => List.prefix_rfl, fun s => Or.inl ⟨(), s, rfl, rfl, fun _ => rfl⟩⟩
  | param :: params, arg :: args => by
      have later := blind_declare params args
      have free : ∀ s log, (withLog s log).scopes = s.scopes := fun _ _ => rfl
      constructor
      · intro s
        rw [declare_cons_apply]
        cases s.scopes.declare param.name arg with
        | ok scopes => exact later.goesOn { s with scopes := scopes }
        | error cause => exact List.prefix_rfl
      · intro s
        simp only [declare_cons_apply, free]
        cases s.scopes.declare param.name arg with
        | ok scopes => exact later.same { s with scopes := scopes }
        | error cause => exact Or.inr ⟨_, s, rfl, rfl, fun _ => rfl⟩

/-- A step is logged in both sessions, unless a binding has no display. -/
theorem tied_note (rule : String) (location : Location) (fields fields' : Details) {s : Session}
    {log : StepLog} (alike : s.log.Alike log) (frame : Nat) :
    Tied (writingBindings frame (s.withLog log)) (note rule location fields s)
      (note rule location fields' (s.withLog log)) := by
  rw [note_apply, note_apply, step_quiet alike.isQuiet, step_verbose (s := s.withLog log) alike.isVerbose]
  -- the quiet step takes no snapshot, so only the verbose one can stop here
  cases shot : (s.withLog log).scopes.snapshot (s.withLog log).heap with
  | error limit =>
      obtain ⟨v, mem, fails⟩ := snapshot_error shot
      exact .parted List.mem_cons_self rfl mem fails List.prefix_rfl
  | ok env =>
      refine .done (alike.add ?_)
      show Entry.mk s.log.next _ _ _ none none = Entry.mk log.next _ _ _ none none
      rw [alike.next]
      rfl

theorem continues_note (rule : String) (location : Location) (fields : Details) (s : Session) :
    (note rule location fields s).Continues s := by
  rw [note_apply]
  cases s.step rule (some location) fields <;> exact List.prefix_rfl

theorem lockstep_note (frame : Nat) (rule : String) (location : Location) (fields : Details) :
    Lockstep (writingBindings frame) (note rule location fields) := by
  constructor
  · exact continues_note rule location fields
  · intro s log alike
    exact tied_note rule location fields fields alike frame

/-- The step of a call is logged in both sessions, though with different fields. -/
theorem lockstep_noteCall (frame : Nat) (name : String) (location : Location)
    (args : List Value) : Lockstep (writingCall frame name args) (noteCall name location args) := by
  constructor
  · refine continues_bind (fun s => ?_) (continues_note "CALL" location)
    rw [lookUp_apply]
    cases callFields name args s <;> exact List.prefix_rfl
  · intro s log alike
    have quiet := callFields_quiet alike.isQuiet name args
    have loud : (s.withLog log).log.verbose = true := alike.isVerbose
    have verbose := callFields_verbose loud name args
    have heap : (s.withLog log).heap = s.heap := rfl
    rw [heap] at verbose
    unfold noteCall writingCall
    simp only [bind_apply, get_apply, quiet, verbose]
    cases texts : args.mapM s.heap.display with
    | error limit =>
        obtain ⟨v, mem, fails⟩ := mapM_display_error texts
        refine .parted (r := ⟨s.withLog log, args⟩) List.mem_cons_self rfl mem fails ?_
        exact continues_note _ _ _ _
    | ok texts => exact (tied_note "CALL" location _ _ alike frame).mono (List.subset_cons_self _ _)

/-! ### Steps of expressions -/

theorem blind_value (a : α) : Blind (value a) :=
  ⟨fun _ => List.prefix_rfl, fun s => Or.inl ⟨a, s, rfl, rfl, fun _ => rfl⟩⟩

theorem blind_fail (cause : Cause) (location : Option Location) :
    Blind (fail cause location : Exec α) :=
  ⟨fun _ => List.prefix_rfl, fun s => Or.inr ⟨_, s, rfl, rfl, fun _ => rfl⟩⟩

theorem blind_newArray (pairs : Pairs) : Blind (newArray pairs) :=
  ⟨fun _ => List.prefix_rfl, fun _ => Or.inl ⟨_, _, rfl, rfl, fun _ => rfl⟩⟩

theorem blind_function (location : Location) (params : List Identifier) (body : Block) :
    Blind (function location params body) :=
  ⟨fun _ => List.prefix_rfl, fun s => Or.inl ⟨_, s, rfl, rfl, fun _ => rfl⟩⟩

theorem blind_setPending (v : Value) : Blind (setPending v) :=
  ⟨fun _ => List.prefix_rfl, fun _ => Or.inl ⟨(), _, rfl, rfl, fun _ => rfl⟩⟩

theorem blind_emit (text : String) :
    Blind (modify fun s => { s with output := s.output.push text }) := by
  refine ⟨fun s => ?_, fun _ => Or.inl ⟨(), _, rfl, rfl, fun _ => rfl⟩⟩
  show s.output.toList <+: (s.output.push text).toList
  rw [Array.toList_push]
  exact List.prefix_append _ _

/-- A print is logged once its text is there, and the text is put out behind that. -/
theorem lockstep_printing (frame : Nat) (location : Location) (v : Value) :
    Lockstep (writingPrint frame v) (printing location v) := by
  have shown : Blind (get (·.heap.display v) >>= orLimit) := blind_lookUp fun _ _ => rfl
  have emitted : ∀ text, Lockstep noEvents
      (modify (fun s => { s with output := s.output.push text }) >>= fun _ =>
        value Value.nothing) :=
    fun text => lockstep_bindPlain (blind_emit text).lockstep fun _ => (blind_value _).lockstep
  have logged := fun text =>
    lockstep_bindPlain (lockstep_note frame "PRINT" location [("output", .text text)]) fun _ =>
      emitted text
  have all : Lockstep (inTurn noEvents _ fun _ => writingBindings frame) _ :=
    lockstep_bind shown.lockstep logged
  rw [printing, ← bind_assoc]
  exact all

theorem lockstep_grown (frame : Nat) (array : Option Ref) (sofar : Pairs) (key v : Value) :
    Lockstep (heardBuild frame array sofar key v) (grown sofar key v) := by
  have keep : Blind (grown sofar key v) := blind_lookUp fun _ _ => rfl
  exact keep.lockstep

theorem Lockstep.of_sessions {x : Exec α} {found}
    (h : ∀ s, ∃ same, same s = found s ∧ Lockstep same x) : Lockstep found x := by
  refine ⟨fun s => ?_, fun s log alike => ?_⟩
  · obtain ⟨_, -, lockstep⟩ := h s
    exact lockstep.goesOn s
  · obtain ⟨_, same, lockstep⟩ := h (s.withLog log)
    exact same ▸ lockstep.tied alike

/-! ## Programs -/

theorem lockstep_call (frame : Nat) (name : String) (location : Location)
    (params : List Identifier) (args : List Value) {body : Exec Unit}
    {inside : Nat → Session → List Event} (h : ∀ callee, Lockstep (inside callee) body) :
    Lockstep (ahead (writingCall frame name args)
        (historyOfCall frame name location params args body inside))
      (noteCall name location args >>= fun _ =>
        activate name location (declare params args >>= fun _ => body)) := by
  have declared : Lockstep noEvents (declare params args) := (blind_declare params args).lockstep
  have bound := fun callee => lockstep_bind declared fun _ => h callee
  have all := lockstep_bind (lockstep_noteCall frame name location args) fun _ =>
    lockstep_activate name location bound
  refine all.mono fun s => List.append_subset.mpr ⟨List.subset_append_left _ _, ?_⟩
  refine List.Subset.trans ?_ (List.subset_append_right _ _)
  cases here : noteCall name location args s with
  | done _ t =>
      rw [historyOfCall, inTurn_done here]
      exact List.Subset.trans (List.subset_append_left _ _) (List.subset_append_right _ _)
  | failed | outOfFuel => exact List.nil_subset _

theorem tracked_lockstep : Tracked (fun _ _ _ _ found x => Lockstep found x)
    fun _ _ _ _ found x => Lockstep found x where
  value a _ := (blind_value a).lockstep
  fail location _ := (blind_fail _ location).lockstep
  exhausted := ⟨fun _ => trivial, fun _ _ _ => .unfinished⟩
  andThen := lockstep_bind
  ofExpr lockstep := lockstep
  sequence := lockstep_bind
  inScope := lockstep_inScope
  noteStatement _ := (lockstep_note _ _ _ _).ahead
  name id := (blind_name id).lockstep
  function location params body := (blind_function location params body).lockstep
  fetch _ _ := (blind_lookUp fun _ _ => rfl).lockstep
  bind name v _ := (blind_bind name v).lockstep
  setPending v _ := (blind_setPending v).lockstep
  store ref key v _ _ := (blind_store ref key v).lockstep
  array elements each :=
    array_of_each (fun _ => (blind_value _).lockstep) lockstep_bind (lockstep_grown _)
      (fun e => each e []) (fun _ => (blind_newArray _).lockstep) .of_sessions elements
  printed location v := (lockstep_printing _ location v).ahead
  refused name location args :=
    (lockstep_bindPlain (lockstep_noteCall _ name location args) fun _ =>
      (blind_fail _ _).lockstep).ahead
  call {frame _} name location params args _ _ _ _ h :=
    lockstep_call frame name location params args h

/-! ## Runs -/

theorem tied_programBody (budget : Budget) (program : Program) {s : Session} {log : StepLog}
    (alike : s.log.Alike log) :
    Tied (historyOfBody budget program s.frames (s.withLog log).begun)
      (programBody budget program s.begun) (programBody budget program (s.withLog log).begun) :=
  (tracked_lockstep.programBody budget program s.frames).tied (s := s.begun) alike

/-- A fault is blamed on the same place in both sessions. -/
theorem blame_withLog {s : Session} {log : StepLog} (alike : s.log.Alike log) (fault : Fault) :
    (s.withLog log).blame fault = s.blame fault := by
  have last : (s.withLog log).log.last.bind Entry.location = s.log.last.bind Entry.location :=
    alike.last_location.symm
  unfold blame
  rw [last]

/-- A verbose run has stopped at a value that it was to write out for its log: a binding
in the current scope of some step, or an argument of some call. The value has no display,
since an array in it contains itself or a number in it is too long. -/
def StoppedAtRendering (budget : Budget) (source : Source) (s : Session)
    (verbose : Ending × Session) : Prop :=
  ∃ program, Program.ofSource source = .ok program ∧
    ∃ r ∈ renderingsOfRun budget program s, ∃ v ∈ r.values, ∃ limit,
      r.session.heap.display v = .error limit ∧ r.session.heap.Undisplayable v limit ∧
      verbose.1 = .failed ⟨.limit limit, verbose.2.log.last.bind Entry.location⟩

/-- One source, run in a quiet and in a verbose session that are alike. -/
theorem runSource_alike (budget : Budget) (source : Source) {s : Session} {log : StepLog}
    (alike : s.log.Alike log) (finishes : (s.runSource budget source).1 ≠ .unfinished) :
    let quiet := s.runSource budget source
    let verbose := (s.withLog log).runSource budget source
    quiet.1 = verbose.1 ∧ Alike quiet.2 verbose.2 ∨
      StoppedAtRendering budget source (s.withLog log) verbose ∧
        verbose.2.output.toList <+: quiet.2.output.toList := by
  intro quiet verbose
  cases read : Program.ofSource source with
  | error fault =>
      have quietEnd : quiet = (.rejected fault, s) := by simp only [quiet, runSource, read]
      have verboseEnd : verbose = (.rejected fault, s.withLog log) := by
        simp only [verbose, runSource, read]
      rw [quietEnd, verboseEnd]
      exact Or.inl ⟨rfl, .of_log alike⟩
  | ok program =>
      have tied := tied_programBody budget program alike
      have quietEnd : quiet = _ := runSource_eq read budget s
      have verboseEnd : verbose = _ := runSource_eq read budget (s.withLog log)
      have ends : quiet.1 ≠ .unfinished := finishes
      -- from here on only the two outcomes matter, and how they are tied
      generalize programBody budget program s.begun = o at tied quietEnd
      generalize programBody budget program (s.withLog log).begun = o' at tied verboseEnd
      rw [quietEnd, verboseEnd]
      rw [quietEnd] at ends
      cases tied with
      | unfinished => exact absurd rfl ends
      | done alike =>
          obtain ⟨log', alike, left⟩ := pop_withLog alike
          dsimp only
          rw [left]
          exact Or.inl ⟨rfl, .of_log alike⟩
      | failed alike =>
          dsimp only
          rw [blame_withLog alike]
          exact Or.inl ⟨rfl, .of_log alike⟩
      | @parted _ e r v limit t mem writes shown fails continues =>
          have found : r ∈ renderingsOfRun budget program (s.withLog log) :=
            List.mem_filterMap.mpr ⟨e, mem, writes⟩
          refine Or.inr ⟨⟨program, read, r, found, v, shown, limit, fails,
            Heap.display_error fails, rfl⟩, ?_⟩
          cases o with
          | done a u =>
              dsimp only
              rw [pop_output]
              exact continues
          | failed fault u => exact continues
          | outOfFuel => exact absurd rfl ends

/-- **Verbosity changes nothing but the log.** If the quiet run of a source finishes, so
does the verbose one, with the same ending, reported alike, and the same session up to
what only a verbose log records. The one other thing that can happen is that the verbose
run stops at a value that it was to write out, with less output. -/
theorem runSource_verbose (budget : Budget) (source : Source)
    (finishes : ((initial false).runSource budget source).1 ≠ .unfinished) :
    let quiet := (initial false).runSource budget source
    let verbose := (initial true).runSource budget source
    verbose.1 ≠ .unfinished ∧
      (quiet.1 = verbose.1 ∧ Alike quiet.2 verbose.2 ∧
          (∀ fault, quiet.2.report fault = verbose.2.report fault) ∨
        StoppedAtRendering budget source (initial true) verbose ∧
          verbose.2.output.toList <+: quiet.2.output.toList) := by
  intro quiet verbose
  rcases runSource_alike budget source StepLog.Alike.initial finishes with
    ⟨ending, alike⟩ | ⟨stopped, shorter⟩
  · have same : quiet.1 = verbose.1 := ending
    refine ⟨?_, Or.inl ⟨same, alike, alike.report⟩⟩
    rw [← same]
    exact finishes
  · refine ⟨?_, Or.inr ⟨stopped, shorter⟩⟩
    obtain ⟨program, -, r, -, v, -, limit, -, -, failed⟩ := stopped
    intro unfinished
    have both := failed.symm.trans unfinished
    cases both

/-- An array that is stored in itself, and one more step. -/
def ouroboros : Source :=
  ⟨"ouroboros", "a = []; a[0] = a; ;"⟩

theorem runSource_verbose_ouroboros :
    ((initial false).runSource ⟨20, 2⟩ ouroboros).1 ≠ .unfinished ∧
    let quiet := (initial false).runSource ⟨20, 2⟩ ouroboros
    let verbose := (initial true).runSource ⟨20, 2⟩ ouroboros
    verbose.1 ≠ .unfinished ∧
      (quiet.1 = verbose.1 ∧ Alike quiet.2 verbose.2 ∧
          (∀ fault, quiet.2.report fault = verbose.2.report fault) ∨
        StoppedAtRendering ⟨20, 2⟩ ouroboros (initial true) verbose ∧
          verbose.2.output.toList <+: quiet.2.output.toList) := by
  have finishes : ((initial false).runSource ⟨20, 2⟩ ouroboros).1 ≠ .unfinished := by
    have done : (finish? ((initial false).runSource ⟨20, 2⟩ ouroboros)).isSome := by decide +kernel
    obtain ⟨_, finished⟩ := Option.isSome_iff_exists.mp done
    rw [of_finish? finished]
    intro unfinished
    cases unfinished
  exact ⟨finishes, runSource_verbose ⟨20, 2⟩ ouroboros finishes⟩

end Session

end Mini
