import Mini.Proofs.Execution.Parallel
import Mini.Proofs.Execution.Verbosity
import Mini.Proofs.Scopes.Relabelled
import Mini.Proofs.Syntax.Renaming

/-!
# Names have no meaning of their own

A program and the same program under new names run in step. What they hold differs in the names of
bindings and in those of the functions that they hold, and what they log in the names of the
functions that they call. Nothing of this is printed, compared or counted; only the fault for a name
that is not bound says it.

This is about quiet sessions. A verbose log also keeps the bindings, by name.
-/

namespace Mini

/-! ## What is left without names -/

/-- A step without the name of the function that is called. -/
def Entry.unnamed (e : Entry) : Entry :=
  { e with details := e.details.map (·.erase "function") }

/-- A frame without the name of the function that was called. -/
def Frame.unnamed (f : Frame) : Frame :=
  { f with name := "" }

/-- A log without the names of the functions that were called. -/
def StepLog.unnamed (log : StepLog) : StepLog where
  verbose := log.verbose
  entries := log.entries.map Entry.unnamed
  last := log.last.map Entry.unnamed
  next := log.next
  lastOf := log.lastOf.mapValues Entry.unnamed

/-- A cause with a new name, if it says one. -/
def Cause.rename (f : String → String) : Cause → Cause
  | .undefined name => .undefined (f name)
  | other => other

/-- A fault of the same place with a new name, if its cause says one. -/
def Fault.rename (f : String → String) (fault : Fault) : Fault :=
  ⟨fault.cause.rename f, fault.location⟩

/-- Two faults of one place and one kind, that say the same but for a name. -/
structure Fault.SameButNames (f : String → String) (fault fault' : Fault) : Prop where
  location : fault'.location = fault.location
  rule : fault'.cause.rule = fault.cause.rule
  cause : fault'.cause = fault.cause.rename f

/-- Two sessions with the same output, the same numbers of steps and frames, the same steps in their
logs and the same frames on their stacks, but for names. -/
structure Session.SameButNames (s s' : Session) : Prop where
  output : s'.output = s.output
  steps : s'.log.next = s.log.next
  frames : s'.frames = s.frames
  log : s'.log.unnamed = s.log.unnamed
  stack : s'.stack.map Frame.unnamed = s.stack.map Frame.unnamed

/-- Two runs that end alike, but for names. -/
inductive Outcome.SameButNames (f : String → String) : Outcome Unit → Outcome Unit → Prop
  | done {s s' : Session} : s.SameButNames s' → SameButNames f (.done () s) (.done () s')
  | failed {fault fault' : Fault} {s s' : Session} : fault.SameButNames f fault' →
      s.SameButNames s' → SameButNames f (.failed fault s) (.failed fault' s')
  | outOfFuel : SameButNames f .outOfFuel .outOfFuel

theorem Cause.rename_of_nameless {cause : Cause} (nameless : cause.Nameless) (f : String → String) :
    cause.rename f = cause := by
  cases cause with
  | undefined => exact nameless.elim
  | _ => rfl

/-- A name is declared or bound unless there is no scope. -/
theorem Scopes.declare_error {s : Scopes} {name : String} {v : Value} {cause : Cause}
    (failed : s.declare name v = .error cause) : cause = .noScope := by
  unfold declare at failed
  split at failed
  · cases failed
    rfl
  · cases failed

theorem Scopes.bind_error {s : Scopes} {name : String} {v : Value} {cause : Cause}
    (failed : s.bind name v = .error cause) : cause = .noScope := by
  unfold bind at failed
  split at failed
  · cases failed
  · exact declare_error failed

/-- All that a quiet session logs of a call is the name of the function. -/
theorem Session.noteCall_quiet {s : Session} (quiet : s.log.verbose = false) (name : String)
    (location : Location) (args : List Value) :
    noteCall name location args s = Exec.note "CALL" location [("function", .text name)] s := by
  unfold noteCall
  rw [Exec.bind_apply, Exec.lookUp_apply, callFields_quiet quiet]

namespace StepLog

theorem unnamed_add (log : StepLog) (e : Entry) :
    (log.add e).unnamed = log.unnamed.add e.unnamed := by
  obtain ⟨verbose, entries, last, next, lastOf⟩ := log
  obtain ⟨index, frame, location, statement, env, details⟩ := e
  cases verbose <;> cases frame <;>
    simp [unnamed, add, Entry.unnamed, OrderedMap.mapValues_put]

theorem unnamed_release (log : StepLog) (frame : Nat) :
    (log.release frame).unnamed = log.unnamed.release frame := by
  simp [unnamed, release, OrderedMap.mapValues_erase]

/-- Both logs blame the same place. -/
theorem last_location {log log' : StepLog} (same : log'.unnamed = log.unnamed) :
    log'.last.bind Entry.location = log.last.bind Entry.location := by
  have unnamed : ∀ last : Option Entry,
      (last.map Entry.unnamed).bind Entry.location = last.bind Entry.location := by
    intro last
    cases last <;> rfl
  rw [← unnamed, ← unnamed log.last]
  exact congrArg (·.last.bind Entry.location) same

end StepLog

namespace Renaming

variable (r : Renaming)

/-! ## Sessions in step -/

/-- The second session is the first one under new names. -/
structure InStep (s s' : Session) : Prop where
  heap : s'.heap.arrays = s.heap.arrays.map r.relabelling.pairs
  scopes : s'.scopes = r.relabelling.scopes s.scopes
  quiet : s.log.verbose = false
  log : s'.log.unnamed = s.log.unnamed
  stack : s'.stack.map Frame.unnamed = s.stack.map Frame.unnamed
  frames : s'.frames = s.frames
  pending : s'.pending = r.relabelling.value s.pending
  output : s'.output = s.output
  runs : s'.runs = s.runs

/-- Two executions that go on in step. A fault for want of a name says the new name. -/
abbrev Follows ⦃α : Type⦄ (relabel : α → α) (x y : Exec α) : Prop :=
  Exec.Beside r.InStep (Fault.rename r.name) relabel x y

variable {r} {α β : Type}

namespace InStep

variable {s s' : Session} (h : r.InStep s s')
include h

theorem quiet' : s'.log.verbose = false :=
  (congrArg StepLog.verbose h.log).trans h.quiet

theorem next : s'.log.next = s.log.next := by
  have same := congrArg StepLog.next h.log
  exact same

theorem carries : r.relabelling.Carries s.heap s'.heap := by
  constructor
  · intro ref
    show s'.heap.arrays[ref.index]?.getD [] = _
    rw [h.heap, Array.getElem?_map, Heap.read]
    cases s.heap.arrays[ref.index]? <;> rfl
  · rw [h.heap, Array.size_map]

theorem fresh : s'.heap.fresh = s.heap.fresh := by
  rw [Heap.fresh, h.heap, Array.size_map, Heap.fresh]

theorem add (items : Pairs) :
    r.InStep { s with heap := s.heap.add items }
      { s' with heap := s'.heap.add (r.relabelling.pairs items) } := by
  refine { h with heap := ?_ }
  show s'.heap.arrays.push _ = (s.heap.arrays.push _).map _
  rw [h.heap, Array.map_push]

theorem write (ref : Ref) (items : Pairs) :
    r.InStep { s with heap := s.heap.write ref items }
      { s' with heap := s'.heap.write ref (r.relabelling.pairs items) } := by
  refine { h with heap := ?_ }
  show s'.heap.arrays.setIfInBounds _ _ = (s.heap.arrays.setIfInBounds _ _).map _
  rw [h.heap, Array.map_setIfInBounds]

/-- The innermost frames have the same number. -/
theorem head : s'.stack.head?.map Frame.id = s.stack.head?.map Frame.id := by
  have unnamed : ∀ stack : List Frame,
      (stack.map Frame.unnamed).head?.map Frame.id = stack.head?.map Frame.id := by
    intro stack
    cases stack <;> rfl
  rw [← unnamed, ← unnamed s.stack, h.stack]

/-- The next step is the same, but for what is to be said about it. -/
theorem entry (location : Option Location) (statement : Option String)
    (env : Option (OrderedMap String String)) (details : Option Details) :
    s'.entry location statement env details = s.entry location statement env details := by
  rw [Session.entry, Session.entry, h.head, StepLog.entry, StepLog.entry, h.next]

theorem record {e e' : Entry} (same : e'.unnamed = e.unnamed) :
    r.InStep (s.record e) (s'.record e') := by
  refine { h with log := ?_ }
  show (s'.log.add e').unnamed = (s.log.add e).unnamed
  rw [StepLog.unnamed_add, StepLog.unnamed_add, same, h.log]

theorem push (name name' : String) (location : Option Location) :
    r.InStep (s.push name location) (s'.push name' location) := by
  refine { h with stack := ?_, frames := ?_ }
  · simp [Session.push, Frame.unnamed, h.stack, h.frames]
  · simp [Session.push, h.frames]

theorem pop : r.InStep s.pop s'.pop := by
  have stack := h.stack
  unfold Session.pop
  cases top : s.stack with
  | nil =>
      rw [top, List.map_nil, List.map_eq_nil_iff] at stack
      rw [stack]
      exact h
  | cons frame rest =>
      rw [top] at stack
      obtain ⟨frame', rest', top', same, stack⟩ := List.map_eq_cons_iff.mp stack
      have unnamed := congrArg Frame.id same
      have id : frame'.id = frame.id := unnamed
      rw [top']
      refine { h with log := ?_, stack := stack }
      show (s'.log.release frame'.id).unnamed = (s.log.release frame.id).unnamed
      rw [StepLog.unnamed_release, StepLog.unnamed_release, id, h.log]

theorem enter :
    r.InStep { s with scopes := s.scopes.enter } { s' with scopes := s'.scopes.enter } := by
  refine { h with scopes := ?_ }
  show s'.scopes.enter = _
  rw [h.scopes, r.relabelling.enter_scopes]

theorem leave :
    r.InStep { s with scopes := s.scopes.leave } { s' with scopes := s'.scopes.leave } := by
  refine { h with scopes := ?_ }
  show s'.scopes.leave = _
  rw [h.scopes, r.relabelling.leave_scopes]

/-- What is under a name is under its new name. -/
theorem get (name : String) :
    s'.scopes.get (r.name name) =
      match s.scopes.get name with
      | .ok v => .ok (r.relabelling.value v)
      | .error missing => .error (missing.rename r.name) := by
  have found := r.relabelling.get_scopes s.scopes name
  have renamed : r.relabelling.cause = Cause.rename r.name := by
    funext cause
    cases cause <;> rfl
  rw [← h.scopes, renamed] at found
  exact found

theorem bind (name : String) (v : Value) :
    s'.scopes.bind (r.name name) (r.relabelling.value v) =
      (s.scopes.bind name v).map r.relabelling.scopes := by
  rw [h.scopes]
  exact r.relabelling.bind_scopes s.scopes name v

theorem declare (name : String) (v : Value) :
    s'.scopes.declare (r.name name) (r.relabelling.value v) =
      (s.scopes.declare name v).map r.relabelling.scopes := by
  rw [h.scopes]
  exact r.relabelling.declare_scopes s.scopes name v

end InStep

/-! ## Executions in step -/

namespace Follows

theorem fail (relabel : α → α) {cause : Cause} (nameless : cause.Nameless)
    (location : Option Location) :
    r.Follows relabel (Exec.fail cause location) (Exec.fail cause location) := by
  intro s s' h
  have ends : Exec.EndsBeside r.InStep (Fault.rename r.name) relabel (.failed ⟨cause, location⟩ s)
      (.failed ⟨_, location⟩ s') := .failed h
  rw [Cause.rename_of_nameless nameless] at ends
  exact ends

theorem inScope {relabel : α → α} {x y : Exec α} (inner : r.Follows relabel x y) :
    r.Follows relabel (Exec.inScope x) (Exec.inScope y) :=
  Exec.Beside.inScope InStep.enter InStep.leave inner

/-! ### Single steps -/

/-- Two steps of which the same is to be said, but for the name of a function. -/
theorem noteUnnamed (rule : String) (location : Location) {fields fields' : Details}
    (same : (OrderedMap.putAll [("rule", .text rule)] fields').erase "function" =
      (OrderedMap.putAll [("rule", .text rule)] fields).erase "function") :
    r.Follows id (Exec.note rule location fields) (Exec.note rule location fields') := by
  intro s s' h
  rw [Exec.note_ok (Session.step_quiet h.quiet _ _ _),
    Exec.note_ok (Session.step_quiet h.quiet' _ _ _)]
  refine .done (h.record ?_)
  rw [h.entry]
  simp [Entry.unnamed, Session.entry, StepLog.entry, same]

theorem noteCall (name name' : String) (location : Location) (args args' : List Value) :
    r.Follows id (Session.noteCall name location args) (Session.noteCall name' location args') := by
  intro s s' h
  rw [Session.noteCall_quiet h.quiet, Session.noteCall_quiet h.quiet']
  refine noteUnnamed "CALL" location ?_ h
  simp [OrderedMap.putAll, OrderedMap.put, OrderedMap.erase]

theorem name (id : Identifier) :
    r.Follows r.relabelling.value (Exec.name id) (Exec.name (r.relabelling.identifier id)) := by
  intro s s' h
  have reserved : ∀ word ∈ reservedNames, (r.name id.name = word ↔ id.name = word) :=
    fun word mem => r.relabelling.name_reserved word mem id.name
  have same : (r.relabelling.identifier id).name = r.name id.name := rfl
  rw [Exec.name_apply, Exec.name_apply, same, h.get]
  simp only [reserved "true" (by decide), reserved "false" (by decide)]
  split
  · exact .done h
  · split
    · exact .done h
    · cases s.scopes.get id.name with
      | ok v => exact .done h
      | error missing => exact .failed h

theorem function (location : Location) (params : List Identifier) (body : Block) :
    r.Follows r.relabelling.value (Exec.function location params body)
      (Exec.function location (params.map r.relabelling.identifier)
        (r.relabelling.block body)) := by
  intro s s' h
  show Exec.EndsBeside _ _ _ (.done (Value.function ⟨⟨s.runs, _, _⟩, params, body⟩) s)
    (.done (Value.function ⟨⟨s'.runs, _, _⟩, _, _⟩) s')
  rw [h.runs]
  exact .done h

theorem newArray (items : Pairs) :
    r.Follows r.relabelling.value (Exec.newArray items)
      (Exec.newArray (r.relabelling.pairs items)) := by
  intro s s' h
  rw [Exec.newArray_apply, Exec.newArray_apply, h.fresh]
  exact .done (h.add items)

theorem store (ref : Ref) (key v : Value) :
    r.Follows id (Exec.store ref key v)
      (Exec.store ref (r.relabelling.value key) (r.relabelling.value v)) := by
  intro s s' h
  have read : s'.heap.read ref = r.relabelling.pairs (s.heap.read ref) := h.carries.read ref
  rw [Exec.store_apply, Exec.store_apply, read, h.carries.store]
  cases s.heap.store (s.heap.read ref) key v with
  | ok items => exact .done (h.write ref items)
  | error limit => exact .failed h

theorem bindName (name : String) (v : Value) :
    r.Follows id (Exec.bind name v) (Exec.bind (r.name name) (r.relabelling.value v)) := by
  intro s s' h
  rw [Exec.bindName_apply, Exec.bindName_apply, h.bind]
  cases bound : s.scopes.bind name v with
  | ok scopes => exact .done { h with scopes := rfl }
  | error cause =>
      rw [Scopes.bind_error bound]
      exact .failed h

theorem declare : ∀ (params : List Identifier) (args : List Value),
    r.Follows id (Exec.declare params args)
      (Exec.declare (params.map r.relabelling.identifier) (args.map r.relabelling.value))
  | [], _ => .value id ()
  | _ :: _, [] => .value id ()
  | param :: params, arg :: args => by
      intro s s' h
      have same : (r.relabelling.identifier param).name = r.name param.name := rfl
      rw [List.map_cons, List.map_cons, Exec.declare_cons_apply, Exec.declare_cons_apply, same,
        h.declare]
      cases declared : s.scopes.declare param.name arg with
      | ok scopes => exact declare params args { h with scopes := rfl }
      | error cause =>
          rw [Scopes.declare_error declared]
          exact .failed h

/-- A call of two functions whose bodies go on in step. -/
theorem activate (name name' : String) (location : Location) {body body' : Exec Unit}
    (inner : r.Follows id body body') :
    r.Follows r.relabelling.value (Exec.activate name location body)
      (Exec.activate name' location body') := by
  intro s s' h
  have begun : r.InStep (Exec.activated name location s) (Exec.activated name' location s') :=
    (h.push name name' (some location)).enter
  have unwound : ∀ {t t'}, r.InStep t t' → r.InStep (Exec.unwound t) (Exec.unwound t') :=
    fun h => { h.leave with pending := rfl }
  rw [Exec.activate_apply, Exec.activate_apply]
  have ends := inner begun
  generalize body _ = o at ends
  generalize body' _ = o' at ends
  cases ends with
  | done h =>
      dsimp only
      rw [h.pending]
      exact .done (unwound h).pop
  | failed h => exact .failed (unwound h)
  | outOfFuel => exact .outOfFuel

end Follows

/-- **Under new names everything goes on in step.** -/
theorem parallel (r : Renaming) : Exec.Parallel r.relabelling r.Follows where
  value := Exec.Beside.value
  fail relabel cause nameless location := by
    cases location <;> exact Follows.fail relabel nameless _
  exhausted _ _ _ _ := .outOfFuel
  andThen first later := first.andThen later
  call callee location params args fuel calls statements h :=
    (Follows.noteCall _ _ location args _).andThen fun _ =>
      Follows.activate _ _ location ((Follows.declare params args).andThen fun _ => h)
  note rule location fields := Follows.noteUnnamed rule location rfl
  noteCall callee location args := Follows.noteCall _ _ location args _
  name := Follows.name
  function := Follows.function
  newArray := Follows.newArray
  fetch ref key := .lookUp _ (fun _ => rfl) fun h => by
    have read := h.carries.read ref
    rw [read, h.carries.lookup]
  keep items key v := .lookUp _ (fun _ => rfl) fun h => h.carries.store items key v
  display v := .lookUp _ (fun _ => rfl) fun h => by
    rw [h.carries.display, Except.map_id]
    rfl
  emit text := .modify fun h => { h with output := by rw [h.output] }
  inScope := Follows.inScope
  bind := Follows.bindName
  store := Follows.store
  setPending v := .modify fun h => { h with pending := rfl }

/-! ## Runs -/

theorem InStep.initial : r.InStep (Session.initial false) (Session.initial false) := by
  refine ⟨?_, ?_, rfl, rfl, rfl, rfl, rfl, rfl, rfl⟩
  · exact Array.map_empty.symm
  · exact congrArg (Scopes.mk · none) Array.map_empty.symm

theorem InStep.sameButNames {s s' : Session} (h : r.InStep s s') : s.SameButNames s' :=
  ⟨h.output, h.next, h.frames, h.log, h.stack⟩

/-- The place of a fault that is blamed on the newest step is the same, too. -/
theorem InStep.blame {s s' : Session} (h : r.InStep s s') (fault : Fault) :
    (s.blame fault).SameButNames r.name (s'.blame (fault.rename r.name)) := by
  obtain ⟨cause, location⟩ := fault
  cases cause with
  | limit limit => exact ⟨StepLog.last_location h.log, rfl, rfl⟩
  | _ => exact ⟨rfl, rfl, rfl⟩

theorem run_sameButNames {s s' : Session} (h : r.InStep s s') (budget : Session.Budget)
    (p : Program) :
    Outcome.SameButNames r.name (s.run budget p) (s'.run budget (r.relabelling.program p)) := by
  have begun : r.InStep s.begun s'.begun :=
    { h.push Session.topLevel Session.topLevel none with runs := congrArg (· + 1) h.runs }
  have ends := r.parallel.programBody budget p begun
  rw [Session.run_eq, Session.run_eq]
  generalize Session.programBody budget p s.begun = o at ends
  generalize Session.programBody budget _ s'.begun = o' at ends
  cases ends with
  | done h => exact .done h.pop.sameButNames
  | failed h => exact .failed (h.blame _) h.sameButNames
  | outOfFuel => exact .outOfFuel

end Renaming

/-! ## Renamed programs -/

namespace Session

/-- A run misses no name but those of its program: under any renaming that leaves these alone it
misses the same one. -/
theorem missing_mem_names {budget : Budget} {p : Program} {n : String} {location : Option Location}
    {s : Session} (failed : (initial false).run budget p = .failed ⟨.undefined n, location⟩ s) :
    n ∈ reservedNames ∨ n ∈ p.names := by
  by_contra other
  rw [not_or] at other
  obtain ⟨r, keeps, moves⟩ := Renaming.identity.exists_differing other.1 other.2
  have unchanged : r.relabelling.program p = p := by
    rw [Renaming.program_eq keeps, Program.rename_identity]
  have ends := Renaming.run_sameButNames (r := r) .initial budget p
  rw [unchanged, failed] at ends
  cases ends with
  | failed fault _ =>
      have renamed := Cause.undefined.inj fault.cause
      exact moves renamed.symm

/-- **Names have no meaning of their own.** Take any program, and new names for its names that keep
them apart and leave `print`, `true` and `false` what they are. With any budget the program under
the new names ends as the program does: it is done or unfinished where that is, or fails at the same
place under the same rule, for the same cause but for the new name of a name that is not bound. The
output, the numbers of steps and frames, the steps that are kept and the frames on the stack are the
same, but for names. -/
theorem run_renamed (p : Program) (f : String → String)
    (apart : Set.InjOn f {n | n ∈ reservedNames ∨ n ∈ p.names})
    (fixes : ∀ reserved ∈ reservedNames, f reserved = reserved) (budget : Budget) :
    Outcome.SameButNames f ((initial false).run budget p)
      ((initial false).run budget (p.rename f)) := by
  obtain ⟨r, agrees⟩ := Renaming.exists_agreeing apart fixes
  have ends := Renaming.run_sameButNames (r := r) .initial budget p
  rw [Renaming.program_eq agrees] at ends
  generalize ended : (initial false).run budget p = o at ends
  generalize (initial false).run budget (p.rename f) = o' at ends
  cases ends with
  | done same => exact .done same
  | outOfFuel => exact .outOfFuel
  | @failed fault fault' s s' alike same =>
      refine .failed ⟨alike.location, alike.rule, ?_⟩ same
      rw [alike.cause]
      obtain ⟨cause, location⟩ := fault
      cases cause with
      | undefined n =>
          have name : r.name n = f n := by
            rcases missing_mem_names ended with reserved | mem
            · rw [r.fixes n reserved, fixes n reserved]
            · exact agrees n mem
          exact congrArg Cause.undefined name
      | _ => rfl

theorem failedWith?_renamed {f : String → String} {o o' : Outcome Unit}
    (same : o.SameButNames f o') :
    failedWith? o' = (failedWith? o).map fun ended => (ended.1.rename f, ended.2) := by
  cases same with
  | done | outOfFuel => rfl
  | failed fault same => simp [failedWith?, fault.cause, same.output]

/-- A parameter, a selector and a name that is bound in a call, and then one that is not bound. -/
def selecting : Source :=
  ⟨"selecting", "x = 1; f = func(a) \x7b print(a.x); y = a; return lost; \x7d; f([1: 7]);"⟩

/-- Two names change places, and one gets a name that no other has. -/
def renamedSelecting (name : String) : String :=
  if name = "x" then "a" else if name = "a" then "x" else if name = "lost" then "gone" else name

theorem run_renamed_selecting :
    ∃ p, Program.ofSource selecting = .ok p ∧
      Set.InjOn renamedSelecting {n | n ∈ reservedNames ∨ n ∈ p.names} ∧
      (∀ reserved ∈ reservedNames, renamedSelecting reserved = reserved) ∧
      failedWith? ((initial false).run ⟨30, 9⟩ p) = some (.undefined "lost", #["7"]) ∧
      failedWith? ((initial false).run ⟨30, 9⟩ (p.rename renamedSelecting)) =
        some (.undefined "gone", #["7"]) := by
  have shown : ((Program.ofSource selecting).toOption.map fun p =>
      (p.names, failedWith? ((initial false).run ⟨30, 9⟩ p))) =
        some (["x", "f", "a", "print", "a", "x", "y", "a", "lost", "f"],
          some (.undefined "lost", #["7"])) := by
    decide +kernel
  have fixes : ∀ reserved ∈ reservedNames, renamedSelecting reserved = reserved := by decide
  cases read : Program.ofSource selecting with
  | error fault =>
      rw [read] at shown
      cases shown
  | ok p =>
      rw [read] at shown
      obtain ⟨names, failed⟩ := Prod.mk.inj (Option.some.inj shown)
      have apart : Set.InjOn renamedSelecting {n | n ∈ reservedNames ∨ n ∈ p.names} := by
        have distinct : ∀ n ∈ reservedNames ++ p.names, ∀ m ∈ reservedNames ++ p.names,
            renamedSelecting n = renamedSelecting m → n = m := by
          rw [names]
          decide +kernel
        intro n here m there
        exact distinct n (List.mem_append.mpr here) m (List.mem_append.mpr there)
      refine ⟨p, rfl, apart, fixes, failed, ?_⟩
      rw [failedWith?_renamed (run_renamed p renamedSelecting apart fixes ⟨30, 9⟩), failed]
      rfl

end Session

end Mini
