import Mini.Proofs.Execution.Closed
import Mini.Proofs.Execution.Verbosity
import Mini.Proofs.Scopes.Names

/-!
# Steps are only added

The number of the next step never goes down. A body begins with the step of its first statement,
so one that begins where a step can be logged does not fail before it has logged one.
-/

namespace Mini.Session

open Exec

variable {α β : Type}

/-! ## The number of the next step -/

/-- An execution takes no step back, however it ends. -/
structure Advances ⦃α : Type⦄ (x : Exec α) : Prop where
  done : ∀ ⦃s a t⦄, x s = .done a t → s.log.next ≤ t.log.next
  failed : ∀ ⦃s fault t⦄, x s = .failed fault t → s.log.next ≤ t.log.next

namespace Advances

theorem of_keeps {x : Exec α} (h : Keeps log x) : Advances x := by
  have next : Keeps (·.log.next) x := h.map StepLog.next
  exact ⟨fun _ _ _ done => Nat.le_of_eq (next.done done).symm,
    fun _ _ _ failed => Nat.le_of_eq (next.failed failed).symm⟩

theorem andThen ⦃α β : Type⦄ {x : Exec α} {f : α → Exec β} (first : Advances x)
    (later : ∀ a, Advances (f a)) : Advances (x >>= f) := by
  refine ⟨fun s b t done => ?_, fun s fault t failed => ?_⟩
  · obtain ⟨a, u, done, done'⟩ := bind_done done
    exact Nat.le_trans (first.done done) ((later a).done done')
  · obtain failed | ⟨a, u, done, failed⟩ := bind_failed failed
    · exact first.failed failed
    · exact Nat.le_trans (first.done done) ((later a).failed failed)

theorem lookUp (look : Session → Except Limit α) : Advances (get look >>= orLimit) :=
  of_keeps ((Keeps.lookUp look).map log)

theorem note (rule : String) (location : Location) (fields : Details) :
    Advances (note rule location fields) := by
  refine ⟨fun s a t done => ?_, fun s fault t failed => ?_⟩
  · rw [note_apply] at done
    split at done
    · cases done
      exact Nat.le_succ _
    · cases done
  · rw [note_apply] at failed
    split at failed
    · cases failed
    · cases failed
      exact Nat.le_refl _

theorem noteCall (name : String) (location : Location) (args : List Value) :
    Advances (noteCall name location args) :=
  (lookUp _).andThen fun fields => note "CALL" location fields

theorem inScope ⦃α : Type⦄ {x : Exec α} (h : Advances x) : Advances (inScope x) := by
  refine ⟨fun s a t done => ?_, fun s fault t failed => ?_⟩
  · obtain ⟨u, here, rfl⟩ := inScope_done done
    have next := h.done here
    exact next
  · obtain ⟨u, here, rfl⟩ := inScope_failed failed
    have next := h.failed here
    exact next

theorem activate (name : String) (location : Location) {body : Exec Unit} (h : Advances body) :
    Advances (activate name location body) := by
  refine ⟨fun s a t done => ?_, fun s fault t failed => ?_⟩
  · obtain ⟨u, here, rfl⟩ := activate_done done
    rw [pop_next]
    have next := h.done here
    exact next
  · obtain ⟨u, here, rfl⟩ := activate_failed failed
    have next := h.failed here
    exact next

end Advances

theorem closed_advances : Closed Advances where
  value _ := .of_keeps fun _ => rfl
  fail _ _ := .of_keeps fun _ => rfl
  exhausted := .of_keeps fun _ => trivial
  andThen first later := first.andThen later
  call name location params args _ _ _ h :=
    (Advances.noteCall name location args).andThen fun _ => .activate name location
      ((Advances.of_keeps ((Keeps.declare params args).map log)).andThen fun _ => h)
  note := Advances.note
  noteCall := Advances.noteCall
  name id := .of_keeps ((Keeps.name id).map log)
  function _ _ _ := .of_keeps fun _ => rfl
  newArray _ := .of_keeps fun _ => rfl
  fetch _ _ := .lookUp _
  keep _ _ _ := .lookUp _
  display _ := .lookUp _
  emit _ := .of_keeps fun _ => rfl
  inScope h := h.inScope
  bind name v := .of_keeps ((Keeps.bindName name v).map log)
  store ref key v := .of_keeps ((Keeps.store ref key v).map log)
  setPending _ := .of_keeps fun _ => rfl

/-! ## The first step of a body -/

/-- Any step can be logged here: the log takes no snapshot, or there is one. -/
def CanLog (s : Session) : Prop :=
  ∀ rule location fields, ∃ e, s.step rule location fields = .ok e

/-- What hinders a step is a binding of the current scope without a display. -/
theorem canLog_of_visible {s : Session}
    (shown : s.log.verbose = true → ∀ v ∈ s.visible, ∃ text, s.heap.display v = .ok text) :
    CanLog s := by
  intro rule location fields
  cases verbose : s.log.verbose with
  | false => exact ⟨_, step_quiet verbose rule location fields⟩
  | true =>
      rw [step_verbose verbose]
      cases shot : s.scopes.snapshot s.heap with
      | ok env => exact ⟨_, rfl⟩
      | error limit =>
          obtain ⟨v, mem, fails⟩ := snapshot_error shot
          obtain ⟨text, displayed⟩ := shown verbose v mem
          rw [displayed] at fails
          cases fails

/-- In a scope that has just been opened nothing is visible. -/
theorem visible_enter (s : Session) : visible { s with scopes := s.scopes.enter } = [] := by
  show (Scopes.bindings s.scopes.enter s.scopes.scopes.size).map _ = []
  rw [Scopes.bindings_of_getElem? (Scopes.enter_getElem? _)]
  rfl

/-! ### The session in which the body of a call begins -/

/-- A binding in the current scope makes nothing else visible. -/
theorem visible_putIn {s : Session} {handle : Nat} (current : s.scopes.current = some handle)
    (name : String) (v : Value) {w : Value}
    (mem : w ∈ visible { s with scopes := s.scopes.putIn handle name v }) :
    w ∈ s.visible ∨ w = v := by
  have after : (s.scopes.putIn handle name v).current = some handle := current
  rw [visible, after] at mem
  rw [visible, current]
  dsimp only at mem ⊢
  cases there : s.scopes.scopes[handle]? with
  | some scope =>
      rw [Scopes.bindings_of_getElem? (Scopes.putIn_getElem?_self v there)] at mem
      rw [Scopes.bindings_of_getElem? there]
      exact OrderedMap.mem_values_put mem
  | none =>
      have nowhere : (s.scopes.putIn handle name v).bindings handle = [] := by
        rw [Scopes.bindings, Scopes.putIn, Array.getElem?_modify, if_pos rfl, there]
        rfl
      rw [nowhere] at mem
      cases mem

/-- In a scope all parameters can be bound, and make nothing visible but the arguments. -/
theorem declare_ends :
    ∀ (params : List Identifier) (args : List Value) {s : Session} {handle : Nat},
    s.scopes.current = some handle →
    ∃ t, declare params args s = .done () t ∧ ∀ v ∈ t.visible, v ∈ s.visible ∨ v ∈ args
  | [], _, s, _, _ => ⟨s, rfl, fun _ mem => .inl mem⟩
  | _ :: _, [], s, _, _ => ⟨s, rfl, fun _ mem => .inl mem⟩
  | param :: params, arg :: args, s, handle, current => by
      have declared : s.scopes.declare param.name arg =
          .ok (s.scopes.putIn handle param.name arg) := by
        rw [Scopes.declare, current]
      have still : (s.scopes.putIn handle param.name arg).current = some handle := current
      obtain ⟨t, done, shown⟩ := declare_ends params args
        (s := { s with scopes := s.scopes.putIn handle param.name arg }) still
      refine ⟨t, ?_, fun v mem => ?_⟩
      · rw [declare_cons_apply, declared]
        exact done
      · rcases shown v mem with before | arg
        · refine (visible_putIn current _ _ before).imp_right fun same => ?_
          exact same ▸ List.mem_cons_self
        · exact .inr (List.mem_cons_of_mem _ arg)

theorem mapM_display_ok {h : Heap} : ∀ {args : List Value} {texts : List String},
    args.mapM h.display = .ok texts → ∀ v ∈ args, ∃ text, h.display v = .ok text
  | [], _, _, _, mem => absurd mem List.not_mem_nil
  | first :: rest, texts, ok, v, mem => by
      rw [List.mapM_cons] at ok
      cases shown : h.display first with
      | error limit =>
          rw [shown] at ok
          cases ok
      | ok text =>
          rw [shown] at ok
          rcases List.mem_cons.mp mem with rfl | mem
          · exact ⟨text, shown⟩
          · cases others : rest.mapM h.display with
            | error limit =>
                rw [others] at ok
                cases ok
            | ok texts => exact mapM_display_ok others v mem

/-- The arguments of a call that was logged have displays, if the log shows them. -/
theorem display_of_callFields {name : String} {args : List Value} {s : Session} {fields : Details}
    (described : callFields name args s = .ok fields) (verbose : s.log.verbose = true) :
    ∀ v ∈ args, ∃ text, s.heap.display v = .ok text := by
  rw [callFields_verbose verbose] at described
  cases shown : args.mapM s.heap.display with
  | ok texts => exact mapM_display_ok shown
  | error limit =>
      rw [shown] at described
      cases described

/-- Where a call has been logged its parameters can be bound, and steps be logged under it. -/
theorem canLog_of_call {name : String} {args : List Value} {s : Session} {fields : Details}
    (described : callFields name args s = .ok fields) (location : Location) (e : Entry)
    (params : List Identifier) :
    ∃ t, declare params args (activated name location (s.record e)) = .done () t ∧ CanLog t := by
  obtain ⟨t, done, shown⟩ := declare_ends params args
    (s := activated name location (s.record e)) rfl
  have heap := ((Keeps.declare params args).map heap).done done
  have log := ((Keeps.declare params args).map log).done done
  replace heap : t.heap = s.heap := heap
  replace log : t.log = s.log.add e := log
  refine ⟨t, done, canLog_of_visible fun verbose v mem => ?_⟩
  rw [heap]
  rw [log] at verbose
  have nothing : (activated name location (s.record e)).visible = [] := visible_enter _
  rcases shown v mem with before | arg
  · rw [nothing] at before
    cases before
  · exact display_of_callFields described verbose v arg

/-! ### Bodies that fail -/

/-- **A body that fails has logged a step**, if it begins where a step can be logged. -/
theorem next_lt_of_failed {fuel calls : Nat} {statements : List Stmt} {s t : Session}
    {fault : Fault} (can : CanLog s)
    (failed : forEach (execute fuel calls) statements s = .failed fault t) :
    s.log.next < t.log.next := by
  cases statements with
  | nil => cases failed
  | cons st statements =>
      have others := closed_advances.body fuel calls statements
      cases fuel with
      | zero => cases failed
      | succ fuel =>
          obtain ⟨rest, execution, later⟩ := closed_advances.behindNote fuel calls st
          obtain ⟨e, made⟩ := can st.kindName (some st.location) []
          have first : execute (fuel + 1) calls st s = rest (s.record e) := by
            rw [execution, bind_apply, noteStatement, note_ok made]
          have logged : (s.record e).log.next = s.log.next + 1 := rfl
          obtain failed | ⟨_, u, done, failed⟩ := bind_failed failed
          · rw [first] at failed
            have next := later.failed failed
            omega
          · rw [first] at done
            have next := later.done done
            have next' := others.failed failed
            omega

/-- A call that fails in its body has logged a step there. -/
theorem next_lt_of_callBody_failed {name : String} {location : Location} {params : List Identifier}
    {args : List Value} {fuel calls : Nat} {statements : List Stmt} {s t : Session}
    {fields : Details} {e : Entry} {fault : Fault}
    (described : callFields name args s = .ok fields)
    (failed : (declare params args >>= fun _ => forEach (execute fuel calls) statements)
      (activated name location (s.record e)) = .failed fault t) :
    (activated name location (s.record e)).log.next < t.log.next := by
  obtain ⟨u, declared, can⟩ := canLog_of_call described location e params
  have kept : Keeps (·.log.next) (declare params args) :=
    (Keeps.declare params args).map (·.log.next)
  have still := kept.done declared
  rw [bind_apply, declared] at failed
  have next := next_lt_of_failed can failed
  rwa [still] at next

/-- A run that fails has logged a step. -/
theorem next_lt_of_programBody_failed {budget : Budget} {program : Program} {s t : Session}
    {fault : Fault} (failed : programBody budget program s = .failed fault t) :
    s.log.next < t.log.next := by
  obtain ⟨u, inside, rfl⟩ := inScope_failed failed
  have can : CanLog { s with scopes := s.scopes.enter } := canLog_of_visible fun _ v mem => by
    rw [visible_enter] at mem
    cases mem
  have next := next_lt_of_failed can inside
  exact next

end Mini.Session
