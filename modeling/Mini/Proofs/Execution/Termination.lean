import Mini.Proofs.Execution.Closed
import Mini.Proofs.Execution.Verbosity
import Mini.Proofs.Heap.Unfolding

/-!
# Looking through arrays comes to an end

Displays, comparisons and snapshots look through arrays, and go on without end only where an array
contains itself. A run reports that as a limit that was hit. So a run that hits this limit leaves an
array that contains itself behind, whatever it was that looked through it: something that was
printed, a key that was looked for, or a step that was logged.
-/

namespace Mini

open Session

/-! ## Sessions without cycles -/

/-- Nothing that looks through the arrays of a session goes on without end: displays, comparisons,
looking for a key to read or to store under, steps of the log with their snapshots, and what the log
says about arguments. -/
structure Session.Terminates (s : Session) : Prop where
  display : ∀ v, s.heap.display v ≠ .error .nesting
  same : ∀ v w, ∃ b, s.heap.same v w = .ok b
  lookup : ∀ pairs key, ∃ v, s.heap.lookup pairs key = .ok v
  store : ∀ pairs key v, ∃ pairs', s.heap.store pairs key v = .ok pairs'
  step : ∀ rule location fields, s.step rule location fields ≠ .error .nesting
  callFields : ∀ name args, Exec.callFields name args s ≠ .error .nesting

theorem Session.terminates_of_cycleFree {s : Session} (free : s.heap.CycleFree) : Terminates s := by
  refine ⟨free.display_ne, free.exists_same, fun pairs key => (free.decides pairs key).exists_lookup,
    fun pairs key => (free.decides pairs key).exists_store, fun rule location fields made => ?_,
    fun name args made => ?_⟩
  · cases verbose : s.log.verbose with
    | true =>
        rw [step_verbose verbose] at made
        cases shot : s.scopes.snapshot s.heap with
        | ok env =>
            rw [shot] at made
            cases made
        | error limit =>
            rw [shot] at made
            cases made
            obtain ⟨v, -, shown⟩ := snapshot_error shot
            exact free.display_ne v shown
    | false =>
        rw [step_quiet verbose] at made
        cases made
  · cases verbose : s.log.verbose with
    | true =>
        rw [callFields_verbose verbose] at made
        cases shown : args.mapM s.heap.display with
        | ok texts =>
            rw [shown] at made
            cases made
        | error limit =>
            rw [shown] at made
            cases made
            obtain ⟨v, -, shown⟩ := mapM_display_error shown
            exact free.display_ne v shown
    | false =>
        rw [callFields_quiet verbose] at made
        cases made

namespace Exec

variable {α β : Type}

/-- An execution that fails because something went on without end leaves an array that contains
itself. -/
structure BlamesCycles ⦃α : Type⦄ (x : Exec α) : Prop where
  cyclic : ∀ ⦃s fault t⦄, x s = .failed fault t → fault.cause = .limit .nesting → ¬t.heap.CycleFree

namespace BlamesCycles

variable {x : Exec α}

theorem andThen {f : α → Exec β} (first : BlamesCycles x) (later : ∀ a, BlamesCycles (f a)) :
    BlamesCycles (x >>= f) := by
  refine ⟨fun s fault t failed => ?_⟩
  obtain here | ⟨a, u, -, there⟩ := bind_failed failed
  · exact first.cyclic here
  · exact (later a).cyclic there

/-! ### Single steps -/

theorem of_total (total : ∀ s fault t, x s ≠ .failed fault t) : BlamesCycles x :=
  ⟨fun s fault t failed => absurd failed (total s fault t)⟩

theorem value (a : α) : BlamesCycles (value a) :=
  of_total fun _ _ _ failed => nomatch failed

theorem exhausted : BlamesCycles (exhausted : Exec α) :=
  of_total fun _ _ _ failed => nomatch failed

theorem fail {cause : Cause} {location : Option Location} (other : cause ≠ .limit .nesting) :
    BlamesCycles (fail cause location : Exec α) := by
  refine ⟨fun s fault t failed nesting => ?_⟩
  cases failed
  exact absurd nesting other

/-- Something is read that can be read where there is no cycle. -/
theorem lookUp {look : Session → Except Limit α}
    (ends : ∀ s : Session, Terminates s → look s ≠ .error .nesting) :
    BlamesCycles (get look >>= orLimit) := by
  refine ⟨fun s fault t failed nesting free => ?_⟩
  rw [lookUp_apply] at failed
  split at failed
  · cases failed
  · rename_i limit looked
    cases failed
    cases nesting
    exact ends s (terminates_of_cycleFree free) looked

theorem fetch (ref : Ref) (key : Value) : BlamesCycles (fetch ref key) := by
  refine lookUp fun s ends looked => ?_
  obtain ⟨v, found⟩ := ends.lookup (s.heap.read ref) key
  rw [found] at looked
  cases looked

theorem keep (pairs : Session → Pairs) (key v : Value) :
    BlamesCycles (get (fun s => s.heap.store (pairs s) key v) >>= orLimit) := by
  refine lookUp fun s ends looked => ?_
  obtain ⟨pairs', stored⟩ := ends.store (pairs s) key v
  rw [stored] at looked
  cases looked

theorem display (v : Value) : BlamesCycles (get (·.heap.display v) >>= orLimit) :=
  lookUp fun _ ends => ends.display v

theorem store (ref : Ref) (key v : Value) : BlamesCycles (store ref key v) := by
  unfold Exec.store
  rw [← bind_assoc]
  exact andThen (keep (fun s => s.heap.read ref) key v) fun pairs =>
    of_total fun _ _ _ failed => nomatch failed

theorem note (rule : String) (location : Location) (fields : Details) :
    BlamesCycles (note rule location fields) := by
  unfold Exec.note
  rw [← bind_assoc]
  exact andThen (lookUp fun _ ends => ends.step _ _ _) fun e =>
    of_total fun _ _ _ failed => nomatch failed

theorem noteCall (name : String) (location : Location) (args : List Value) :
    BlamesCycles (noteCall name location args) :=
  andThen (lookUp fun _ ends => ends.callFields _ _) fun fields => note "CALL" location fields

theorem name (id : Identifier) : BlamesCycles (name id) := by
  refine ⟨fun s fault t failed nesting => ?_⟩
  rw [name_apply] at failed
  split at failed
  · cases failed
  · split at failed
    · cases failed
    · split at failed
      · cases failed
      · rename_i cause missing
        cases failed
        cases nesting
        unfold Scopes.get at missing
        split at missing <;> cases missing

theorem bind (name : String) (v : Value) : BlamesCycles (bind name v) := by
  refine ⟨fun s fault t failed nesting => ?_⟩
  rw [bindName_apply] at failed
  split at failed
  · cases failed
  · rename_i cause unbound
    cases failed
    cases nesting
    unfold Scopes.bind Scopes.declare at unbound
    split at unbound
    · cases unbound
    · split at unbound <;> cases unbound

theorem declare : ∀ (params : List Identifier) (args : List Value),
    BlamesCycles (declare params args)
  | [], _ => value ()
  | _ :: _, [] => value ()
  | param :: params, arg :: args => by
      refine ⟨fun s fault t failed nesting => ?_⟩
      rw [declare_cons_apply] at failed
      split at failed
      · exact (declare params args).cyclic failed nesting
      · rename_i cause undeclared
        cases failed
        cases nesting
        unfold Scopes.declare at undeclared
        split at undeclared <;> cases undeclared

/-! ### Scopes and calls -/

theorem inScope (h : BlamesCycles x) : BlamesCycles (inScope x) := by
  refine ⟨fun s fault t failed => ?_⟩
  obtain ⟨u, here, rfl⟩ := inScope_failed failed
  have cyclic := h.cyclic here
  exact cyclic

theorem activate (name : String) (location : Location) {body : Exec Unit} (h : BlamesCycles body) :
    BlamesCycles (activate name location body) := by
  refine ⟨fun s fault t failed => ?_⟩
  obtain ⟨u, here, rfl⟩ := activate_failed failed
  have cyclic := h.cyclic here
  exact cyclic

end BlamesCycles

/-- Every expression and every statement that fails for want of an end leaves an array that contains
itself. -/
theorem closed_blamesCycles : Closed BlamesCycles where
  value := .value
  fail _ other := .fail other
  exhausted := .exhausted
  andThen first later := first.andThen later
  inScope h := h.inScope
  note := .note
  noteCall := .noteCall
  call name location params args _ _ _ h :=
    (BlamesCycles.noteCall name location args).andThen fun _ => .activate name location
      ((BlamesCycles.declare params args).andThen fun _ => h)
  name := .name
  function _ _ _ := .of_total fun _ _ _ failed => nomatch failed
  newArray _ := .of_total fun _ _ _ failed => nomatch failed
  fetch := .fetch
  keep pairs := .keep fun _ => pairs
  display := .display
  emit _ := .of_total fun _ _ _ failed => nomatch failed
  bind := .bind
  store := .store
  setPending _ := .of_total fun _ _ _ failed => nomatch failed

end Exec

/-- A run that fails because something went on without end leaves an array that contains itself. -/
theorem Session.cyclic_of_nesting {s t : Session} {budget : Budget} {source : Source} {fault : Fault}
    (ran : s.runSource budget source = (.failed fault, t)) (nesting : fault.cause = .limit .nesting) :
    ¬t.heap.CycleFree := by
  cases read : Program.ofSource source with
  | error rejected =>
      rw [runSource, read] at ran
      cases ran
  | ok program =>
      rw [runSource_eq read] at ran
      split at ran
      · cases ran
      · rename_i first u here
        cases ran
        have body := Exec.closed_blamesCycles.programBody budget program
        exact body.cyclic here (blame_cause t first ▸ nesting)
      · cases ran

end Mini
