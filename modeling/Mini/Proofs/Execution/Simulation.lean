import Mini.Proofs.Execution.Transcript
import Mini.Proofs.Scopes.Layered

/-!
# Executions with other scopes

Two quiet executions side by side. Their sessions have scopes that fall into the same layers, and
are otherwise the same as far as a program can see: it sees neither the log nor the stack. Such
executions print the same texts, fail alike, and leave sessions of the same kind. The first may run
out of its budget before the second does; then it has printed a beginning of what the second prints.

A body in a scope of its own may open one more scope in one of the executions. Then the two sessions
behind the body have different layers, and are of the same kind again when all is closed.
-/

namespace Mini

/-- The texts that are printed in a history. -/
def textsOf (history : List Event) : List String :=
  history.filterMap (·.deed.text)

@[simp] theorem textsOf_nil : textsOf [] = [] :=
  rfl

@[simp] theorem textsOf_append (history later : List Event) :
    textsOf (history ++ later) = textsOf history ++ textsOf later :=
  List.filterMap_append

namespace Session

open Exec

variable {α β : Type} {layers : List (Nat × Nat)}

/-- Nothing is printed by deeds that have no text. -/
theorem textsOf_heard {frame : Nat} {deed : Session → Deed} {x : Exec α}
    (mute : ∀ s, (deed s).text = none) (s : Session) : textsOf (heard frame deed x s) = [] := by
  refine List.filterMap_eq_nil_iff.mpr fun e mem => ?_
  obtain rfl := eq_of_mem_heard mem
  exact mute s

/-- Nothing is printed by what is written out for the log. -/
theorem textsOf_ahead {frame : Nat} {earlier : Session → List Event}
    (writings : Writings frame earlier) (found : Session → List Event) (s : Session) :
    textsOf (ahead earlier found s) = textsOf (found s) := by
  have none : textsOf (earlier s) = [] := by
    refine List.filterMap_eq_nil_iff.mpr fun e mem => ?_
    obtain ⟨values, rfl⟩ := writings s e mem
    rfl
  rw [ahead, textsOf_append, none, List.nil_append]

/-! ## Sessions -/

/-- What a program can see of a session, and whether the log is verbose. -/
def seen (s : Session) : Bool × Heap × Scopes × Value × Nat × Array String :=
  (s.log.verbose, s.heap, s.scopes, s.pending, s.runs, s.output)

theorem output_of_seen {s t : Session} (same : t.seen = s.seen) : t.output = s.output :=
  congrArg (·.2.2.2.2.2) same

theorem seen_pop (s : Session) : s.pop.seen = s.seen := by
  unfold pop
  cases s.stack <;> rfl

/-- Closes the newest scope. -/
def closing (s : Session) : Session :=
  { s with scopes := s.scopes.leave }

theorem closing_iterate (n : Nat) {s : Session} {ms : Stack} (stack : s.scopes = .ofStack ms) :
    closing^[n] s = { s with scopes := .ofStack (ms.drop n) } := by
  induction n generalizing s ms with
  | zero => rw [List.drop_zero, ← stack, Function.iterate_zero_apply]
  | succ n ih =>
      have closed : (closing s).scopes = .ofStack ms.tail := by
        rw [closing, stack, Scopes.leave_ofStack]
      rw [Function.iterate_succ_apply, ih closed, List.drop_tail]
      rfl

/-- Two quiet sessions that a program sees alike, with scopes in the given layers. -/
structure Rescoped (layers : List (Nat × Nat)) (s s' : Session) : Prop where
  quiet : s.log.verbose = false
  quiet' : s'.log.verbose = false
  heap : s.heap.Rescoped s'.heap
  scopes : ∃ ms ms', s.scopes = .ofStack ms ∧ s'.scopes = .ofStack ms' ∧ Layered layers ms ms'
  pending : Value.Rescoped s.pending s'.pending
  runs : s'.runs = s.runs
  output : s'.output = s.output

namespace Rescoped

variable {s s' t t' : Session} (rescoped : Rescoped layers s s')
include rescoped

theorem of_seen (same : t.seen = s.seen) (same' : t'.seen = s'.seen) : Rescoped layers t t' := by
  simp only [seen, Prod.mk.injEq] at same same'
  obtain ⟨verbose, heap, scopes, pending, runs, output⟩ := same
  obtain ⟨verbose', heap', scopes', pending', runs', output'⟩ := same'
  constructor
  · rw [verbose, rescoped.quiet]
  · rw [verbose', rescoped.quiet']
  · rw [heap, heap']
    exact rescoped.heap
  · rw [scopes, scopes']
    exact rescoped.scopes
  · rw [pending, pending']
    exact rescoped.pending
  · rw [runs, runs', rescoped.runs]
  · rw [output, output', rescoped.output]

theorem withHeap {h h' : Heap} (heap : h.Rescoped h') :
    Rescoped layers { s with heap := h } { s' with heap := h' } :=
  { rescoped with heap }

theorem withScopes {layers' : List (Nat × Nat)} {ms ms' : Stack}
    (layered : Layered layers' ms ms') :
    Rescoped layers' { s with scopes := .ofStack ms } { s' with scopes := .ofStack ms' } :=
  { rescoped with scopes := ⟨ms, ms', rfl, rfl, layered⟩ }

theorem withPending {v v' : Value} (pending : Value.Rescoped v v') :
    Rescoped layers { s with pending := v } { s' with pending := v' } :=
  { rescoped with pending }

/-! ### Opening and closing -/

theorem enter : Rescoped ((1, 1) :: layers) { s with scopes := s.scopes.enter }
    { s' with scopes := s'.scopes.enter } := by
  obtain ⟨ms, ms', stack, stack', layered⟩ := rescoped.scopes
  rw [stack, stack', Scopes.enter_ofStack, Scopes.enter_ofStack]
  exact rescoped.withScopes layered.enter

omit rescoped in
theorem enterInner {height height' : Nat} (rescoped : Rescoped ((height, height') :: layers) s s') :
    Rescoped ((height, height' + 1) :: layers) s { s' with scopes := s'.scopes.enter } := by
  obtain ⟨ms, ms', stack, stack', layered⟩ := rescoped.scopes
  refine { rescoped with scopes := ⟨ms, [] :: ms', stack, ?_, layered.enterInner⟩ }
  rw [stack', Scopes.enter_ofStack]

omit rescoped in
theorem enterOuter {height height' : Nat} (rescoped : Rescoped ((height, height') :: layers) s s') :
    Rescoped ((height + 1, height') :: layers) { s with scopes := s.scopes.enter } s' := by
  obtain ⟨ms, ms', stack, stack', layered⟩ := rescoped.scopes
  refine { rescoped with scopes := ⟨[] :: ms, ms', ?_, stack', layered.enterOuter⟩ }
  rw [stack, Scopes.enter_ofStack]

omit rescoped in
theorem leave {height height' : Nat} (rescoped : Rescoped ((height, height') :: layers) s s') :
    Rescoped layers (closing^[height] s) (closing^[height'] s') := by
  obtain ⟨ms, ms', stack, stack', layered⟩ := rescoped.scopes
  rw [closing_iterate height stack, closing_iterate height' stack']
  exact rescoped.withScopes layered.leave

end Rescoped

theorem endingWith_id (x : Exec α) : endingWith x id = x := by
  funext s
  unfold endingWith
  cases x s <;> rfl

/-! ## Lists of one statement -/

theorem forEach_singleton (run : Stmt → Exec Unit) (st : Stmt) : forEach run [st] = run st := by
  funext s
  rw [forEach, bind_apply]
  cases run st s <;> rfl

theorem listEach_singleton (run : Stmt → Exec Unit) (found : Stmt → Session → List Event)
    (st : Stmt) : listEach run found [st] = found st :=
  inTurn_noEvents (found st) (run st)

/-! ## Executions -/

/-- How two executions end that begin with the same output, and what they print. They end alike,
unless the first runs out of its budget: then the second prints at least as much. -/
inductive Agree (R : α → α → Prop) (after : Session → Session → Prop)
    (before texts texts' : List String) : Outcome α → Outcome α → Prop
  | done {a a' : α} {t t' : Session} :
      R a a' → after t t' → t.output.toList = before ++ texts → texts' = texts →
        Agree R after before texts texts' (.done a t) (.done a' t')
  | failed {fault : Fault} {t t' : Session} :
      t'.output = t.output → t.output.toList = before ++ texts → texts' = texts →
        Agree R after before texts texts' (.failed fault t) (.failed fault t')
  | cut {o' : Outcome α} : texts <+: texts' → Agree R after before texts texts' .outOfFuel o'

/-- Two executions with their histories that do the same to sessions that are seen alike. -/
def Simulates (R : α → α → Prop) (found found' : Session → List Event) (x x' : Exec α) : Prop :=
  ∀ ⦃layers s s'⦄, Rescoped layers s s' →
    Agree R (Rescoped layers) s.output.toList (textsOf (found s)) (textsOf (found' s')) (x s)
      (x' s')

/-- The sessions are seen alike once a scope is closed in both. -/
def OnceClosed (layers : List (Nat × Nat)) (t t' : Session) : Prop :=
  Rescoped layers (closing t) (closing t')

/-- Two bodies in a scope of their own that do the same, up to what is in the scope. -/
def Confined (found found' : Session → List Event) (x x' : Exec Unit) : Prop :=
  ∀ ⦃layers s s'⦄, Rescoped ((1, 1) :: layers) s s' →
    Agree Eq (OnceClosed layers) s.output.toList (textsOf (found s)) (textsOf (found' s')) (x s)
      (x' s')

namespace Agree

variable {R : α → α → Prop} {after : Session → Session → Prop} {s s' : Session}
  {before texts texts' : List String} {o o' : Outcome α}

theorem still {a a' : α} {t t' : Session} (r : R a a') (here : after t t')
    (output : t.output = s.output) :
    Agree R after s.output.toList [] [] (.done a t) (.done a' t') := by
  refine .done r here ?_ rfl
  rw [output, List.append_nil]

theorem stops (fault : Fault) {t t' : Session} (same : t'.output = t.output)
    (output : t.output = s.output) :
    Agree R after s.output.toList [] [] (.failed fault t) (.failed fault t') := by
  refine .failed same ?_ rfl
  rw [output, List.append_nil]

theorem mono (h : Agree R after before texts texts' o o') {after' : Session → Session → Prop}
    (weaker : ∀ t t', after t t' → after' t t') : Agree R after' before texts texts' o o' := by
  cases h with
  | done r here output same => exact .done r (weaker _ _ here) output same
  | failed outputs output same => exact .failed outputs output same
  | cut shorter => exact .cut shorter

/-- One execution after another on both sides. -/
theorem andThen {x x' : Exec α} {f f' : α → Exec β} {R' : β → β → Prop}
    {found found' : Session → List Event} {later later' : α → Session → List Event}
    {after' : Session → Session → Prop}
    (first : Agree R after before (textsOf (found s)) (textsOf (found' s')) (x s) (x' s'))
    (second : ∀ {a a' t t'}, R a a' → after t t' →
      Agree R' after' t.output.toList (textsOf (later a t)) (textsOf (later' a' t')) (f a t)
        (f' a' t')) :
    Agree R' after' before (textsOf (inTurn found x later s)) (textsOf (inTurn found' x' later' s'))
      ((x >>= f) s) ((x' >>= f') s') := by
  simp only [bind_apply, inTurn, textsOf_append]
  generalize x s = o, x' s' = o' at first
  cases first with
  | @done a a' t t' r here output same =>
      dsimp only [listBehind]
      rw [same]
      have rest := second r here
      generalize f a t = p, f' a' t' = p' at rest
      cases rest with
      | done r' here' output' same' =>
          refine .done r' here' ?_ (congrArg _ same')
          rw [output', output, List.append_assoc]
      | failed outputs output' same' =>
          refine .failed outputs ?_ (congrArg _ same')
          rw [output', output, List.append_assoc]
      | cut shorter =>
          -- what was printed before the budget ran out begins with the same texts on both sides
          exact .cut ((List.prefix_append_right_inj _).mpr shorter)
  | failed outputs output same =>
      simp only [listBehind, textsOf_nil, List.append_nil]
      exact .failed outputs output same
  | cut shorter =>
      simp only [listBehind, textsOf_nil, List.append_nil]
      exact .cut (shorter.trans (List.prefix_append _ _))

/-- What is done to the sessions at the end, however it comes, may relate them in another way. -/
theorem ending {x x' : Exec α}
    (h : Agree R after before texts texts' (x s) (x' s')) {after' : Session → Session → Prop}
    {last last' : Session → Session} (last_after : ∀ t t', after t t' → after' (last t) (last' t'))
    (output_last : ∀ t, (last t).output = t.output)
    (output_last' : ∀ t, (last' t).output = t.output) :
    Agree R after' before texts texts' (endingWith x last s) (endingWith x' last' s') := by
  unfold endingWith
  generalize x s = o, x' s' = o' at h
  cases h with
  | done r here output same =>
      refine .done r (last_after _ _ here) ?_ same
      rw [output_last, output]
  | failed outputs output same =>
      refine .failed ?_ ?_ same
      · rw [output_last, output_last', outputs]
      · rw [output_last, output]
  | cut shorter => exact .cut shorter

end Agree

namespace Simulates

variable {R : α → α → Prop} {found found' : Session → List Event} {x x' : Exec α}

theorem andThen {R' : β → β → Prop} {f f' : α → Exec β} {later later'}
    (first : Simulates R found found' x x')
    (second : ∀ a a', R a a' → Simulates R' (later a) (later' a') (f a) (f' a')) :
    Simulates R' (inTurn found x later) (inTurn found' x' later') (x >>= f) (x' >>= f') := by
  intro layers s s' rescoped
  exact (first rescoped).andThen fun r here => second _ _ r here

/-- What comes after an execution, if nothing is printed any more. -/
theorem andThenPlain {R' : β → β → Prop} {f f' : α → Exec β}
    (first : Simulates R found found' x x')
    (second : ∀ a a', R a a' → Simulates R' noEvents noEvents (f a) (f' a')) :
    Simulates R' found found' (x >>= f) (x' >>= f') := by
  have both := first.andThen second
  rwa [inTurn_noEvents, inTurn_noEvents] at both

/-- What prints nothing may have events. -/
theorem silent (h : Simulates R noEvents noEvents x x') (none : ∀ s, textsOf (found s) = [])
    (none' : ∀ s, textsOf (found' s) = []) : Simulates R found found' x x' := by
  intro layers s s' rescoped
  rw [none, none']
  exact h rescoped

/-- What is written out for the log is not compared. -/
theorem ahead {frame frame' : Nat} {earlier earlier' : Session → List Event}
    (writings : Writings frame earlier) (writings' : Writings frame' earlier')
    (h : Simulates R found found' x x') :
    Simulates R (ahead earlier found) (ahead earlier' found') x x' := by
  intro layers s s' rescoped
  rw [textsOf_ahead writings, textsOf_ahead writings']
  exact h rescoped

/-! ### Single steps -/

theorem value {a a' : α} (r : R a a') :
    Simulates R noEvents noEvents (Exec.value a) (Exec.value a') :=
  fun _ _ _ rescoped => .still r rescoped rfl

theorem resume (frame frame' : Nat) {v v' : Value} (same : Value.Rescoped v v') :
    Simulates Value.Rescoped (heardResume frame v) (heardResume frame' v') (Exec.value v)
      (Exec.value v') :=
  (value same).silent (textsOf_heard fun _ => rfl) (textsOf_heard fun _ => rfl)

theorem fail (cause : Cause) (location : Option Location) :
    Simulates R noEvents noEvents (Exec.fail cause location) (Exec.fail cause location) :=
  fun _ _ _ rescoped => .stops _ rescoped.output rfl

theorem exhausted : Simulates R noEvents found' Exec.exhausted x' :=
  fun _ _ _ _ => .cut (List.nil_prefix)

theorem orBlame (location : Option Location) {r r' : Except Cause α} (both : Both R r r') :
    Simulates R noEvents noEvents (Exec.orBlame location r) (Exec.orBlame location r') := by
  cases both with
  | ok r => exact value r
  | error cause => exact fail cause location

theorem lookUp {look look' : Session → Except Limit α}
    (both : ∀ {layers s s'}, Rescoped layers s s' → Both R (look s) (look' s')) :
    Simulates R noEvents noEvents (get look >>= orLimit) (get look' >>= orLimit) := by
  intro layers s s' rescoped
  rw [lookUp_apply, lookUp_apply]
  have both := both rescoped
  generalize look s = looked, look' s' = looked' at both
  cases both with
  | ok r => exact .still r rescoped rfl
  | error limit => exact .stops _ rescoped.output rfl

/-- Quiet steps are not compared: what is in them cannot be seen. -/
theorem note (rule rule' : String) (location location' : Location) (fields fields' : Details) :
    Simulates Eq noEvents noEvents (Exec.note rule location fields)
      (Exec.note rule' location' fields') := by
  intro layers s s' rescoped
  rw [note_ok (step_quiet rescoped.quiet rule _ fields),
    note_ok (step_quiet rescoped.quiet' rule' _ fields')]
  exact .still rfl (rescoped.of_seen rfl rfl) rfl

theorem noteCall (name : String) (location : Location) (args args' : List Value) :
    Simulates Eq noEvents noEvents (Session.noteCall name location args)
      (Session.noteCall name location args') := by
  refine andThenPlain (R := Eq) (lookUp ?_) fun fields fields' same => note ..
  intro layers s s' rescoped
  rw [callFields_quiet rescoped.quiet, callFields_quiet rescoped.quiet']
  exact .ok rfl

theorem name (id : Identifier) :
    Simulates Value.Rescoped noEvents noEvents (Exec.name id) (Exec.name id) := by
  intro layers s s' rescoped
  obtain ⟨ms, ms', stack, stack', layered⟩ := rescoped.scopes
  rw [name_apply, name_apply, stack, stack', Scopes.get_ofStack, Scopes.get_ofStack]
  split
  · exact .still (.boolean true) rescoped rfl
  · split
    · exact .still (.boolean false) rescoped rfl
    · have found := layered.find id.name
      generalize ms.find? id.name = value, ms'.find? id.name = value' at found
      cases found with
      | none => exact .stops _ rescoped.output rfl
      | some value => exact .still value rescoped rfl

theorem function (location : Location) (params : List Identifier) {body body' : Block}
    (bodies : Block.Rescoped body body') :
    Simulates Value.Rescoped noEvents noEvents (Exec.function location params body)
      (Exec.function location params body') := by
  intro layers s s' rescoped
  have made : Value.Rescoped
      (.function ⟨⟨s.runs, location.line, location.column⟩, params, body⟩)
      (.function ⟨⟨s'.runs, location.line, location.column⟩, params, body'⟩) := by
    rw [rescoped.runs]
    exact .function _ params bodies
  exact .still made rescoped rfl

theorem newArray {pairs pairs' : Pairs} (rescopedPairs : PairsRescoped pairs pairs') :
    Simulates Value.Rescoped noEvents noEvents (Exec.newArray pairs) (Exec.newArray pairs') := by
  intro layers s s' rescoped
  rw [newArray_apply, newArray_apply, rescoped.heap.fresh_eq]
  exact .still (.array _) (rescoped.withHeap (rescoped.heap.add rescopedPairs)) rfl

theorem fetch (ref : Ref) {key key' : Value} (keys : Value.Rescoped key key') :
    Simulates Value.Rescoped noEvents noEvents (Exec.fetch ref key) (Exec.fetch ref key') :=
  lookUp fun rescoped => rescoped.heap.lookup (rescoped.heap.read ref) keys

theorem grown {sofar sofar' : Pairs} {key key' v v' : Value}
    (rescopedPairs : PairsRescoped sofar sofar') (keys : Value.Rescoped key key')
    (value : Value.Rescoped v v') :
    Simulates PairsRescoped noEvents noEvents (Session.grown sofar key v)
      (Session.grown sofar' key' v') :=
  lookUp fun rescoped => rescoped.heap.store rescopedPairs keys value

theorem store (ref : Ref) {key key' v v' : Value} (keys : Value.Rescoped key key')
    (value : Value.Rescoped v v') :
    Simulates Eq noEvents noEvents (Exec.store ref key v) (Exec.store ref key' v') := by
  intro layers s s' rescoped
  rw [store_apply, store_apply]
  have stored := rescoped.heap.store (rescoped.heap.read ref) keys value
  generalize s.heap.store (s.heap.read ref) key v = pairs,
    s'.heap.store (s'.heap.read ref) key' v' = pairs' at stored
  cases stored with
  | ok pairs => exact .still rfl (rescoped.withHeap (rescoped.heap.write ref pairs)) rfl
  | error limit => exact .stops _ rescoped.output rfl

theorem bind (name : String) {v v' : Value} (value : Value.Rescoped v v') :
    Simulates Eq noEvents noEvents (Exec.bind name v) (Exec.bind name v') := by
  intro layers s s' rescoped
  obtain ⟨ms, ms', stack, stack', layered⟩ := rescoped.scopes
  rw [bindName_apply, bindName_apply, stack, stack', Scopes.bind_ofStack, Scopes.bind_ofStack]
  have bound : Option.Rel _ (ms.bind name v) (ms'.bind name v') := layered.bind value
  generalize ms.bind name v = after, ms'.bind name v' = after' at bound
  cases bound with
  | none => exact .stops _ rescoped.output rfl
  | some after => exact .still rfl (rescoped.withScopes after) rfl

theorem declare (params : List Identifier) {args args' : List Value}
    (values : List.Forall₂ Value.Rescoped args args') :
    Simulates Eq noEvents noEvents (Exec.declare params args) (Exec.declare params args') := by
  induction values generalizing params with
  | nil => cases params <;> exact value rfl
  | @cons arg arg' args args' value _ ih =>
      cases params with
      | nil => exact Simulates.value rfl
      | cons param params =>
          intro layers s s' rescoped
          obtain ⟨ms, ms', stack, stack', layered⟩ := rescoped.scopes
          rw [declare_cons_apply, declare_cons_apply, stack, stack', Scopes.declare_ofStack,
            Scopes.declare_ofStack]
          have bound : Option.Rel _ (ms.declare param.name arg) (ms'.declare param.name arg') :=
            layered.declare value
          generalize ms.declare param.name arg = after,
            ms'.declare param.name arg' = after' at bound
          cases bound with
          | none => exact .stops _ rescoped.output rfl
          | some after => exact ih params (rescoped.withScopes after)

theorem setPending (frame frame' : Nat) {v v' : Value} (value : Value.Rescoped v v') :
    Simulates Eq (heardReturn frame v) (heardReturn frame' v') (Exec.setPending v)
      (Exec.setPending v') := by
  have pends : Simulates Eq noEvents noEvents (Exec.setPending v) (Exec.setPending v') :=
    fun _ _ _ rescoped => .still rfl (rescoped.withPending value) rfl
  exact pends.silent (textsOf_heard fun _ => rfl) (textsOf_heard fun _ => rfl)

/-- What is printed are displays, and these are the same. -/
theorem printing (frame frame' : Nat) (location : Location) {v v' : Value}
    (value : Value.Rescoped v v') :
    Simulates Value.Rescoped (Session.ahead (writingPrint frame v) (heardPrint frame location v))
      (Session.ahead (writingPrint frame' v') (heardPrint frame' location v'))
      (Session.printing location v) (Session.printing location v') := by
  refine ahead (writings_print frame v) (writings_print frame' v') ?_
  intro layers s s' rescoped
  have display := rescoped.heap.display_eq value
  unfold heardPrint heard
  rw [Tells.printing_apply, Tells.printing_apply, lookUp_apply, lookUp_apply, display]
  cases s.heap.display v with
  | error limit => exact .stops _ rescoped.output rfl
  | ok text =>
      have quiet := step_quiet rescoped.quiet "PRINT" (some location) [("output", .text text)]
      have quiet' := step_quiet rescoped.quiet' "PRINT" (some location) [("output", .text text)]
      dsimp only [listBehind]
      rw [note_ok quiet, note_ok quiet', quiet, quiet']
      refine .done .nothing ?_ (Array.toList_push ..) rfl
      refine { rescoped with output := ?_ }
      show s'.output.push text = s.output.push text
      rw [rescoped.output]

end Simulates

/-! ## Bodies in a scope of their own -/

namespace Confined

variable {found found' : Session → List Event} {x x' : Exec Unit}

theorem of_simulates (h : Simulates Eq found found' x x') : Confined found found' x x' :=
  fun _ _ _ rescoped => (h rescoped).mono fun _ _ here => here.leave

theorem behind (second : Confined found found' x x') {earlier earlier' : Session → List Event}
    {y y' : Exec Unit} (first : Simulates Eq earlier earlier' y y') :
    Confined (inTurn earlier y fun _ => found) (inTurn earlier' y' fun _ => found')
      (y >>= fun _ => x) (y' >>= fun _ => x') := by
  intro layers s s' rescoped
  exact (first rescoped).andThen fun _ here => second here

theorem inScope (h : Confined found found' x x') :
    Simulates Eq (fun s => found { s with scopes := s.scopes.enter })
      (fun s => found' { s with scopes := s.scopes.enter }) (inScope x) (inScope x') := by
  intro layers s s' rescoped
  exact (h rescoped.enter).ending (fun _ _ here => here) (fun _ => rfl) fun _ => rfl

/-! ### One more block -/

section Block

variable {fuel calls : Nat} {sts : List Stmt}

/-- A block that is the only statement of a list. In a quiet log nothing is seen of its step. -/
theorem forEach_block (fuel calls frame : Nat) (location : Location) (sts : List Stmt) {s : Session}
    (quiet : s.log.verbose = false) :
    ∃ t, t.seen = s.seen ∧
      forEach (execute (fuel + 1) calls) [.block (.mk location sts)] s =
        Exec.inScope (forEach (execute fuel calls) sts) t ∧
      textsOf (listEach (execute (fuel + 1) calls) (historyOfStmt (fuel + 1) calls frame)
          [.block (.mk location sts)] s) =
        textsOf (listEach (execute fuel calls) (historyOfStmt fuel calls frame) sts
          { t with scopes := t.scopes.enter }) := by
  obtain ⟨e, noted⟩ : ∃ e, noteStatement (.block (.mk location sts)) s = .done () (s.record e) :=
    ⟨_, note_ok (step_quiet quiet ..)⟩
  refine ⟨s.record e, rfl, ?runs, ?prints⟩
  case runs =>
    rw [forEach_singleton, execute.eq_def]
    show (noteStatement (.block (.mk location sts)) >>= fun _ =>
      Exec.inScope (forEach (execute fuel calls) sts)) s = _
    rw [bind_apply, noted]
  case prints =>
    rw [listEach_singleton, historyOfStmt.eq_def]
    dsimp only
    rw [inTurn_done noted, textsOf_append, textsOf_ahead (writings_bindings frame), heardStatement,
      textsOf_heard fun _ => rfl, List.nil_append]
    rfl

/-- The second body may stand in one more block, -/
theorem inner (frame' : Nat) (location : Location)
    (h : Simulates Eq found (listEach (execute fuel calls) (historyOfStmt fuel calls frame') sts) x
      (forEach (execute fuel calls) sts)) :
    Confined found
      (listEach (execute (fuel + 1) calls) (historyOfStmt (fuel + 1) calls frame')
        [.block (.mk location sts)])
      x (forEach (execute (fuel + 1) calls) [.block (.mk location sts)]) := by
  intro layers s s' rescoped
  obtain ⟨t, seen, runs, prints⟩ := forEach_block fuel calls frame' location sts rescoped.quiet'
  have inside := h (rescoped.of_seen rfl seen).enterInner
  rw [runs, prints, ← endingWith_id x]
  exact inside.ending (fun _ _ here => here.leave) (fun _ => rfl) fun _ => rfl

/-- and so may the first. -/
theorem outer (frame : Nat) (location : Location)
    (h : Simulates Eq (listEach (execute fuel calls) (historyOfStmt fuel calls frame) sts) found'
      (forEach (execute fuel calls) sts) x') :
    Confined
      (listEach (execute (fuel + 1) calls) (historyOfStmt (fuel + 1) calls frame)
        [.block (.mk location sts)])
      found' (forEach (execute (fuel + 1) calls) [.block (.mk location sts)]) x' := by
  intro layers s s' rescoped
  obtain ⟨t, seen, runs, prints⟩ := forEach_block fuel calls frame location sts rescoped.quiet
  have inside := h (rescoped.of_seen seen rfl).enterOuter
  rw [runs, prints, ← output_of_seen seen, ← endingWith_id x']
  exact inside.ending (fun _ _ here => here.leave) (fun _ => rfl) fun _ => rfl

end Block

end Confined

/-! ## Calls -/

/-- The body of a call has a frame and a scope of its own, and takes the pending value. -/
theorem agree_activate {s s' : Session} (name : String)
    (location : Location) {body body' : Exec Unit} {texts texts' : List String}
    (inside : Agree Eq (OnceClosed layers) s.output.toList texts texts'
      (body (activated name location s)) (body' (activated name location s'))) :
    Agree Value.Rescoped (Rescoped layers) s.output.toList texts texts'
      (activate name location body s) (activate name location body' s') := by
  rw [activate_apply, activate_apply]
  generalize body (activated name location s) = o, body' (activated name location s') = o' at inside
  cases inside with
  | @done _ _ t t' _ here output same =>
      have left : Rescoped layers (unwound t) (unwound t') := here.withPending .nothing
      refine .done here.pending (left.of_seen (seen_pop _) (seen_pop _)) ?_ same
      rw [pop_output]
      exact output
  | failed outputs output same => exact .failed outputs output same
  | cut shorter => exact .cut shorter

namespace Simulates

variable {name : String} {location : Location} {args args' : List Value}

/-- A call is logged, and that is not seen. -/
theorem called (frame frame' : Nat) {deed deed' : Session → Deed}
    (mute : ∀ s, (deed s).text = none) (mute' : ∀ s, (deed' s).text = none) :
    Simulates Eq
      (Session.ahead (writingCall frame name args)
        (heard frame deed (Session.noteCall name location args)))
      (Session.ahead (writingCall frame' name args')
        (heard frame' deed' (Session.noteCall name location args')))
      (Session.noteCall name location args) (Session.noteCall name location args') :=
  ((noteCall name location args args').silent (textsOf_heard mute) (textsOf_heard mute')).ahead
    (writings_call frame name args) (writings_call frame' name args')

theorem refused (frame frame' : Nat) :
    Simulates Value.Rescoped
      (Session.ahead (writingCall frame name args) (heardRefused frame name location args))
      (Session.ahead (writingCall frame' name args') (heardRefused frame' name location args'))
      (Session.noteCall name location args >>= fun _ => Exec.fail (.limit .calls) none)
      (Session.noteCall name location args' >>= fun _ => Exec.fail (.limit .calls) none) :=
  (called frame frame' (fun _ => rfl) fun _ => rfl).andThenPlain fun _ _ _ => fail _ _

theorem activate (name : String) (location : Location) (params : List Identifier)
    (values : List.Forall₂ Value.Rescoped args args')
    {body body' : Exec Unit} {inside inside' : Nat → Session → List Event}
    (h : ∀ callee callee', Confined (inside callee) (inside' callee') body body') :
    Simulates Value.Rescoped (historyInCall name location params args inside)
      (historyInCall name location params args' inside')
      (Exec.activate name location (Exec.declare params args >>= fun _ => body))
      (Exec.activate name location (Exec.declare params args' >>= fun _ => body')) := by
  intro layers s s' rescoped
  have begun : Rescoped layers (s.push name (some location)) (s'.push name (some location)) :=
    rescoped.of_seen rfl rfl
  -- each body is followed under the number that the frame of its call gets
  have inside := (h s.frames s'.frames).behind (Simulates.declare params values)
  exact agree_activate name location (inside begun.enter)

theorem call (frame frame' : Nat) (params : List Identifier)
    (values : List.Forall₂ Value.Rescoped args args') {body body' : Exec Unit}
    {inside inside' : Nat → Session → List Event}
    (h : ∀ callee callee', Confined (inside callee) (inside' callee') body body') :
    Simulates Value.Rescoped
      (Session.ahead (writingCall frame name args)
        (historyOfCall frame name location params args body inside))
      (Session.ahead (writingCall frame' name args')
        (historyOfCall frame' name location params args' body' inside'))
      (Session.noteCall name location args >>= fun _ =>
        Exec.activate name location (Exec.declare params args >>= fun _ => body))
      (Session.noteCall name location args' >>= fun _ =>
        Exec.activate name location (Exec.declare params args' >>= fun _ => body')) := by
  have logged : Simulates Eq
      (Session.ahead (writingCall frame name args) (heardCall frame name location args))
      (Session.ahead (writingCall frame' name args') (heardCall frame' name location args'))
      (Session.noteCall name location args) (Session.noteCall name location args') :=
    called frame frame' (fun _ => rfl) fun _ => rfl
  have activated := activate name location params values h
  have whole := logged.andThen fun _ _ _ =>
    activated.andThen fun _ _ same => resume frame frame' same
  simp only [bind_value] at whole
  rw [historyOfCall, historyOfCall, ahead_inTurn, ahead_inTurn]
  exact whole

end Simulates

end Session

end Mini
