import Mini.Session.Evaluation

/-!
# What single steps do

One equation for each step of an execution: the outcome, written with the session
that the step begins in. Everything that is proved about executions goes through
these equations, so a step's definition is opened here only.
-/

namespace Mini.Exec

variable {α β γ : Type}

/-! ## Ways of putting steps together -/

@[simp] theorem get_apply (f : Session → α) (s : Session) : get f s = .done (f s) s :=
  rfl

@[simp] theorem modify_apply (f : Session → Session) (s : Session) :
    modify f s = .done () (f s) :=
  rfl

theorem bind_apply (x : Exec α) (f : α → Exec β) (s : Session) :
    (x >>= f) s =
      match x s with
      | .done a s => f a s
      | .failed fault s => .failed fault s
      | .outOfFuel => .outOfFuel :=
  rfl

theorem bind_assoc (x : Exec α) (f : α → Exec β) (g : β → Exec γ) :
    (x >>= f) >>= g = x >>= fun a => f a >>= g := by
  funext s
  simp only [bind_apply]
  cases x s <;> rfl

@[simp] theorem bind_value (x : Exec α) : (x >>= value) = x := by
  funext s
  rw [bind_apply]
  cases x s <;> rfl

/-- A composition comes to an end only by way of its first part. -/
theorem bind_done {x : Exec α} {f : α → Exec β} {s t : Session} {b : β}
    (h : (x >>= f) s = .done b t) : ∃ a u, x s = .done a u ∧ f a u = .done b t := by
  rw [bind_apply] at h
  cases hx : x s with
  | done a u => rw [hx] at h; exact ⟨a, u, rfl, h⟩
  | failed | outOfFuel => rw [hx] at h; cases h

/-- A composition fails in its first part or behind it. -/
theorem bind_failed {x : Exec α} {f : α → Exec β} {s t : Session} {fault : Fault}
    (h : (x >>= f) s = .failed fault t) :
    x s = .failed fault t ∨ ∃ a u, x s = .done a u ∧ f a u = .failed fault t := by
  rw [bind_apply] at h
  cases hx : x s with
  | done a u => rw [hx] at h; exact .inr ⟨a, u, rfl, h⟩
  | failed fault' u => rw [hx] at h; cases h; exact .inl rfl
  | outOfFuel => rw [hx] at h; cases h

theorem inScope_apply (x : Exec α) (s : Session) :
    inScope x s =
      match x { s with scopes := s.scopes.enter } with
      | .done a t => .done a { t with scopes := t.scopes.leave }
      | .failed fault t => .failed fault { t with scopes := t.scopes.leave }
      | .outOfFuel => .outOfFuel :=
  rfl

theorem inScope_done {x : Exec α} {s t : Session} {a : α} (h : inScope x s = .done a t) :
    ∃ u, x { s with scopes := s.scopes.enter } = .done a u ∧
      t = { u with scopes := u.scopes.leave } := by
  rw [inScope_apply] at h
  split at h
  · cases h; exact ⟨_, ‹_›, rfl⟩
  · cases h
  · cases h

theorem inScope_failed {x : Exec α} {s t : Session} {fault : Fault}
    (h : inScope x s = .failed fault t) :
    ∃ u, x { s with scopes := s.scopes.enter } = .failed fault u ∧
      t = { u with scopes := u.scopes.leave } := by
  rw [inScope_apply] at h
  split at h
  · cases h
  · cases h; exact ⟨_, ‹_›, rfl⟩
  · cases h

/-- The session in which the body of a call begins, before its parameters are bound. -/
def activated (name : String) (location : Location) (s : Session) : Session :=
  { s.push name (some location) with scopes := s.scopes.enter }

/-- The session behind the body of a call that is going to fail. -/
def unwound (s : Session) : Session :=
  { s with pending := .nothing, scopes := s.scopes.leave }

theorem activate_apply (name : String) (location : Location) (body : Exec Unit) (s : Session) :
    activate name location body s =
      match body (activated name location s) with
      | .done _ t => .done t.pending (unwound t).pop
      | .failed fault t => .failed fault (unwound t)
      | .outOfFuel => .outOfFuel := by
  unfold activate
  simp only [bind_apply, modify_apply, endingWith, inScope_apply]
  have entered : body { s.push name (some location) with
      scopes := (s.push name (some location)).scopes.enter } =
      body (activated name location s) := rfl
  rw [entered]
  cases body (activated name location s) <;> rfl

theorem activate_done {name : String} {location : Location} {body : Exec Unit} {s t : Session}
    {v : Value} (h : activate name location body s = .done v t) :
    ∃ u, body (activated name location s) = .done () u ∧ t = (unwound u).pop := by
  rw [activate_apply] at h
  split at h
  · cases h; exact ⟨_, ‹_›, rfl⟩
  · cases h
  · cases h

theorem activate_failed {name : String} {location : Location} {body : Exec Unit} {s t : Session}
    {fault : Fault} (h : activate name location body s = .failed fault t) :
    ∃ u, body (activated name location s) = .failed fault u ∧ t = unwound u := by
  rw [activate_apply] at h
  split at h
  · cases h
  · cases h; exact ⟨_, ‹_›, rfl⟩
  · cases h

/-! ## Steps that may hit a limit or be at fault -/

theorem lookUp_apply (look : Session → Except Limit α) (s : Session) :
    (get look >>= orLimit) s =
      match look s with
      | .ok a => .done a s
      | .error limit => .failed ⟨.limit limit, none⟩ s := by
  rw [bind_apply, get_apply]
  cases look s <;> rfl

theorem orBlame_apply (location : Option Location) (r : Except Cause α) (s : Session) :
    orBlame location r s =
      match r with
      | .ok a => .done a s
      | .error cause => .failed ⟨cause, location⟩ s := by
  cases r <;> rfl

theorem note_apply (rule : String) (location : Location) (fields : Details) (s : Session) :
    note rule location fields s =
      match s.step rule (some location) fields with
      | .ok e => .done () (s.record e)
      | .error limit => .failed ⟨.limit limit, none⟩ s := by
  unfold note
  rw [← bind_assoc, bind_apply, lookUp_apply]
  cases s.step rule (some location) fields <;> rfl

theorem note_ok {rule : String} {location : Location} {fields : Details} {s : Session} {e : Entry}
    (made : s.step rule (some location) fields = .ok e) :
    note rule location fields s = .done () (s.record e) := by
  rw [note_apply, made]

theorem name_apply (id : Identifier) (s : Session) :
    name id s =
      if id.name = "true" then .done (.boolean true) s
      else if id.name = "false" then .done (.boolean false) s
      else
        match s.scopes.get id.name with
        | .ok v => .done v s
        | .error cause => .failed ⟨cause, some id.location⟩ s := by
  unfold name
  split
  · rfl
  · split
    · rfl
    · rw [bind_apply, get_apply]
      cases s.scopes.get id.name <;> rfl

theorem newArray_apply (pairs : Pairs) (s : Session) :
    newArray pairs s = .done (.array s.heap.fresh) { s with heap := s.heap.add pairs } :=
  rfl

theorem store_apply (ref : Ref) (key v : Value) (s : Session) :
    store ref key v s =
      match s.heap.store (s.heap.read ref) key v with
      | .ok pairs => .done () { s with heap := s.heap.write ref pairs }
      | .error limit => .failed ⟨.limit limit, none⟩ s := by
  unfold store
  rw [← bind_assoc, bind_apply, lookUp_apply]
  cases s.heap.store (s.heap.read ref) key v <;> rfl

theorem bindName_apply (name : String) (v : Value) (s : Session) :
    bind name v s =
      match s.scopes.bind name v with
      | .ok scopes => .done () { s with scopes := scopes }
      | .error cause => .failed ⟨cause, none⟩ s := by
  unfold bind
  rw [bind_apply, get_apply]
  simp only [bind_apply, orBlame_apply]
  cases s.scopes.bind name v <;> rfl

theorem bindName_ok {name : String} {v : Value} {s : Session} {scopes : Scopes}
    (bound : s.scopes.bind name v = .ok scopes) :
    bind name v s = .done () { s with scopes := scopes } := by
  rw [bindName_apply, bound]

theorem declare_cons_apply (param : Identifier) (params : List Identifier) (arg : Value)
    (args : List Value) (s : Session) :
    declare (param :: params) (arg :: args) s =
      match s.scopes.declare param.name arg with
      | .ok scopes => declare params args { s with scopes := scopes }
      | .error cause => .failed ⟨cause, none⟩ s := by
  rw [declare, bind_apply, get_apply]
  simp only [bind_apply, orBlame_apply]
  cases s.scopes.declare param.name arg <;> rfl

/-! ## What steps leave alone -/

/-- A part of the session is behind an execution what it was before, however that ends. -/
def Keeps (part : Session → γ) (x : Exec α) : Prop :=
  ∀ s, match x s with
    | .done _ t | .failed _ t => part t = part s
    | .outOfFuel => True

namespace Keeps

variable {part : Session → γ} {x : Exec α}

theorem done (h : Keeps part x) {s t : Session} {a : α} (done : x s = .done a t) :
    part t = part s := by
  have kept := h s
  rw [done] at kept
  exact kept

theorem failed (h : Keeps part x) {s t : Session} {fault : Fault}
    (failed : x s = .failed fault t) : part t = part s := by
  have kept := h s
  rw [failed] at kept
  exact kept

theorem of_ends (done : ∀ {s a t}, x s = .done a t → part t = part s)
    (failed : ∀ {s fault t}, x s = .failed fault t → part t = part s) : Keeps part x := by
  intro s
  cases here : x s with
  | done a t => exact done here
  | failed fault t => exact failed here
  | outOfFuel => trivial

/-- With a part, whatever can be read off that part is kept. -/
theorem map {δ : Type} (h : Keeps part x) (read : γ → δ) : Keeps (fun s => read (part s)) x :=
  of_ends (fun here => congrArg read (h.done here)) (fun here => congrArg read (h.failed here))

theorem andThen {f : α → Exec β} (first : Keeps part x) (later : ∀ a, Keeps part (f a)) :
    Keeps part (x >>= f) := by
  refine of_ends (fun here => ?_) (fun here => ?_)
  · obtain ⟨a, u, here, there⟩ := bind_done here
    exact ((later a).done there).trans (first.done here)
  · obtain here | ⟨a, u, here, there⟩ := bind_failed here
    · exact first.failed here
    · exact ((later a).failed there).trans (first.done here)

/-! ### Steps that only read -/

theorem lookUp (look : Session → Except Limit α) : Keeps id (get look >>= orLimit) := by
  intro s
  rw [lookUp_apply]
  cases look s <;> rfl

theorem name (identifier : Identifier) : Keeps id (name identifier) := by
  intro s
  rw [name_apply]
  by_cases isTrue : identifier.name = "true"
  · rw [if_pos isTrue]
  · by_cases isFalse : identifier.name = "false"
    · rw [if_neg isTrue, if_pos isFalse]
    · rw [if_neg isTrue, if_neg isFalse]
      cases s.scopes.get identifier.name <;> rfl

/-! ### Steps that change one component -/

theorem note (rule : String) (location : Location) (fields : Details) :
    Keeps ({ · with log := .initial false }) (note rule location fields) := by
  intro s
  rw [note_apply]
  cases s.step rule (some location) fields <;> rfl

theorem store (ref : Ref) (key v : Value) :
    Keeps ({ · with heap := .empty }) (store ref key v) := by
  intro s
  rw [store_apply]
  cases s.heap.store (s.heap.read ref) key v <;> rfl

theorem bindName (name : String) (v : Value) :
    Keeps ({ · with scopes := .empty }) (Exec.bind name v) := by
  intro s
  rw [bindName_apply]
  cases s.scopes.bind name v <;> rfl

theorem declare : ∀ (params : List Identifier) (args : List Value),
    Keeps ({ · with scopes := .empty }) (declare params args)
  | [], _, s => rfl
  | _ :: _, [], s => rfl
  | param :: params, arg :: args, s => by
      rw [declare_cons_apply]
      cases s.scopes.declare param.name arg with
      | ok scopes => exact declare params args { s with scopes := scopes }
      | error cause => rfl

end Keeps

end Mini.Exec

namespace Mini.Session

/-! ## What is in a step -/

/-- A step has the next number and stands under the innermost frame. Only its snapshot depends on
the log. -/
theorem step_ok {s : Session} {rule : String} {location : Option Location} {fields : Details}
    {e : Entry} (made : s.step rule location fields = .ok e) :
    ∃ env, e = s.entry location (location.map Location.statement) env
      (some (OrderedMap.putAll [("rule", .text rule)] fields)) := by
  unfold step at made
  split at made
  · cases snapshot : s.scopes.snapshot s.heap with
    | ok env =>
        rw [snapshot] at made
        cases made
        exact ⟨some env, rfl⟩
    | error limit =>
        rw [snapshot] at made
        cases made
  · cases made
    exact ⟨none, rfl⟩

/-! ## Taking a frame off the stack -/

theorem pop_frames (s : Session) : s.pop.frames = s.frames := by
  unfold pop
  cases s.stack <;> rfl

theorem pop_pending (s : Session) : s.pop.pending = s.pending := by
  unfold pop
  cases s.stack <;> rfl

theorem pop_scopes (s : Session) : s.pop.scopes = s.scopes := by
  unfold pop
  cases s.stack <;> rfl

theorem pop_heap (s : Session) : s.pop.heap = s.heap := by
  unfold pop
  cases s.stack <;> rfl

theorem pop_output (s : Session) : s.pop.output = s.output := by
  unfold pop
  cases s.stack <;> rfl

theorem pop_next (s : Session) : s.pop.log.next = s.log.next := by
  unfold pop
  cases s.stack <;> rfl

theorem pop_entries (s : Session) : s.pop.log.entries = s.log.entries := by
  unfold pop
  cases s.stack <;> rfl

theorem pop_verbose (s : Session) : s.pop.log.verbose = s.log.verbose := by
  unfold pop
  cases s.stack <;> rfl

/-! ## Calls and runs -/

/-- Logging a call with its arguments. -/
def noteCall (name : String) (location : Location) (args : List Value) : Exec Unit :=
  (Exec.get (Exec.callFields name args) >>= Exec.orLimit) >>= Exec.note "CALL" location

theorem keeps_noteCall (name : String) (location : Location) (args : List Value) :
    Exec.Keeps ({ · with log := .initial false }) (noteCall name location args) :=
  ((Exec.Keeps.lookUp _).map ({ · with log := .initial false })).andThen fun fields =>
    Exec.Keeps.note "CALL" location fields

/-- A session in which a run has begun. -/
def begun (s : Session) : Session :=
  { s.push topLevel none with runs := s.runs + 1 }

/-- The statements of a program, in a scope of their own. -/
def programBody (budget : Budget) (program : Program) : Exec Unit :=
  Exec.inScope (Exec.forEach (execute budget.fuel budget.calls) program.statements)

theorem run_eq (budget : Budget) (program : Program) (s : Session) :
    s.run budget program =
      match programBody budget program s.begun with
      | .done _ t => .done () t.pop
      | .failed fault t => .failed (t.blame fault) t
      | .outOfFuel => .outOfFuel :=
  rfl

theorem runSource_eq {source : Source} {program : Program}
    (read : Program.ofSource source = .ok program) (budget : Budget) (s : Session) :
    s.runSource budget source =
      match programBody budget program s.begun with
      | .done _ t => (.finished, t.pop)
      | .failed fault t => (.failed (t.blame fault), t)
      | .outOfFuel => (.unfinished, s) := by
  rw [runSource, read]
  dsimp only
  rw [run_eq]
  cases programBody budget program s.begun <;> rfl

/-! ## Ends of executions and of runs -/

section Ends

open Exec

variable {α β : Type}

/-- The session that an execution ends in, whether it is done there or fails. -/
def left? : Outcome α → Option Session
  | .done _ s | .failed _ s => some s
  | .outOfFuel => none

theorem left?_cases {o : Outcome α} {t : Session} (left : left? o = some t) :
    (∃ a, o = .done a t) ∨ ∃ fault, o = .failed fault t := by
  cases o with
  | done a u =>
      cases left
      exact .inl ⟨a, rfl⟩
  | failed fault u =>
      cases left
      exact .inr ⟨fault, rfl⟩
  | outOfFuel => cases left

theorem left?_andThen {x : Exec α} {f : α → Exec β} {s t : Session}
    (left : left? ((x >>= f) s) = some t) :
    left? (x s) = some t ∨ ∃ a u, x s = .done a u ∧ left? (f a u) = some t := by
  rw [bind_apply] at left
  cases here : x s with
  | done a u =>
      rw [here] at left
      exact .inr ⟨a, u, rfl, left⟩
  | failed fault u =>
      rw [here] at left
      exact .inl left
  | outOfFuel =>
      rw [here] at left
      cases left

end Ends

/-- The session behind a run, if it is done. -/
def finish? : Ending × Session → Option Session
  | (.finished, s) => some s
  | _ => none

/-- The fault that a run ends with, if there is one, and the session behind it. -/
def failure? : Ending × Session → Option (Fault × Session)
  | (.failed fault, s) => some (fault, s)
  | _ => none

theorem of_finish? {ended : Ending × Session} {s : Session} (h : finish? ended = some s) :
    ended = (.finished, s) := by
  obtain ⟨ending, t⟩ := ended
  cases ending with
  | finished =>
      cases h
      rfl
  | failed | rejected | unfinished => cases h

theorem of_failure? {ended : Ending × Session} {fault : Fault} {s : Session}
    (h : failure? ended = some (fault, s)) : ended = (.failed fault, s) := by
  obtain ⟨ending, t⟩ := ended
  cases ending with
  | failed =>
      cases h
      rfl
  | finished | rejected | unfinished => cases h

/-- The cause for which a run fails, and the output. -/
def failedWith? : Outcome Unit → Option (Cause × Array String)
  | .failed fault t => some (fault.cause, t.output)
  | .done .. | .outOfFuel => none

theorem ends_of_failedWith? {o : Outcome Unit} {ended : Cause × Array String}
    (h : failedWith? o = some ended) : o ≠ .outOfFuel := by
  rintro rfl
  cases h

/-- A fault is reported with its own cause. -/
theorem blame_cause (t : Session) (fault : Fault) : (t.blame fault).cause = fault.cause := by
  unfold blame
  split <;> rfl

end Mini.Session
