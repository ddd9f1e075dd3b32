import Mini.Proofs.Execution.Tracked

/-!
# Returns and the value of a call

There is one pending value for the whole session. A `return` sets it, the end of any
call takes it and leaves nothing, and the beginning of a call leaves it alone. So the
value of a call is what its own last `return` made pending only if the body called
no function behind it; and a body that returns nothing itself gives away what was
pending before.

The history of a body tells which activation has returned something, so `returnsIn` finds the
returns that are a call's own. A frame is made for each call, so the number of frames tells
whether a function has been called between two points of a run.
-/

namespace Mini.Session

open Exec

/-- A `return` that has been executed: what it made pending, and the number of frames
that had been made by then. -/
structure Returned where
  value : Value
  frames : Nat

/-- The `return` that an event is, if the activation with the given frame has executed one. -/
def returned (frame : Nat) (e : Event) : Option Returned :=
  match e.deed with
  | .returns v => if e.frame = frame then some ⟨v, e.session.frames⟩ else none
  | _ => none

/-- The returns that the activation with the given frame has executed itself, in order. Those of
the functions that it called are not among them. -/
def returnsIn (frame : Nat) (events : List Event) : List Returned :=
  events.filterMap (returned frame)

theorem returnsIn_append (frame : Nat) (events more : List Event) :
    returnsIn frame (events ++ more) = returnsIn frame events ++ returnsIn frame more :=
  List.filterMap_append

theorem returnsIn_of_others {frame : Nat} {events : List Event}
    (others : ∀ e ∈ events, e.frame ≠ frame) : returnsIn frame events = [] := by
  refine List.filterMap_eq_nil_iff.mpr fun e mem => ?_
  unfold returned
  split
  · exact if_neg (others e mem)
  · rfl

theorem returnsIn_of_none {frame : Nat} {events : List Event}
    (silent : ∀ e ∈ events, ∀ v, e.deed ≠ .returns v) : returnsIn frame events = [] := by
  refine List.filterMap_eq_nil_iff.mpr fun e mem => ?_
  unfold returned
  split
  · rename_i v returns
    exact absurd returns (silent e mem v)
  · rfl

/-! ## The pending value in the course of an execution -/

/-- The last thing that was made pending: by the last of the given returns, or before
them. -/
def lastMade (s : Session) (own : List Returned) : Returned :=
  own.getLast?.getD ⟨s.pending, s.frames⟩

theorem lastMade_nil (s : Session) : lastMade s [] = ⟨s.pending, s.frames⟩ :=
  rfl

/-- From `s` to `t` the given returns have been executed, and functions called: what
was made pending last is pending still, unless a function has been called since. -/
structure Settled (s : Session) (own : List Returned) (t : Session) : Prop where
  made : s.frames ≤ (lastMade s own).frames
  since : (lastMade s own).frames ≤ t.frames
  kept : t.frames = (lastMade s own).frames → t.pending = (lastMade s own).value
  taken : (lastMade s own).frames < t.frames → t.pending = .nothing

namespace Settled

theorem frames_le {s t : Session} {own : List Returned} (h : Settled s own t) :
    s.frames ≤ t.frames :=
  Nat.le_trans h.made h.since

theorem of_eq {s t : Session} (frames : t.frames = s.frames) (pending : t.pending = s.pending) :
    Settled s [] t := by
  refine ⟨Nat.le_refl _, ?_, fun _ => pending, ?_⟩
  · rw [frames]; exact Nat.le_refl _
  · rw [lastMade_nil, frames]
    exact fun lt => absurd lt (Nat.lt_irrefl _)

/-- A call has been made and has ended. -/
theorem of_lt {s t : Session} (frames : s.frames < t.frames) (pending : t.pending = .nothing) :
    Settled s [] t :=
  ⟨Nat.le_refl _, Nat.le_of_lt frames, fun same => absurd same (Nat.ne_of_gt frames),
    fun _ => pending⟩

theorem trans {s t u : Session} {own later : List Returned} (h : Settled s own t)
    (h' : Settled t later u) : Settled s (own ++ later) u := by
  -- later returns decide if there are any; else only a call can have come in between
  cases hl : later.getLast? with
  | some r =>
      have last : lastMade s (own ++ later) = lastMade t later := by
        simp [lastMade, List.getLast?_append, hl]
      have made := Nat.le_trans h.frames_le h'.made
      rw [← last] at made
      exact ⟨made, last ▸ h'.since, last ▸ h'.kept, last ▸ h'.taken⟩
  | none =>
      rw [List.getLast?_eq_none_iff] at hl
      subst hl
      rw [List.append_nil]
      have since : t.frames ≤ u.frames := h'.since
      refine ⟨h.made, Nat.le_trans h.since since, fun same => ?_, fun lt => ?_⟩
      · have same' : t.frames = (lastMade s own).frames :=
          Nat.le_antisymm (same ▸ since) h.since
        have kept := h'.kept (same.trans same'.symm)
        rw [kept, lastMade_nil]
        exact h.kept same'
      · rcases Nat.lt_or_eq_of_le since with called | same
        · exact h'.taken called
        · have kept : u.pending = t.pending := h'.kept same.symm
          rw [kept]
          exact h.taken (same ▸ lt)

end Settled

/-! ## Executions -/

/-- What the activation with the given frame makes pending is told by its own returns, and whatever
its callees do is done under frames that are made for them. -/
structure Settles (frame : Nat) ⦃α : Type⦄ (found : Session → List Event) (x : Exec α) : Prop where
  own : ∀ ⦃s⦄, frame < s.frames → ∀ e ∈ found s, e.frame = frame ∨ s.frames ≤ e.frame
  settled : ∀ ⦃s a t⦄, frame < s.frames → x s = .done a t →
    Settled s (returnsIn frame (found s)) t

/-- Events of one activation, none of which is a `return`. -/
def Silent (frame : Nat) (found : Session → List Event) : Prop :=
  ∀ s, ∀ e ∈ found s, e.frame = frame ∧ ∀ v, e.deed ≠ .returns v

theorem silent_noEvents (frame : Nat) : Silent frame noEvents :=
  fun _ _ mem => absurd mem List.not_mem_nil

theorem silent_heard {α : Type} {x : Exec α} {frame : Nat} {deed : Session → Deed}
    (other : ∀ s v, deed s ≠ .returns v) : Silent frame (heard frame deed x) := by
  intro s e mem
  obtain rfl := eq_of_mem_heard mem
  exact ⟨rfl, other s⟩

theorem silent_heardPrint {frame : Nat} (location : Location) (v : Value) :
    Silent frame (heardPrint frame location v) := by
  intro s e mem
  obtain ⟨text, rfl⟩ := eq_of_mem_heardPrint mem
  exact ⟨rfl, fun _ => nofun⟩

theorem silent_writings {frame : Nat} {found : Session → List Event}
    (writings : Writings frame found) : Silent frame found := by
  intro s e mem
  obtain ⟨values, rfl⟩ := writings s e mem
  exact ⟨rfl, fun _ => nofun⟩

theorem Silent.ahead {frame : Nat} {earlier found : Session → List Event}
    (writings : Writings frame earlier) (silent : Silent frame found) :
    Silent frame (ahead earlier found) := by
  intro s e mem
  rcases List.mem_append.mp mem with mem | mem
  · exact silent_writings writings s e mem
  · exact silent s e mem

/-- What decides whether something has become pending. -/
def made (s : Session) : Nat × Value :=
  (s.frames, s.pending)

namespace Settles

variable {α β : Type} {frame : Nat} {found : Session → List Event} {x : Exec α}

/-- A step that makes nothing pending and takes nothing. -/
theorem silent (silent : Silent frame found) (keeps : Keeps made x) : Settles frame found x := by
  refine ⟨fun s _ e mem => .inl (silent s e mem).1, fun s a t _ done => ?_⟩
  obtain ⟨frames, pending⟩ := Prod.mk.inj (keeps.done done)
  rw [returnsIn_of_none fun e mem => (silent s e mem).2]
  exact .of_eq frames pending

/-- A step in which nothing happens. -/
theorem plain (keeps : Keeps made x) : Settles frame noEvents x :=
  silent (silent_noEvents frame) keeps

theorem andThen {f : α → Exec β} {later} (h : Settles frame found x)
    (h' : ∀ a, Settles frame (later a) (f a)) : Settles frame (inTurn found x later) (x >>= f) := by
  refine ⟨fun s below e mem => ?_, fun s b t below done => ?_⟩
  · rcases List.mem_append.mp mem with mem | mem
    · exact h.own below e mem
    · cases here : x s with
      | done a u =>
          rw [listBehind_done _ here] at mem
          have since := (h.settled below here).frames_le
          exact ((h' a).own (Nat.lt_of_lt_of_le below since) e mem).imp_right (Nat.le_trans since)
      | failed | outOfFuel =>
          rw [here] at mem
          cases mem
  · obtain ⟨a, u, here, there⟩ := bind_done done
    have first := h.settled below here
    rw [inTurn_done here, returnsIn_append]
    exact first.trans ((h' a).settled (Nat.lt_of_lt_of_le below first.frames_le) there)

theorem andThenPlain {f : α → Exec β} (h : Settles frame found x) (h' : ∀ a, Keeps made (f a)) :
    Settles frame found (x >>= f) := by
  have both := h.andThen fun a => plain (h' a)
  rwa [inTurn_noEvents] at both

/-- A scope does not matter to what is pending. -/
theorem inScope (h : Settles frame found x) :
    Settles frame (fun s => found { s with scopes := s.scopes.enter }) (inScope x) := by
  refine ⟨fun s below => h.own (s := { s with scopes := s.scopes.enter }) below,
    fun s a t below done => ?_⟩
  obtain ⟨u, here, rfl⟩ := inScope_done done
  obtain ⟨made, since, kept, taken⟩ :=
    h.settled (s := { s with scopes := s.scopes.enter }) below here
  exact ⟨made, since, kept, taken⟩

theorem of_sessions (h : ∀ s, ∃ same, same s = found s ∧ Settles frame same x) :
    Settles frame found x := by
  refine ⟨fun s below => ?_, fun s a t below done => ?_⟩
  · obtain ⟨_, same, settles⟩ := h s
    exact same ▸ settles.own below
  · obtain ⟨_, same, settles⟩ := h s
    exact same ▸ settles.settled below done

/-- A `return` settles what is pending by itself. -/
theorem setPending (v : Value) : Settles frame (heardReturn frame v) (setPending v) := by
  refine ⟨fun s _ e mem => ?_, fun s a t _ done => ?_⟩
  · obtain rfl := eq_of_mem_heard mem
    exact .inl rfl
  · have own : returnsIn frame (heardReturn frame v s) = [⟨v, s.frames⟩] := by
      simp [heardReturn, heard_done done, returnsIn, returned]
    rw [own]
    cases done
    exact ⟨Nat.le_refl _, Nat.le_refl _, fun _ => rfl, fun lt => absurd lt (Nat.lt_irrefl _)⟩

end Settles

theorem keeps_printing (location : Location) (v : Value) : Keeps made (printing location v) := by
  rw [printing, ← bind_assoc]
  refine ((Keeps.lookUp _).map made).andThen fun text => ?_
  exact ((Keeps.note "PRINT" location [("output", .text text)]).map made).andThen fun _ _ => rfl

/-- A call leaves nothing pending, whatever its body does, and all that the body does is done under
the frame of the call or under later ones. -/
theorem settles_call {frame : Nat} (name : String) (location : Location) (params : List Identifier)
    (args : List Value) {body : Exec Unit} {inside : Nat → Session → List Event}
    (h : ∀ callee, Settles callee (inside callee) body) :
    Settles frame
      (ahead (writingCall frame name args)
        (historyOfCall frame name location params args body inside))
      (noteCall name location args >>= fun _ =>
        activate name location (declare params args >>= fun _ => body)) := by
  have declared := (Keeps.declare params args).map made
  have bound := fun callee => (Settles.plain declared).andThen fun _ => h callee
  have activated : Settles frame (historyInCall name location params args inside)
      (activate name location (declare params args >>= fun _ => body)) := by
    have others : ∀ s, ∀ e ∈ historyInCall name location params args inside s,
        s.frames ≤ e.frame := by
      intro s e mem
      rcases (bound s.frames).own (s := activated name location s) (Nat.lt_succ_self _) e mem with
        same | above
      · exact Nat.le_of_eq same.symm
      · exact Nat.le_of_succ_le above
    refine ⟨fun s _ e mem => .inr (others s e mem), fun s v t below done => ?_⟩
    obtain ⟨u, inner, rfl⟩ := activate_done done
    rw [returnsIn_of_others fun e mem =>
      Nat.ne_of_gt (Nat.lt_of_lt_of_le below (others s e mem))]
    -- the frame of the call itself shows that a call has been made since
    have made : s.frames + 1 ≤ u.frames :=
      ((bound s.frames).settled (Nat.lt_succ_self _) inner).frames_le
    refine .of_lt ?_ (pop_pending _)
    rw [pop_frames]
    exact made
  have logged : Settles frame
      (ahead (writingCall frame name args) (heardCall frame name location args))
      (noteCall name location args) :=
    .silent (.ahead (writings_call frame name args) (silent_heard fun _ _ => nofun))
      ((keeps_noteCall name location args).map made)
  exact call_of_parts Settles.andThen logged activated fun _ =>
    .silent (silent_heard fun _ _ => nofun) fun _ => rfl

theorem tracked_settles : Tracked (fun _ frame _ _ found x => Settles frame found x)
    fun _ frame _ _ found x => Settles frame found x where
  value _ _ := .plain fun _ => rfl
  fail _ _ := .plain fun _ => rfl
  exhausted := .plain fun _ => trivial
  andThen := Settles.andThen
  ofExpr settles := settles
  sequence := Settles.andThen
  inScope := Settles.inScope
  noteStatement _ :=
    .silent (.ahead (writings_bindings _) (silent_heard fun _ _ => nofun))
      ((Keeps.note _ _ _).map made)
  name id := .plain ((Keeps.name id).map made)
  function _ _ _ := .plain fun _ => rfl
  fetch _ _ := .plain ((Keeps.lookUp _).map made)
  bind name v _ := .plain ((Keeps.bindName name v).map made)
  setPending v _ := .setPending v
  store ref key v _ _ := .silent (silent_heard fun _ _ => nofun) ((Keeps.store ref key v).map made)
  array elements each :=
    array_of_each (fun _ => .plain fun _ => rfl) Settles.andThen
      (fun _ _ _ _ => .silent (silent_heard fun _ _ => nofun) ((Keeps.lookUp _).map made))
      (fun e => each e []) (fun _ => .plain fun _ => rfl) .of_sessions elements
  printed location v :=
    .silent (.ahead (writings_print _ v) (silent_heardPrint location v)) (keeps_printing location v)
  refused {frame _} name location args := by
    have logged : Settles frame
        (ahead (writingCall frame name args) (heardRefused frame name location args))
        (noteCall name location args) :=
      .silent (.ahead (writings_call frame name args) (silent_heard fun _ _ => nofun))
        ((keeps_noteCall name location args).map made)
    exact logged.andThenPlain fun _ _ => rfl
  call name location params args _ _ _ _ h := settles_call name location params args h

/-! ## Calls -/

/-- A call of a function whose body is carried out to its end: the body of `function`
goes from `entered` to `left`. Before, the callee and the arguments have been evaluated
from `s` on, the call has been logged, a frame has been made for it, and the parameters have been
bound in a scope of their own. -/
structure Activation (fuel calls : Nat) (location : Location) (callee : Expr) (args : List Expr)
    (s : Session) where
  function : Function
  /-- The number of calls that may nest inside this one. -/
  inner : Nat
  /-- The number of the frame that has been made for the call. -/
  frame : Nat
  entered : Session
  left : Session
  begins : ∃ values fields s₁ s₂ s₃,
    evaluate fuel calls callee s = .done (.function function) s₁ ∧
    function.params.length = args.length ∧
    collect (evaluate fuel calls) args s₁ = .done values s₂ ∧
    callFields callee.calleeName values s₂ = .ok fields ∧
    note "CALL" location fields s₂ = .done () s₃ ∧
    calls = inner + 1 ∧
    s₃.frames = frame ∧
    declare function.params values (activated callee.calleeName location s₃) = .done () entered
  ends : forEach (execute fuel inner) function.body.statements entered = .done () left

/-- The returns that a call executes itself, in the history of its body. -/
def Activation.own {fuel calls : Nat} {location : Location} {callee : Expr} {args : List Expr}
    {s : Session} (a : Activation fuel calls location callee args s) : List Returned :=
  returnsIn a.frame (historyOfList fuel a.inner a.frame a.function.body.statements a.entered)

/-- The frame of a call is made before its body is entered. -/
theorem Activation.frame_lt {fuel calls : Nat} {location : Location} {callee : Expr}
    {args : List Expr} {s : Session} (a : Activation fuel calls location callee args s) :
    a.frame < a.entered.frames := by
  obtain ⟨values, fields, s₁, s₂, s₃, -, -, -, -, -, -, frame, declared⟩ := a.begins
  have kept : a.entered.frames = s₃.frames + 1 := ((Keeps.declare _ _).map (·.frames)).done declared
  rw [kept, frame]
  exact Nat.lt_succ_self _

/-- A call that comes to its end gives what is pending behind its body. -/
theorem activation_of_done {fuel calls : Nat} {location : Location} {callee : Expr}
    {args : List Expr} {s t : Session} {v : Value} (mini : callee.isPrint = false)
    (completed : evaluate (fuel + 1) calls (.call location callee args) s = .done v t) :
    ∃ a : Activation fuel calls location callee args s, v = a.left.pending := by
  simp only [evaluate, mini] at completed
  obtain ⟨w, s₁, evaluated, h⟩ := bind_done completed
  -- every value but a function is at fault, so the call would not have come to its end
  cases w with
  | nothing | number | text | boolean | array =>
      obtain ⟨_, _, wrong, _⟩ := bind_done h
      cases wrong
  | function f =>
      obtain ⟨_, _, found, h⟩ := bind_done h
      cases found
      split at h
      · cases h
      · rename_i arity
        obtain ⟨values, s₂, collected, h⟩ := bind_done h
        rw [← bind_assoc] at h
        obtain ⟨fields, _, described, h⟩ := bind_done h
        rw [lookUp_apply] at described
        cases hf : callFields callee.calleeName values s₂ with
        | error limit => rw [hf] at described; cases described
        | ok fields' =>
            rw [hf] at described
            cases described
            obtain ⟨_, s₃, noted, h⟩ := bind_done h
            cases calls with
            | zero => cases h
            | succ inner =>
                have h : activate callee.calleeName location (declare f.params values >>=
                  fun _ => forEach (execute fuel inner) f.body.statements) s₃ = .done v t := h
                rw [activate_apply] at h
                cases hb : (declare f.params values >>= fun _ =>
                    forEach (execute fuel inner) f.body.statements)
                    (activated callee.calleeName location s₃) with
                | failed | outOfFuel => rw [hb] at h; cases h
                | done _ left =>
                    rw [hb] at h
                    cases h
                    obtain ⟨_, entered, declared, body⟩ := bind_done hb
                    have reached := Classical.not_not.mp arity
                    exact ⟨⟨f, inner, s₃.frames, entered, left, ⟨values, _, s₁, s₂, s₃, evaluated,
                      reached, collected, hf, noted, rfl, rfl, declared⟩, body⟩, rfl⟩

/-- The value of the last of one's own returns, or nothing. -/
def ownValue (own : List Returned) : Value :=
  (own.getLast?.map Returned.value).getD .nothing

/-- **The value of a call.** It is what was made pending last, by the call's own last
`return` or before its body, unless the body has called a function since; then it is
nothing. So the own last `return` decides exactly if the body calls no function behind
it, and without a `return` of its own a call gives nothing exactly if nothing was pending
when the body began or the body calls a function. -/
theorem value_of_call {fuel calls : Nat} {location : Location} {callee : Expr}
    {args : List Expr} {s t : Session} {v : Value} (mini : callee.isPrint = false)
    (completed : evaluate (fuel + 1) calls (.call location callee args) s = .done v t) :
    ∃ a : Activation fuel calls location callee args s,
      (v = if a.left.frames = (lastMade a.entered a.own).frames
        then (lastMade a.entered a.own).value else .nothing) ∧
      (v = ownValue a.own ↔
        match a.own.getLast? with
        | none => a.entered.pending = .nothing ∨ a.entered.frames < a.left.frames
        | some r => r.value = .nothing ∨ a.left.frames = r.frames) := by
  obtain ⟨a, rfl⟩ := activation_of_done mini completed
  have h : Settled a.entered a.own a.left :=
    (tracked_settles.list fuel a.inner a.frame [] a.function.body.statements).settled a.frame_lt
      a.ends
  refine ⟨a, ?_, ?_⟩
  · split
    · rename_i same
      exact h.kept same
    · rename_i other
      exact h.taken (Nat.lt_of_le_of_ne h.since fun e => other e.symm)
  · have since := h.since
    have kept := h.kept
    have taken := h.taken
    unfold ownValue
    unfold lastMade at since kept taken
    cases last : a.own.getLast? with
    | none =>
        rw [last] at since kept taken
        dsimp only [Option.getD_none, Option.map_none] at since kept taken ⊢
        rcases Nat.lt_or_eq_of_le since with called | same
        · exact iff_of_true (taken called) (Or.inr called)
        · rw [kept same.symm, same]
          simp
    | some r =>
        rw [last] at since kept taken
        dsimp only [Option.getD_some, Option.map_some] at since kept taken ⊢
        rcases Nat.lt_or_eq_of_le since with called | same
        · rw [taken called]
          simp [Nat.ne_of_gt called, eq_comm]
        · exact iff_of_true (kept same.symm) (Or.inr same.symm)

/-! ### A return that is forgotten -/

/-- A place for syntax that is written by hand. -/
def nowhere : Location :=
  ⟨"", 1, 1, ""⟩

/-- A function that returns one and then calls a function that returns nothing. -/
def forgetful : Expr :=
  .func nowhere []
    (.mk nowhere
      [.ret nowhere (some (.number nowhere 1)),
        .expr nowhere (.call nowhere (.func nowhere [] (.mk nowhere [])) [])])

theorem value_of_call_forgetful :
    forgetful.isPrint = false ∧ ∃ t,
      evaluate 8 2 (.call nowhere forgetful []) (initial false) = .done .nothing t ∧
      ∃ a : Activation 7 2 nowhere forgetful [] (initial false),
        (.nothing = if a.left.frames = (lastMade a.entered a.own).frames
          then (lastMade a.entered a.own).value else .nothing) ∧
        (.nothing = ownValue a.own ↔
          match a.own.getLast? with
          | none => a.entered.pending = .nothing ∨ a.entered.frames < a.left.frames
          | some r => r.value = .nothing ∨ a.left.frames = r.frames) := by
  have completed : ∃ t,
      evaluate 8 2 (.call nowhere forgetful []) (initial false) = .done .nothing t := ⟨_, rfl⟩
  obtain ⟨t, completed⟩ := completed
  exact ⟨rfl, t, completed, value_of_call rfl completed⟩

/-- **The own last `return` does not always decide.** The call gives nothing, though its
body has returned one. -/
theorem ownValue_lost :
    ∃ t, ∃ a : Activation 7 2 nowhere forgetful [] (initial false),
      evaluate 8 2 (.call nowhere forgetful []) (initial false) = .done .nothing t ∧
      ownValue a.own = .number 1 := by
  refine ⟨_, ⟨⟨⟨0, 1, 1⟩, [], _⟩, 1, _, _, _,
    ⟨[], _, _, _, _, rfl, rfl, rfl, rfl, rfl, rfl, rfl, rfl⟩, rfl⟩, rfl, ?_⟩
  rfl

end Mini.Session
