import Mini.Proofs.Execution.Moments
import Mini.Proofs.Execution.Restoration
import Mini.Proofs.Scopes.Arena

/-!
# Names stay in their scopes

A body may bind new names in the scope that was opened for it, and nowhere else. So the scopes that
are open around a block or a call have the same names behind it, however it ends. For expressions
this means all scopes, since what an expression binds it binds in the calls that it makes; and of
the statements only an assignment to a name can leave a new name behind.

A callee may give names of its callers new values, and its parameters may shadow them. Neither adds
a name to a scope that was there before.
-/

namespace Mini

/-! ## Names of scopes -/

namespace Scopes

/-- The names that each open scope binds, in order. -/
def names (s : Scopes) : List (List String) :=
  s.scopes.toList.map fun scope => scope.bindings.keys

/-- All of the scopes but the values in them. -/
def outline (s : Scopes) : Shape × List (List String) :=
  (s.shape, s.names)

theorem names_putIn (s : Scopes) (handle : Nat) (name : String) (v : Value) :
    (s.putIn handle name v).names = s.names.modify handle fun names =>
      if name ∈ names then names else names ++ [name] := by
  refine List.ext_getElem? fun i => ?_
  simp only [names, putIn, List.getElem?_map, List.getElem?_modify, Array.getElem?_toList,
    Array.getElem?_modify]
  by_cases here : handle = i
  · cases there : s.scopes[i]? with
    | none => simp [here]
    | some scope => simp [here, OrderedMap.keys_put]
  · simp [here]

/-- A name that has a value is no new name of its scope. -/
theorem names_putIn_of_lookup {s : Scopes} {handle : Nat} {name : String} (v : Value)
    (found : s.lookup name = some handle) : (s.putIn handle name v).names = s.names := by
  obtain ⟨scope, there, bound⟩ := findFrom_spec found
  have has : name ∈ scope.bindings.keys := (OrderedMap.isSome_find?_iff _ _).mp bound
  rw [names_putIn]
  refine List.ext_getElem? fun i => ?_
  rw [List.getElem?_modify]
  by_cases here : handle = i
  · subst here
    simp [names, there, has]
  · simp [here]

theorem holdsAt_iff_names (s : Scopes) (handle : Nat) (name : String) :
    s.HoldsAt handle name ↔ name ∈ s.names[handle]?.getD [] := by
  unfold HoldsAt bindings names
  cases there : s.scopes[handle]? with
  | none => simp [there, OrderedMap.keys]
  | some scope => simp [there]

/-- A name that is bound is the only one that may be new, and then no scope had it. -/
theorem names_bind {s t : Scopes} {name : String} {v : Value} (stacked : s.Stacked)
    (bound : s.bind name v = .ok t) :
    t.names = s.names ∨
      ∃ handle, s.current = some handle ∧ (∀ other, ¬s.HoldsAt other name) ∧
        t.names = s.names.modify handle (· ++ [name]) := by
  unfold bind at bound
  split at bound
  · rename_i handle found
    cases bound
    exact .inl (names_putIn_of_lookup v found)
  · rename_i missing
    unfold declare at bound
    split at bound
    · cases bound
    · rename_i handle current
      cases bound
      obtain ⟨ms, rfl⟩ := stacked.exists_stack
      have nowhere := (resolves_ofStack ms name).missing.mp missing
      refine .inr ⟨handle, current, nowhere, ?_⟩
      have new := mt (holdsAt_iff_names _ _ _).mpr (nowhere handle)
      rw [names_putIn]
      refine List.ext_getElem? fun i => ?_
      rw [List.getElem?_modify, List.getElem?_modify]
      by_cases here : handle = i
      · subst here
        cases there : (ofStack ms).names[handle]? with
        | none => rfl
        | some names =>
            have new : name ∉ names := by simpa [there] using new
            simp [new]
      · simp [here]

/-- Only the current scope may get new names. -/
structure Widens (s t : Scopes) : Prop where
  shape : t.shape = s.shape
  names : ∀ handle, s.current ≠ some handle → t.names[handle]? = s.names[handle]?

namespace Widens

variable {s t u : Scopes}

theorem of_outline (same : t.outline = s.outline) : Widens s t := by
  obtain ⟨shape, names⟩ := Prod.mk.inj same
  exact ⟨shape, fun _ _ => by rw [names]⟩

theorem trans (first : Widens s t) (later : Widens t u) : Widens s u := by
  have current : t.current = s.current := congrArg Shape.current first.shape
  refine ⟨later.shape.trans first.shape, fun handle other => ?_⟩
  rw [later.names handle (current ▸ other), first.names handle other]

theorem of_declare {name : String} {v : Value} (declared : s.declare name v = .ok t) :
    Widens s t := by
  refine ⟨shape_declare declared, fun handle other => ?_⟩
  unfold declare at declared
  split at declared
  · cases declared
  · rename_i last current
    cases declared
    have ne : last ≠ handle := fun same => other (same ▸ current)
    simp [names_putIn, ne]

theorem of_bind {name : String} {v : Value} (bound : s.bind name v = .ok t) : Widens s t := by
  unfold bind at bound
  split at bound
  · rename_i handle found
    cases bound
    exact ⟨shape_putIn s handle name v, fun _ _ => by rw [names_putIn_of_lookup v found]⟩
  · exact of_declare bound

/-- A scope takes its names with it when it is closed. -/
theorem leave (widens : Widens s.enter t) : t.leave.outline = s.outline := by
  refine Prod.mk.injEq .. ▸ ⟨shape_leave widens.shape, ?_⟩
  have current : t.current = some s.scopes.size := congrArg Shape.current widens.shape
  have size : t.scopes.size = s.scopes.size + 1 := by
    rw [size_of_shape widens.shape, enter, Array.size_push]
  refine List.ext_getElem? fun i => ?_
  have kept := widens.names i
  rw [Scopes.leave, current]
  simp only [Scopes.names, enter, List.getElem?_map, Array.getElem?_toList, Array.getElem?_pop,
    Array.getElem?_push, size, Nat.add_sub_cancel] at kept ⊢
  by_cases below : i < s.scopes.size
  · have last : i ≠ s.scopes.size := Nat.ne_of_lt below
    simpa [below, last, last.symm] using kept
  · simp [below]

end Widens

end Scopes

/-! ## Executions -/

namespace Session

open Exec

variable {α β : Type}

/-- Nothing but the values in the scopes changes. -/
def Contains ⦃α : Type⦄ (x : Exec α) : Prop :=
  Keeps (·.scopes.outline) x

/-- Nothing but the values in the scopes changes, and the names of the current scope. -/
structure Widening ⦃α : Type⦄ (x : Exec α) : Prop where
  done : ∀ ⦃s a t⦄, x s = .done a t → Scopes.Widens s.scopes t.scopes
  failed : ∀ ⦃s fault t⦄, x s = .failed fault t → Scopes.Widens s.scopes t.scopes

namespace Widening

theorem of_contains ⦃α : Type⦄ {x : Exec α} (h : Contains x) : Widening x :=
  ⟨fun _ _ _ done => .of_outline (h.done done), fun _ _ _ failed => .of_outline (h.failed failed)⟩

theorem andThen ⦃α β : Type⦄ {x : Exec α} {f : α → Exec β} (first : Widening x)
    (later : ∀ a, Widening (f a)) : Widening (x >>= f) := by
  refine ⟨fun s b t done => ?_, fun s fault t failed => ?_⟩
  · obtain ⟨a, u, here, there⟩ := bind_done done
    exact (first.done here).trans ((later a).done there)
  · obtain here | ⟨a, u, here, there⟩ := bind_failed failed
    · exact first.failed here
    · exact (first.done here).trans ((later a).failed there)

/-- The scope around an execution takes all new names with it. -/
theorem inScope {x : Exec α} (h : Widening x) : Contains (inScope x) := by
  refine Keeps.of_ends (fun done => ?_) (fun failed => ?_)
  · obtain ⟨u, here, rfl⟩ := inScope_done done
    exact (h.done here).leave
  · obtain ⟨u, here, rfl⟩ := inScope_failed failed
    exact (h.failed here).leave

theorem activate (name : String) (location : Location) {body : Exec Unit} (h : Widening body) :
    Contains (activate name location body) := by
  refine Keeps.of_ends (fun done => ?_) (fun failed => ?_)
  · obtain ⟨u, here, rfl⟩ := activate_done done
    rw [pop_scopes]
    exact (h.done here).leave
  · obtain ⟨u, here, rfl⟩ := activate_failed failed
    exact (h.failed here).leave

theorem declare : ∀ (params : List Identifier) (args : List Value), Widening (declare params args)
  | [], _ => of_contains fun _ => rfl
  | _ :: _, [] => of_contains fun _ => rfl
  | param :: params, arg :: args => by
      have later := declare params args
      refine ⟨fun s a t done => ?_, fun s fault t failed => ?_⟩
      · rw [declare_cons_apply] at done
        split at done
        · rename_i scopes declared
          exact (Scopes.Widens.of_declare declared).trans (later.done done)
        · cases done
      · rw [declare_cons_apply] at failed
        split at failed
        · rename_i scopes declared
          exact (Scopes.Widens.of_declare declared).trans (later.failed failed)
        · cases failed
          exact .of_outline rfl

theorem bind (name : String) (v : Value) : Widening (bind name v) := by
  refine ⟨fun s a t done => ?_, fun s fault t failed => ?_⟩
  · rw [bindName_apply] at done
    split at done
    · rename_i scopes bound
      cases done
      exact .of_bind bound
    · cases done
  · rw [bindName_apply] at failed
    split at failed
    · cases failed
    · cases failed
      exact .of_outline rfl

end Widening

theorem contains_noteCall (name : String) (location : Location) (args : List Value) :
    Contains (noteCall name location args) :=
  (keeps_noteCall name location args).map (·.scopes.outline)

theorem contains_printing (location : Location) (v : Value) : Contains (printing location v) := by
  rw [printing, ← bind_assoc]
  refine Keeps.andThen ((Keeps.lookUp _).map (·.scopes.outline)) fun text => ?_
  exact Keeps.andThen ((Keeps.note "PRINT" location _).map (·.scopes.outline)) fun _ _ => rfl

/-- Expressions contain their names, and statements bind them in the current scope at most. -/
theorem tracked_contains : Tracked (fun ⦃_⦄ _ _ _ _ x => Contains x)
    fun ⦃_⦄ _ _ _ _ x => Widening x where
  value _ _ _ := rfl
  fail _ _ _ := rfl
  exhausted _ := trivial
  andThen := Keeps.andThen
  name id := (Keeps.name id).map (·.scopes.outline)
  function _ _ _ _ := rfl
  fetch _ _ := (Keeps.lookUp _).map (·.scopes.outline)
  array {frame _ _ found} elements each :=
    @array_of_each (fun ⦃_⦄ _ x => Contains x) frame _ found (fun _ _ => rfl) Keeps.andThen
      (fun _ _ _ _ => (Keeps.lookUp _).map (·.scopes.outline)) (fun e => each e []) (fun _ _ => rfl)
      (fun each => (each (.initial false)).elim fun _ holds => holds.2) elements
  printed := contains_printing
  refused name location args :=
    Keeps.andThen (contains_noteCall name location args) fun _ _ => rfl
  call name location params args _ _ _ _ h :=
    Keeps.andThen (contains_noteCall name location args) fun _ =>
      Widening.activate name location ((Widening.declare params args).andThen fun _ => h 0)
  ofExpr h := .of_contains h
  sequence first later := first.andThen later
  inScope h := .of_contains h.inScope
  noteStatement _ := .of_contains ((Keeps.note _ _ _).map (·.scopes.outline))
  bind name v _ := Widening.bind name v
  store ref key v _ _ := .of_contains ((Keeps.store ref key v).map (·.scopes.outline))
  setPending _ _ := .of_contains fun _ => rfl

/-! ## Statements -/

theorem contains_evaluate (fuel calls : Nat) (e : Expr) : Contains (evaluate fuel calls e) :=
  (tracked_contains.program fuel calls 0 []).1 e

theorem contains_block (fuel calls : Nat) (body : Block) :
    Contains (inScope (forEach (execute fuel calls) body.statements)) :=
  (tracked_contains.list fuel calls 0 [] body.statements).inScope

theorem contains_repeatWhile (fuel calls : Nat) (test : Expr) (body : Block) :
    Contains (repeatWhile fuel calls test body) := by
  induction fuel with
  | zero => exact fun _ => trivial
  | succ fuel ih =>
      rw [repeatWhile]
      refine Keeps.andThen (contains_evaluate fuel calls test) ?_
      intro v
      split
      · exact Keeps.andThen (contains_block fuel calls body) fun _ => ih
      · exact fun _ => rfl

theorem contains_arrayOf (use : ArrayUse) (location : Location) (v : Value) :
    Contains (arrayOf use location v) := by
  intro s
  cases v <;> rfl

theorem contains_store (ref : Ref) (key v : Value) : Contains (store ref key v) :=
  (Keeps.store ref key v).map (·.scopes.outline)

/-- What is assigned to anything but a name is stored in an array. -/
theorem contains_assign (fuel calls : Nat) {target : Expr} (v : Value)
    (other : ∀ id, target ≠ .ident id) : Contains (assign (evaluate fuel calls) target v) := by
  have part := contains_evaluate fuel calls
  cases target with
  | ident id => exact absurd rfl (other id)
  | index location base key =>
      refine Keeps.andThen (part base) fun a => Keeps.andThen (contains_arrayOf _ _ a) ?_
      intro ref
      exact Keeps.andThen (part key) fun k => contains_store ref k v
  | select location base selector =>
      refine Keeps.andThen (part base) fun a => Keeps.andThen (contains_arrayOf _ _ a) ?_
      intro ref
      have read := (Keeps.name selector).map (·.scopes.outline)
      exact Keeps.andThen read fun k => contains_store ref k v
  | number | text | func | array | unary | binary | paren | call => exact fun _ => rfl

/-- Statements that are no assignments to a name bind nothing in the scope they stand in. The
branches of an `if` are statements again, and the last of them is a block. -/
theorem contains_execute (fuel calls : Nat) {st : Stmt}
    (other : ∀ location id e, st ≠ .assign location (.ident id) e) :
    Contains (execute fuel calls st) := by
  induction fuel generalizing st with
  | zero => exact fun _ => trivial
  | succ fuel ih =>
      have part := contains_evaluate fuel calls
      rw [execute.eq_def]
      refine Keeps.andThen ((Keeps.note st.kindName st.location []).map (·.scopes.outline)) ?_
      intro _
      cases st with
      | block body => exact contains_block fuel calls body
      | assign location target e =>
          refine Keeps.andThen (part e) ?_
          intro v
          refine contains_assign fuel calls v ?_
          rintro id rfl
          exact other location id e rfl
      | cond branch =>
          obtain ⟨_, test, body, otherwise⟩ := branch
          refine Keeps.andThen (part test) ?_
          intro v
          split
          · exact contains_block fuel calls body
          · cases otherwise with
            | nothing => exact fun _ => rfl
            | block body =>
                refine ih ?_
                rintro _ _ _ ⟨⟩
            | branch next =>
                refine ih ?_
                rintro _ _ _ ⟨⟩
      | empty => exact fun _ => rfl
      | expr _ e => exact Keeps.andThen (part e) fun _ _ => rfl
      | loop _ test body => exact contains_repeatWhile fuel calls test body
      | ret _ result =>
          cases result with
          | none => exact fun _ => rfl
          | some e => exact Keeps.andThen (part e) fun _ _ => rfl

theorem Contains.left {x : Exec α} {s t : Session} (h : Contains x) (left : left? (x s) = some t) :
    t.scopes.outline = s.scopes.outline := by
  rcases left?_cases left with ⟨a, done⟩ | ⟨fault, failed⟩
  · exact h.done done
  · exact h.failed failed

/-- Between two sessions at most one name is bound anew: a given one, in the current scope, and only
if no scope had it before. -/
def BindsAtMost (name : String) (s t : Session) : Prop :=
  t.scopes.names = s.scopes.names ∨
    ∃ handle, s.scopes.current = some handle ∧ (∀ other, ¬s.scopes.HoldsAt other name) ∧
      t.scopes.names = s.scopes.names.modify handle (· ++ [name])

theorem BindsAtMost.of_outline {name : String} {s t u : Session}
    (same : t.scopes.outline = s.scopes.outline) (binds : BindsAtMost name t u) :
    BindsAtMost name s u := by
  obtain ⟨shape, names⟩ := Prod.mk.inj same
  have current : t.scopes.current = s.scopes.current := congrArg Shape.current shape
  unfold BindsAtMost at binds ⊢
  simpa only [Scopes.holdsAt_iff_names, names, current] using binds

theorem bindsAtMost_bind {name : String} {v : Value} {s t : Session} (stacked : s.scopes.Stacked)
    (left : left? (bind name v s) = some t) : BindsAtMost name s t := by
  rw [bindName_apply] at left
  cases bound : s.scopes.bind name v with
  | ok scopes =>
      rw [bound] at left
      cases left
      exact Scopes.names_bind stacked bound
  | error cause =>
      rw [bound] at left
      cases left
      exact .inl rfl

theorem bindsAtMost_assign {fuel calls : Nat} {location : Location} {id : Identifier} {e : Expr}
    {s t : Session} (stacked : s.scopes.Stacked)
    (left : left? (execute fuel calls (.assign location (.ident id) e) s) = some t) :
    BindsAtMost id.name s t := by
  cases fuel with
  | zero => cases left
  | succ fuel =>
      rw [execute.eq_def] at left
      have noted : Contains (note (Stmt.assign location (.ident id) e).kindName location []) :=
        (Keeps.note _ _ _).map (·.scopes.outline)
      have evaluated := contains_evaluate fuel calls e
      -- what is logged and evaluated first keeps the names, and the binding comes last
      rcases left?_andThen left with left | ⟨_, u, done, left⟩
      · exact .inl (congrArg Prod.snd (noted.left left))
      · have same := noted.done done
        rcases left?_andThen left with left | ⟨v, w, done, left⟩
        · exact .inl (congrArg Prod.snd ((evaluated.left left).trans same))
        · have same := (evaluated.done done).trans same
          exact (bindsAtMost_bind (stacked.of_shape (Prod.mk.inj same).1) left).of_outline same

/-! ## Sessions that runs go through -/

/-- Where scopes are stacked they are so at every event of an execution. -/
structure StaysStacked ⦃α : Type⦄ (found : Session → List Event) (x : Exec α) : Prop where
  shape : KeepsShape x
  events : ∀ ⦃s⦄, s.scopes.Stacked → ∀ e ∈ found s, e.session.scopes.Stacked

namespace StaysStacked

theorem quiet ⦃α : Type⦄ {x : Exec α} (shape : KeepsShape x) : StaysStacked noEvents x :=
  ⟨shape, fun _ _ _ mem => absurd mem List.not_mem_nil⟩

theorem heard ⦃α : Type⦄ {x : Exec α} (frame : Nat) (deed : Session → Deed) (shape : KeepsShape x) :
    StaysStacked (heard frame deed x) x := by
  refine ⟨shape, fun s stacked e mem => ?_⟩
  obtain rfl := eq_of_mem_heard mem
  exact stacked

/-- Values are written out in the session at hand. -/
theorem ahead ⦃α : Type⦄ {x : Exec α} {frame : Nat} {earlier found : Session → List Event}
    (writings : Writings frame earlier) (h : StaysStacked found x) :
    StaysStacked (ahead earlier found) x := by
  refine ⟨h.shape, fun s stacked e mem => ?_⟩
  rcases List.mem_append.mp mem with mem | mem
  · obtain ⟨values, rfl⟩ := writings s e mem
    exact stacked
  · exact h.events stacked e mem

theorem andThen ⦃α β : Type⦄ {x : Exec α} {f : α → Exec β} {first later}
    (h : StaysStacked first x) (h' : ∀ a, StaysStacked (later a) (f a)) :
    StaysStacked (inTurn first x later) (x >>= f) := by
  refine ⟨h.shape.andThen fun a => (h' a).shape, fun s stacked e mem => ?_⟩
  rcases List.mem_append.mp mem with mem | mem
  · exact h.events stacked e mem
  · cases here : x s with
    | done a t =>
        rw [listBehind_done _ here] at mem
        exact (h' a).events (stacked.of_shape (h.shape.done here)) e mem
    | failed | outOfFuel =>
        rw [here] at mem
        cases mem

theorem inScope ⦃α : Type⦄ {x : Exec α} {inside} (h : StaysStacked inside x) :
    StaysStacked (fun s => inside { s with scopes := s.scopes.enter }) (inScope x) :=
  ⟨keepsShape_inScope h.shape, fun _ stacked => h.events stacked.enter⟩

theorem andThenPlain ⦃α β : Type⦄ {x : Exec α} {f : α → Exec β} {first}
    (h : StaysStacked first x) (h' : ∀ a, KeepsShape (f a)) : StaysStacked first (x >>= f) := by
  have both := h.andThen fun a => quiet (h' a)
  rwa [inTurn_noEvents] at both

theorem of_sessions ⦃α : Type⦄ {x : Exec α} {found : Session → List Event}
    (h : ∀ s, ∃ same, same s = found s ∧ StaysStacked same x) : StaysStacked found x := by
  refine ⟨(h (.initial false)).elim fun _ holds => holds.2.shape, fun s stacked => ?_⟩
  obtain ⟨_, same, stays⟩ := h s
  exact same ▸ stays.events stacked

theorem printed (frame : Nat) (location : Location) (v : Value) :
    StaysStacked (heardPrint frame location v) (printing location v) := by
  refine ⟨closed_keepsShape.printing location v, fun s stacked e mem => ?_⟩
  obtain ⟨text, rfl⟩ := eq_of_mem_heardPrint mem
  exact stacked

/-- The scope of a call is one more on the stack. -/
theorem activate (name : String) (location : Location) (params : List Identifier)
    (args : List Value) {body : Exec Unit} {inside : Nat → Session → List Event}
    (h : ∀ callee, StaysStacked (inside callee) body) :
    StaysStacked (historyInCall name location params args inside)
      (activate name location (Exec.declare params args >>= fun _ => body)) := by
  have bound := fun callee => (quiet (keepsShape_declare params args)).andThen fun _ => h callee
  refine ⟨keepsShape_activate name location (bound 0).shape, fun s stacked => ?_⟩
  exact (bound s.frames).events (s := activated name location s) stacked.enter

end StaysStacked

theorem tracked_staysStacked : Tracked (fun _ _ _ _ found x => StaysStacked found x)
    fun _ _ _ _ found x => StaysStacked found x where
  value _ _ := .quiet fun _ => rfl
  fail _ _ := .quiet fun _ => rfl
  exhausted := .quiet fun _ => trivial
  andThen first later := first.andThen later
  ofExpr stays := stays
  sequence first later := first.andThen later
  inScope h := h.inScope
  noteStatement _ :=
    .ahead (writings_bindings _) (.heard _ _ ((Keeps.note _ _ _).map (·.scopes.shape)))
  name id := .quiet ((Keeps.name id).map (·.scopes.shape))
  function _ _ _ := .quiet fun _ => rfl
  fetch _ _ := .quiet ((Keeps.lookUp _).map (·.scopes.shape))
  bind name v _ := .quiet (closed_keepsShape.bind name v)
  setPending _ _ := .heard _ _ fun _ => rfl
  store ref key v _ _ := .heard _ _ ((Keeps.store ref key v).map (·.scopes.shape))
  array elements each :=
    array_of_each (fun _ => .quiet fun _ => rfl) (fun first later => first.andThen later)
      (fun _ _ _ _ => .heard _ _ ((Keeps.lookUp _).map (·.scopes.shape))) (fun e => each e [])
      (fun _ => .quiet fun _ => rfl) (fun h => .of_sessions h) elements
  printed location v := .ahead (writings_print _ v) (.printed _ location v)
  refused name location args := .ahead (writings_call _ name args) <|
    (StaysStacked.heard _ _ (keepsShape_noteCall name location args)).andThenPlain fun _ _ => rfl
  call {frame _} name location params args _ _ _ _ h :=
    call_of_parts (fun first later => first.andThen later)
      (.ahead (writings_call frame name args) (.heard _ _ (keepsShape_noteCall name location args)))
      (.activate name location params args h) fun _ => .heard _ _ fun _ => rfl

theorem Ran.stacked {budget : Budget} {s t : Session} {events : List Event} {ending : Ending}
    (ran : Ran budget s events ending t) (stacked : s.scopes.Stacked) : t.scopes.Stacked := by
  have begun : s.begun.scopes.Stacked := stacked
  have shape := closed_keepsShape.programBody budget
  cases ran with
  | rejected fault => exact stacked
  | @finished program u here =>
      rw [pop_scopes]
      exact begun.of_shape ((shape program).done here)
  | @failed program fault t here => exact begun.of_shape ((shape program).failed here)
  | unfinished => exact stacked

theorem Recorded.stacked {verbose : Bool} {endings : List Ending} {history : List Event}
    {s : Session} (recorded : Recorded verbose endings history s) : s.scopes.Stacked := by
  induction recorded with
  | initial => exact Scopes.stacked_ofStack []
  | run _ ran _ ih => exact (ran_of_runSource ran).stacked ih

theorem Moment.stacked {verbose : Bool} {history : List Event} {s : Session}
    (moment : Moment verbose history s) : s.scopes.Stacked := by
  cases moment with
  | between recorded => exact recorded.stacked
  | @within endings history before after s budget source e recorded split =>
      have mem : e ∈ historyOfSource budget source s := by simp [split]
      unfold historyOfSource at mem
      split at mem
      · rename_i program read
        have body := tracked_staysStacked.programBody budget program s.frames
        exact body.events (s := s.begun) recorded.stacked e mem
      · cases mem

/-- **No name leaks out of a block or a call.** Scopes are stacked in every session that runs go
through. From a session with stacked scopes, no expression and no statement but an assignment to a
name gives any scope a new name, whether it is done or fails. An assignment to a name gives its
name to the current scope at most, and only if no scope had it before. -/
theorem no_name_leaks (verbose : Bool) :
    (∀ history s, Moment verbose history s → s.scopes.Stacked) ∧
    ∀ s : Session, s.scopes.Stacked → ∀ (fuel calls : Nat) (t : Session),
      (∀ e, left? (evaluate fuel calls e s) = some t → t.scopes.names = s.scopes.names) ∧
      (∀ st, (∀ location id e, st ≠ .assign location (.ident id) e) →
        left? (execute fuel calls st s) = some t → t.scopes.names = s.scopes.names) ∧
      ∀ location id e, left? (execute fuel calls (.assign location (.ident id) e) s) = some t →
        BindsAtMost id.name s t := by
  refine ⟨fun history s moment => moment.stacked, fun s stacked fuel calls t => ⟨?_, ?_, ?_⟩⟩
  · intro e left
    exact congrArg Prod.snd ((contains_evaluate fuel calls e).left left)
  · intro st other left
    exact congrArg Prod.snd ((contains_execute fuel calls other).left left)
  · intro location id e left
    exact bindsAtMost_assign stacked left

/-- A source with a function that binds a parameter and two names of its own. -/
def leaky : Source :=
  ⟨"leaky", "x = 1; f = func(x) \x7b y = x; z = y; \x7d; f(2); print(x);"⟩

/-- The body of the function has just been entered there. A call of the function, a loop that fails
at its condition, and an assignment to a name that nothing binds. -/
theorem no_name_leaks_leaky :
    let call : Expr := .call default (.ident ⟨default, "f"⟩) [.number default 3]
    let loop : Stmt := .loop default (.ident ⟨default, "g"⟩) (.mk default [])
    let assign : Stmt := .assign default (.ident ⟨default, "z"⟩) (.number default 4)
    ∃ history s t u v, Moment false history s ∧ s.scopes.Stacked ∧
      s.scopes.names = [["x", "f"], ["x"]] ∧
      left? (evaluate 20 9 call s) = some t ∧ t.scopes.names = s.scopes.names ∧
      left? (execute 20 9 loop s) = some u ∧ u.scopes.names = s.scopes.names ∧
      left? (execute 20 9 assign s) = some v ∧ BindsAtMost "z" s v := by
  intro call loop assign
  have shown : ((historyOfSource ⟨20, 10⟩ leaky (initial false))[10]?).map (fun e =>
      decide (e.session.scopes.names = [["x", "f"], ["x"]] ∧
        (left? (evaluate 20 9 call e.session)).isSome ∧
        (left? (execute 20 9 loop e.session)).isSome ∧
        (left? (execute 20 9 assign e.session)).isSome)) = some true := by
    decide +kernel
  obtain ⟨e, there, shown⟩ := Option.map_eq_some_iff.mp shown
  obtain ⟨names, called, looped, assigned⟩ := of_decide_eq_true shown
  obtain ⟨before, after, split⟩ := List.append_of_mem (List.mem_of_getElem? there)
  have moment : Moment false before e.session := .within .initial split
  obtain ⟨t, called⟩ := Option.isSome_iff_exists.mp called
  obtain ⟨u, looped⟩ := Option.isSome_iff_exists.mp looped
  obtain ⟨v, assigned⟩ := Option.isSome_iff_exists.mp assigned
  obtain ⟨everywhere, kept⟩ := no_name_leaks false
  have stacked := everywhere before e.session moment
  have contained := kept e.session stacked 20 9
  exact ⟨before, e.session, t, u, v, moment, stacked, names,
    called, (contained t).1 call called,
    looped, (contained u).2.1 loop nofun looped,
    assigned, (contained v).2.2 _ _ _ assigned⟩

end Session

end Mini
