import Mini.Proofs.Execution.Moments
import Mini.Proofs.Execution.Restoration
import Mini.Proofs.Syntax.Locations
import Mini.Traceback

/-!
# Every fault has a place

Some steps that may be at fault know no place to blame: a name that is to be bound where no scope is
open, and all that hits a limit. The first does not happen, since a run opens a scope before its
first statement and closes none but those that it has opened behind that one. All others blame a
node of the tree that is being evaluated. That is a node of the program also where a function is
called, because the functions that a session holds all come from its source, wherever they have been
put in the meantime: under a name, into an array, or as what is returned.
-/

namespace Mini

/-! ## Values that come from a source -/

/-- The body of a function has its nodes among the given locations. No other value has a body. -/
def Value.ComesFrom (all : List Location) : Value → Prop
  | .function f => f.body.locations ⊆ all
  | .nothing | .number _ | .text _ | .boolean _ | .array _ => True

/-- All keys and values of some pairs come from a source. -/
def PairsComeFrom (all : List Location) (pairs : Pairs) : Prop :=
  ∀ pair ∈ pairs, pair.1.ComesFrom all ∧ pair.2.ComesFrom all

/-- A fault has its place among the given locations, unless a limit was hit. It is never for want of
a scope. -/
structure Fault.Blames (all : List Location) (fault : Fault) : Prop where
  scope : fault.cause ≠ .noScope
  place : (∀ limit, fault.cause ≠ .limit limit) → ∃ l ∈ all, fault.location = some l

/-- A value that comes from a source, or a cause that is not the want of a scope. -/
def Fits (all : List Location) : Except Cause Value → Prop
  | .ok v => v.ComesFrom all
  | .error cause => cause ≠ .noScope

variable {all : List Location}

theorem Fault.blames_limit (limit : Limit) (location : Option Location) :
    Fault.Blames all ⟨.limit limit, location⟩ :=
  ⟨nofun, fun none => absurd rfl (none limit)⟩

theorem Fault.blames_of_mem {cause : Cause} {location : Location} (noScope : cause ≠ .noScope)
    (mem : location ∈ all) : Fault.Blames all ⟨cause, some location⟩ :=
  ⟨noScope, fun _ => ⟨location, mem, rfl⟩⟩

/-- Only the want of a scope is reported as such. -/
theorem Cause.message_ne_noScope {cause : Cause} (scope : cause ≠ .noScope) :
    cause.message ≠ "No active scope" := by
  intro same
  have chars := congrArg String.toList same
  unfold message at chars
  cases cause with
  | noScope => exact scope rfl
  | notArray use found => cases use <;> simp [ArrayUse.rule] at chars
  | _ => simp at chars

/-- No message is about a kind of statements or expressions. -/
theorem Cause.message_ne_unsupported (cause : Cause) (rest : String) :
    cause.message ≠ "Unsupported " ++ rest := by
  intro same
  have chars := congrArg String.toList same
  unfold message at chars
  cases cause with
  | notArray use found => cases use <;> simp [ArrayUse.rule] at chars
  | _ => simp at chars

theorem Heap.comesFrom_of_lookup {h : Heap} {pairs : Pairs} {key v : Value}
    (come : PairsComeFrom all pairs) (found : h.lookup pairs key = .ok v) : v.ComesFrom all := by
  rcases of_lookup found with rfl | ⟨pair, mem, rfl⟩
  · trivial
  · exact (come pair mem).2

theorem Heap.comeFrom_of_store {h : Heap} {pairs pairs' : Pairs} {key v : Value}
    (come : PairsComeFrom all pairs) (comesKey : key.ComesFrom all) (comesValue : v.ComesFrom all)
    (stored : h.store pairs key v = .ok pairs') : PairsComeFrom all pairs' :=
  forall_stored stored come comesKey comesValue

/-! ## Operators -/

namespace Operator

/-- An operator makes no function, and is only at fault for what it is applied to. -/
theorem fits_onValues {kind : TokenKind} {left right : Value} {r : Except Cause Value}
    (applied : onValues kind left right = some r) : Fits all r := by
  unfold onValues at applied
  split at applied
  · unfold onNumbers at applied
    split at applied
    case h_4 | h_5 =>
      cases applied
      split
      · nofun
      · trivial
    all_goals
      cases applied
      try trivial
  · obtain ⟨v, given, rfl⟩ := Option.map_eq_some_iff.mp applied
    unfold onTexts at given
    split at given <;> cases given <;> trivial
  · obtain ⟨v, given, rfl⟩ := Option.map_eq_some_iff.mp applied
    unfold onBooleans at given
    split at given <;> cases given <;> trivial
  · cases applied

theorem fits_binary (op : Token) (left right : Value) : Fits all (binary op left right) := by
  unfold binary
  split
  · nofun
  · cases applied : onValues op.kind left right with
    | none => nofun
    | some r => exact fits_onValues applied

theorem fits_unary (op : Token) {operand : Value} (comes : operand.ComesFrom all) :
    Fits all (unary op operand) := by
  unfold unary
  split
  · exact comes
  · trivial
  · trivial
  · nofun

end Operator

namespace Session

open Exec

variable {α β : Type}

/-! ## What a session holds -/

/-- Whatever a session holds comes from a source. -/
structure Sourced (all : List Location) (s : Session) : Prop where
  stored : ∀ ref, PairsComeFrom all (s.heap.read ref)
  bound : ∀ v, s.scopes.Binds v → v.ComesFrom all
  pending : s.pending.ComesFrom all

namespace Sourced

variable {s t : Session}

theorem of_stores (sourced : Sourced all s) (same : t.stores = s.stores) : Sourced all t := by
  obtain ⟨heap, scopes, pending⟩ : t.heap = s.heap ∧ t.scopes = s.scopes ∧
      t.pending = s.pending := by
    simpa [stores] using same
  exact ⟨heap ▸ sourced.stored, scopes ▸ sourced.bound, pending ▸ sourced.pending⟩

/-- Other scopes, with nothing bound from elsewhere. -/
theorem withScopes (sourced : Sourced all s) {scopes : Scopes}
    (bound : ∀ v, scopes.Binds v → s.scopes.Binds v ∨ v.ComesFrom all) :
    Sourced all { s with scopes := scopes } :=
  ⟨sourced.stored, fun v binds => (bound v binds).elim (sourced.bound v) id, sourced.pending⟩

theorem withHeap (sourced : Sourced all s) {h : Heap}
    (stored : ∀ ref, PairsComeFrom all (h.read ref)) : Sourced all { s with heap := h } :=
  ⟨stored, sourced.bound, sourced.pending⟩

theorem withPending (sourced : Sourced all s) {v : Value} (comes : v.ComesFrom all) :
    Sourced all { s with pending := v } :=
  ⟨sourced.stored, sourced.bound, comes⟩

theorem entered (sourced : Sourced all s) :
    Sourced all { s with scopes := s.scopes.enter } :=
  sourced.withScopes fun _ binds => .inl (Scopes.binds_of_enter binds)

theorem left (sourced : Sourced all s) : Sourced all { s with scopes := s.scopes.leave } :=
  sourced.withScopes fun _ binds => .inl (Scopes.binds_of_leave binds)

theorem unwound (sourced : Sourced all s) : Sourced all (unwound s) := by
  have nothing : Value.nothing.ComesFrom all := trivial
  exact (sourced.withPending nothing).left

theorem pop (sourced : Sourced all s) : Sourced all s.pop :=
  sourced.of_stores (by unfold Session.pop; cases s.stack <;> rfl)

end Sourced

/-! ## Executions -/

/-- Where a scope is open and all comes from a source, an execution gives what comes from there, too,
or fails with a fault that has its place there. -/
structure Traces (all : List Location) ⦃α : Type⦄ (gives : α → Prop) (x : Exec α) : Prop where
  done : ∀ ⦃s a t⦄, Sourced all s → s.scopes.current ≠ none → x s = .done a t →
    t.scopes.shape = s.scopes.shape ∧ Sourced all t ∧ gives a
  failed : ∀ ⦃s fault t⦄, Sourced all s → s.scopes.current ≠ none → x s = .failed fault t →
    Sourced all t ∧ fault.Blames all

namespace Traces

variable {gives : α → Prop} {gives' : β → Prop} {x : Exec α}

theorem andThen {f : α → Exec β} (first : Traces all gives x)
    (later : ∀ a, gives a → Traces all gives' (f a)) : Traces all gives' (x >>= f) := by
  refine ⟨fun s b t sourced opened done => ?_, fun s fault t sourced opened failed => ?_⟩
  · obtain ⟨a, u, here, there⟩ := bind_done done
    obtain ⟨shape, sourced', given⟩ := first.done sourced opened here
    have current : u.scopes.current = s.scopes.current := congrArg Shape.current shape
    obtain ⟨shape', ended⟩ := (later a given).done sourced' (current ▸ opened) there
    exact ⟨shape'.trans shape, ended⟩
  · obtain here | ⟨a, u, here, there⟩ := bind_failed failed
    · exact first.failed sourced opened here
    · obtain ⟨shape, sourced', given⟩ := first.done sourced opened here
      have current : u.scopes.current = s.scopes.current := congrArg Shape.current shape
      exact (later a given).failed sourced' (current ▸ opened) there

/-- What an execution gives does not matter to what comes after it. -/
theorem andThenAny {f : α → Exec β} (first : Traces all gives x)
    (later : ∀ a, Traces all gives' (f a)) : Traces all gives' (x >>= f) :=
  first.andThen fun a _ => later a

/-! ### Steps that leave the stores as they are -/

theorem of_keeps (h : Keeps stores x)
    (given : ∀ {s a t}, Sourced all s → x s = .done a t → gives a)
    (blames : ∀ {s fault t}, Sourced all s → x s = .failed fault t → fault.Blames all) :
    Traces all gives x := by
  refine ⟨fun s a t sourced _ done => ?_, fun s fault t sourced _ failed => ?_⟩
  · have same := h.done done
    have scopes : t.scopes = s.scopes := congrArg (·.2.1) same
    exact ⟨congrArg Scopes.shape scopes, sourced.of_stores same, given sourced done⟩
  · exact ⟨sourced.of_stores (h.failed failed), blames sourced failed⟩

theorem value {a : α} (given : gives a) : Traces all gives (value a) :=
  of_keeps (fun _ => rfl) (fun _ done => by cases done; exact given) fun _ failed => nomatch failed

theorem fail {cause : Cause} {location : Location} (scope : cause ≠ .noScope)
    (mem : location ∈ all) : Traces all gives (fail cause (some location)) := by
  refine of_keeps (fun _ => rfl) (fun _ done => nomatch done) fun _ failed => ?_
  cases failed
  exact Fault.blames_of_mem scope mem

theorem hitLimit (limit : Limit) : Traces all gives (Exec.fail (.limit limit) none) := by
  refine of_keeps (fun _ => rfl) (fun _ done => nomatch done) fun _ failed => ?_
  cases failed
  exact Fault.blames_limit limit none

theorem exhausted : Traces all gives exhausted :=
  of_keeps (fun _ => trivial) (fun _ done => nomatch done) fun _ failed => nomatch failed

theorem orBlame {location : Location} {r : Except Cause Value} (fits : Fits all r)
    (mem : location ∈ all) : Traces all (Value.ComesFrom all) (orBlame (some location) r) := by
  cases r with
  | ok v => exact value fits
  | error cause => exact fail fits mem

theorem arrayOf (use : ArrayUse) {location : Location} (mem : location ∈ all) (v : Value) :
    Traces all (fun _ => True) (arrayOf use location v) := by
  cases v with
  | array ref => exact value trivial
  | nothing | number | text | boolean | function => exact fail nofun mem

theorem functionOf {location : Location} (mem : location ∈ all) {v : Value}
    (comes : v.ComesFrom all) :
    Traces all (fun f : Function => f.body.locations ⊆ all) (functionOf location v) := by
  cases v with
  | function f => exact value comes
  | nothing | number | text | boolean | array => exact fail nofun mem

theorem lookUp {look : Session → Except Limit α}
    (given : ∀ {s a}, Sourced all s → look s = .ok a → gives a) :
    Traces all gives (get look >>= orLimit) := by
  refine of_keeps ((Keeps.lookUp look).map stores) (fun sourced done => ?_) fun _ failed => ?_
  · rw [lookUp_apply] at done
    split at done
    · cases done
      exact given sourced ‹_›
    · cases done
  · rw [lookUp_apply] at failed
    split at failed
    · cases failed
    · cases failed
      exact Fault.blames_limit _ none

theorem lookUpAny (look : Session → Except Limit α) :
    Traces all (fun _ => True) (get look >>= orLimit) :=
  lookUp fun _ _ => trivial

theorem note (rule : String) (location : Location) (fields : Details) :
    Traces all (fun _ => True) (note rule location fields) := by
  refine of_keeps ((Keeps.note rule location fields).map stores) (fun _ _ => trivial)
    fun _ failed => ?_
  rw [note_apply] at failed
  split at failed
  · cases failed
  · cases failed
    exact Fault.blames_limit _ none

theorem noteCall (name : String) (location : Location) (args : List Value) :
    Traces all (fun _ => True) (noteCall name location args) :=
  (lookUpAny _).andThenAny fun fields => note "CALL" location fields

theorem name {id : Identifier} (mem : id.location ∈ all) :
    Traces all (Value.ComesFrom all) (name id) := by
  refine of_keeps ((Keeps.name id).map stores) (fun {s v t} sourced done => ?_)
    fun {s fault t} _ failed => ?_
  · rw [name_apply] at done
    split at done
    · cases done
      trivial
    · split at done
      · cases done
        trivial
      · split at done
        · rename_i got
          cases done
          exact sourced.bound v (Scopes.binds_of_get got)
        · cases done
  · rw [name_apply] at failed
    split at failed
    · cases failed
    · split at failed
      · cases failed
      · split at failed
        · cases failed
        · rename_i cause missing
          cases failed
          refine Fault.blames_of_mem ?_ mem
          rintro rfl
          unfold Scopes.get at missing
          split at missing <;> cases missing

theorem function (location : Location) (params : List Identifier) {body : Block}
    (within : body.locations ⊆ all) :
    Traces all (Value.ComesFrom all) (function location params body) :=
  of_keeps (fun _ => rfl) (fun _ done => by cases done; exact within) fun _ failed => nomatch failed

theorem fetch (ref : Ref) (key : Value) : Traces all (Value.ComesFrom all) (fetch ref key) :=
  lookUp fun sourced found => Heap.comesFrom_of_lookup (sourced.stored ref) found

theorem grown {sofar : Pairs} {key v : Value} (come : PairsComeFrom all sofar)
    (comesKey : key.ComesFrom all) (comes : v.ComesFrom all) :
    Traces all (PairsComeFrom all) (Session.grown sofar key v) :=
  lookUp fun _ stored => Heap.comeFrom_of_store come comesKey comes stored

/-! ### Steps that change the stores -/

theorem newArray {items : Pairs} (come : PairsComeFrom all items) :
    Traces all (Value.ComesFrom all) (newArray items) := by
  refine ⟨fun s v t sourced _ done => ?_, fun s fault t _ _ failed => nomatch failed⟩
  cases done
  exact ⟨rfl, sourced.withHeap (Heap.forall_read_add sourced.stored come), trivial⟩

theorem store (ref : Ref) {key v : Value} (comesKey : key.ComesFrom all)
    (comes : v.ComesFrom all) : Traces all (fun _ => True) (store ref key v) := by
  refine ⟨fun s _ t sourced _ done => ?_, fun s fault t sourced _ failed => ?_⟩
  · rw [store_apply] at done
    split at done
    · rename_i pairs' stored
      cases done
      have come := Heap.comeFrom_of_store (sourced.stored ref) comesKey comes stored
      exact ⟨rfl, sourced.withHeap (Heap.forall_read_write sourced.stored come ref), trivial⟩
    · cases done
  · rw [store_apply] at failed
    split at failed
    · cases failed
    · cases failed
      exact ⟨sourced, Fault.blames_limit _ none⟩

theorem setPending {v : Value} (comes : v.ComesFrom all) :
    Traces all (fun _ => True) (setPending v) := by
  refine ⟨fun s _ t sourced _ done => ?_, fun s fault t _ _ failed => nomatch failed⟩
  cases done
  exact ⟨rfl, sourced.withPending comes, trivial⟩

/-- Where a scope is open, a name can be bound. -/
theorem bind (name : String) {v : Value} (comes : v.ComesFrom all) :
    Traces all (fun _ => True) (bind name v) := by
  refine ⟨fun s _ t sourced _ done => ?_, fun s fault t _ opened failed => ?_⟩
  · rw [bindName_apply] at done
    split at done
    · rename_i scopes bound
      cases done
      refine ⟨Scopes.shape_bind bound, sourced.withScopes fun w binds => ?_, trivial⟩
      exact (Scopes.binds_of_bind bound binds).imp_right fun (same : w = v) => same ▸ comes
    · cases done
  · rw [bindName_apply] at failed
    split at failed
    · cases failed
    · rename_i cause unbound
      unfold Scopes.bind Scopes.declare at unbound
      split at unbound
      · cases unbound
      · split at unbound
        · exact absurd ‹_› opened
        · cases unbound

theorem declare : ∀ (params : List Identifier) {args : List Value},
    (∀ v ∈ args, v.ComesFrom all) → Traces all (fun _ => True) (declare params args)
  | [], _, _ => value trivial
  | _ :: _, [], _ => value trivial
  | param :: params, arg :: args, come => by
      have later := declare params fun v mem => come v (List.mem_cons_of_mem _ mem)
      have comes := come arg List.mem_cons_self
      have sourced' : ∀ {s scopes}, Sourced all s → s.scopes.declare param.name arg = .ok scopes →
          Sourced all { s with scopes := scopes } := fun sourced declared =>
        sourced.withScopes fun w binds =>
          (Scopes.binds_of_declare declared binds).imp_right fun (same : w = arg) => same ▸ comes
      have opened' : ∀ {s scopes : Scopes}, s.current ≠ none →
          s.declare param.name arg = .ok scopes → scopes.current ≠ none := by
        intro s scopes opened declared
        have current : scopes.current = s.current :=
          congrArg Shape.current (Scopes.shape_declare declared)
        exact current ▸ opened
      refine ⟨fun s _ t sourced opened done => ?_, fun s fault t sourced opened failed => ?_⟩
      · rw [declare_cons_apply] at done
        split at done
        · rename_i scopes declared
          obtain ⟨shape, ended⟩ :=
            later.done (sourced' sourced declared) (opened' opened declared) done
          exact ⟨shape.trans (Scopes.shape_declare declared), ended⟩
        · cases done
      · rw [declare_cons_apply] at failed
        split at failed
        · rename_i scopes declared
          exact later.failed (sourced' sourced declared) (opened' opened declared) failed
        · rename_i cause undeclared
          unfold Scopes.declare at undeclared
          split at undeclared
          · exact absurd ‹_› opened
          · cases undeclared

/-! ### Scopes and calls -/

/-- In a scope of its own an execution has one open, whether or not there is one around it. -/
theorem inScope_done {x : Exec α} (h : Traces all gives x) {s t : Session} {a : α}
    (sourced : Sourced all s) (done : inScope x s = .done a t) :
    t.scopes.shape = s.scopes.shape ∧ Sourced all t ∧ gives a := by
  obtain ⟨u, here, rfl⟩ := Exec.inScope_done done
  obtain ⟨shape, sourced', given⟩ := h.done sourced.entered nofun here
  exact ⟨Scopes.shape_leave shape, sourced'.left, given⟩

theorem inScope_failed {x : Exec α} (h : Traces all gives x) {s t : Session} {fault : Fault}
    (sourced : Sourced all s) (failed : inScope x s = .failed fault t) :
    Sourced all t ∧ fault.Blames all := by
  obtain ⟨u, here, rfl⟩ := Exec.inScope_failed failed
  obtain ⟨sourced', blames⟩ := h.failed sourced.entered nofun here
  exact ⟨sourced'.left, blames⟩

theorem inScope {x : Exec α} (h : Traces all gives x) : Traces all gives (inScope x) :=
  ⟨fun _ _ _ sourced _ => h.inScope_done sourced, fun _ _ _ sourced _ => h.inScope_failed sourced⟩

/-- What a call gives was pending behind its body. -/
theorem activate (name : String) (location : Location) {body : Exec Unit}
    (h : Traces all (fun _ => True) body) :
    Traces all (Value.ComesFrom all) (activate name location body) := by
  have begun : ∀ {s}, Sourced all s → Sourced all (activated name location s) :=
    fun sourced => sourced.entered.of_stores rfl
  refine ⟨fun s v t sourced _ done => ?_, fun s fault t sourced _ failed => ?_⟩
  · rw [activate_apply] at done
    split at done
    · rename_i u here
      cases done
      obtain ⟨shape, sourced', -⟩ := h.done (begun sourced) nofun here
      refine ⟨?_, sourced'.unwound.pop, sourced'.pending⟩
      rw [pop_scopes]
      exact Scopes.shape_leave shape
    · cases done
    · cases done
  · obtain ⟨u, here, rfl⟩ := activate_failed failed
    obtain ⟨sourced', blames⟩ := h.failed (begun sourced) nofun here
    exact ⟨sourced'.unwound, blames⟩

/-! ### Lists of parts -/

theorem collect {eval : Expr → Exec Value} : ∀ {es : List Expr},
    (∀ e ∈ es, Traces all (Value.ComesFrom all) (eval e)) →
      Traces all (fun vs : List Value => ∀ v ∈ vs, v.ComesFrom all) (collect eval es)
  | [], _ => value fun _ mem => absurd mem List.not_mem_nil
  | e :: rest, each => by
      refine (each e List.mem_cons_self).andThen fun v comes => ?_
      refine (collect fun e mem => each e (List.mem_cons_of_mem _ mem)).andThen fun vs come => ?_
      exact value (List.forall_mem_cons.mpr ⟨comes, come⟩)

theorem forEach {run : Stmt → Exec Unit} : ∀ {sts : List Stmt},
    (∀ st ∈ sts, Traces all (fun _ => True) (run st)) →
      Traces all (fun _ => True) (forEach run sts)
  | [], _ => value trivial
  | st :: _, each =>
      (each st List.mem_cons_self).andThenAny fun _ =>
        forEach fun st mem => each st (List.mem_cons_of_mem _ mem)

end Traces

/-! ## Programs -/

/-- All parts of a tree are traced that have their nodes among the given locations. -/
structure TracesParts (all : List Location) (fuel calls : Nat) : Prop where
  expr : ∀ e : Expr, e.locations ⊆ all →
    Traces all (Value.ComesFrom all) (evaluate fuel calls e)
  stmt : ∀ st : Stmt, st.locations ⊆ all → Traces all (fun _ => True) (execute fuel calls st)
  loop : ∀ (test : Expr) (body : Block), test.locations ⊆ all → body.locations ⊆ all →
    Traces all (fun _ => True) (repeatWhile fuel calls test body)

namespace TracesParts

variable {fuel calls : Nat}

section Parts

variable (parts : TracesParts all fuel calls)
include parts

theorem exprs {es : List Expr} (within : Expr.listLocations es ⊆ all) :
    ∀ e ∈ es, Traces all (Value.ComesFrom all) (evaluate fuel calls e) := by
  induction es with
  | nil => exact fun _ mem => absurd mem List.not_mem_nil
  | cons e es ih =>
      obtain ⟨first, rest⟩ := List.append_subset.mp within
      exact List.forall_mem_cons.mpr ⟨parts.expr e first, ih rest⟩

theorem stmts {sts : List Stmt} (within : Stmt.listLocations sts ⊆ all) :
    ∀ st ∈ sts, Traces all (fun _ => True) (execute fuel calls st) := by
  induction sts with
  | nil => exact fun _ mem => absurd mem List.not_mem_nil
  | cons st sts ih =>
      obtain ⟨first, rest⟩ := List.append_subset.mp within
      exact List.forall_mem_cons.mpr ⟨parts.stmt st first, ih rest⟩

theorem body {body : Block} (within : body.locations ⊆ all) :
    Traces all (fun _ => True) (Exec.forEach (execute fuel calls) body.statements) := by
  obtain ⟨location, sts⟩ := body
  exact .forEach (parts.stmts (List.cons_subset.mp within).2)

theorem pairs : ∀ (elements : List Element) (position : Nat) {sofar : Pairs},
    Element.listLocations elements ⊆ all → PairsComeFrom all sofar →
      Traces all (PairsComeFrom all) (pairs (evaluate fuel calls) position sofar elements)
  | [], _, _, _, come => .value come
  | .plain element :: rest, position, sofar, within, come => by
      obtain ⟨first, rest'⟩ := List.append_subset.mp within
      have number : (Value.number position).ComesFrom all := trivial
      refine (parts.expr element first).andThen fun v comes => ?_
      rw [← Exec.bind_assoc]
      exact (Traces.grown come number comes).andThen fun sofar come => pairs rest _ rest' come
  | .keyed _ key element :: rest, position, sofar, within, come => by
      obtain ⟨first, rest'⟩ := List.append_subset.mp within
      obtain ⟨-, both⟩ := List.cons_subset.mp first
      obtain ⟨ofKey, ofValue⟩ := List.append_subset.mp both
      refine (parts.expr key ofKey).andThen fun k comesKey => ?_
      refine (parts.expr element ofValue).andThen fun v comes => ?_
      rw [← Exec.bind_assoc]
      exact (Traces.grown come comesKey comes).andThen fun sofar come => pairs rest _ rest' come

theorem print {location : Location} {args : List Expr} (mem : location ∈ all)
    (within : Expr.listLocations args ⊆ all) :
    Traces all (Value.ComesFrom all) (print (evaluate fuel calls) location args) := by
  match args with
  | [] => exact .fail nofun mem
  | [arg] =>
      refine (parts.expr arg (List.append_subset.mp within).1).andThenAny fun v => ?_
      rw [← Exec.bind_assoc]
      refine (Traces.lookUpAny _).andThenAny fun text => ?_
      refine (Traces.note "PRINT" location [("output", .text text)]).andThenAny fun _ => ?_
      exact .of_keeps (fun _ => rfl) (fun _ done => by cases done; trivial)
        fun _ failed => nomatch failed
  | _ :: _ :: _ => exact .fail nofun mem

theorem assign {target : Expr} {v : Value} (within : target.locations ⊆ all)
    (comes : v.ComesFrom all) :
    Traces all (fun _ => True) (assign (evaluate fuel calls) target v) := by
  have here : target.location ∈ all := within target.location_mem_locations
  cases target with
  | ident id => exact .bind id.name comes
  | index location base key =>
      obtain ⟨-, both⟩ := List.cons_subset.mp within
      obtain ⟨ofBase, ofKey⟩ := List.append_subset.mp both
      refine (parts.expr base ofBase).andThenAny fun a => ?_
      refine (Traces.arrayOf .assign here a).andThenAny fun ref => ?_
      exact (parts.expr key ofKey).andThen fun k comesKey => .store ref comesKey comes
  | select location base selector =>
      obtain ⟨-, both⟩ := List.cons_subset.mp within
      obtain ⟨ofBase, ofKey⟩ := List.append_subset.mp both
      refine (parts.expr base ofBase).andThenAny fun a => ?_
      refine (Traces.arrayOf .assign here a).andThenAny fun ref => ?_
      exact (Traces.name (ofKey List.mem_cons_self)).andThen fun k comesKey =>
        .store ref comesKey comes
  | number | text | func | array | unary | binary | paren | call => exact .fail nofun here

end Parts

/-- One level of an expression, with its parts and the statements of functions that it may call. -/
theorem evaluate_succ (parts : ∀ calls, TracesParts all fuel calls) {e : Expr}
    (within : e.locations ⊆ all) :
    Traces all (Value.ComesFrom all) (evaluate (fuel + 1) calls e) := by
  have part := (parts calls).expr
  have here : e.location ∈ all := within e.location_mem_locations
  rw [evaluate.eq_def]
  cases e with
  | number | text => exact .value trivial
  | ident id => exact .name here
  | func location params body =>
      obtain ⟨-, both⟩ := List.cons_subset.mp within
      exact .function location params (List.append_subset.mp both).2
  | array location elements =>
      have none : PairsComeFrom all [] := fun _ mem => absurd mem List.not_mem_nil
      exact ((parts calls).pairs elements 0 (List.cons_subset.mp within).2 none).andThen
        fun items come => .newArray come
  | unary location op operand =>
      refine (part operand (List.cons_subset.mp within).2).andThen fun v comes => ?_
      exact .orBlame (Operator.fits_unary op comes) here
  | binary location op left right =>
      obtain ⟨ofLeft, ofRight⟩ := List.append_subset.mp (List.cons_subset.mp within).2
      refine (part left ofLeft).andThenAny fun a => (part right ofRight).andThenAny fun b => ?_
      exact .orBlame (Operator.fits_binary op a b) here
  | index location base key =>
      obtain ⟨ofBase, ofKey⟩ := List.append_subset.mp (List.cons_subset.mp within).2
      refine (part base ofBase).andThenAny fun a => ?_
      refine (Traces.arrayOf .index here a).andThenAny fun ref => ?_
      exact (part key ofKey).andThenAny fun k => .fetch ref k
  | select location base selector =>
      obtain ⟨ofBase, ofKey⟩ := List.append_subset.mp (List.cons_subset.mp within).2
      refine (part base ofBase).andThenAny fun a => ?_
      refine (Traces.arrayOf .select here a).andThenAny fun ref => ?_
      exact (Traces.name (ofKey List.mem_cons_self)).andThenAny fun k => .fetch ref k
  | paren location inner => exact part inner (List.cons_subset.mp within).2
  | call location callee args =>
      obtain ⟨ofCallee, ofArgs⟩ := List.append_subset.mp (List.cons_subset.mp within).2
      dsimp only
      split
      · exact (parts calls).print here ofArgs
      · refine (part callee ofCallee).andThen fun v comes => ?_
        refine (Traces.functionOf here comes).andThen fun f ofBody => ?_
        split
        · exact .fail nofun here
        · refine (Traces.collect ((parts calls).exprs ofArgs)).andThen fun values come => ?_
          rw [← Exec.bind_assoc, ← Exec.bind_assoc]
          refine (Traces.noteCall callee.calleeName location values).andThenAny fun _ => ?_
          cases calls with
          | zero => exact .hitLimit .calls
          | succ calls =>
              -- the body is that of a function the session holds, and not a part of the expression
              have body := (parts calls).body ofBody
              exact .activate _ _ ((Traces.declare f.params come).andThenAny fun _ => body)

/-- One level of a statement. -/
theorem execute_succ (parts : TracesParts all fuel calls) {st : Stmt}
    (within : st.locations ⊆ all) : Traces all (fun _ => True) (execute (fuel + 1) calls st) := by
  have part := parts.expr
  have block : ∀ body : Block, body.locations ⊆ all → Traces all (fun _ => True)
      (Exec.inScope (Exec.forEach (execute fuel calls) body.statements)) :=
    fun body within => (parts.body within).inScope
  rw [execute.eq_def]
  refine (Traces.note st.kindName st.location []).andThenAny fun _ => ?_
  cases st with
  | block body => exact block body within
  | assign location target e =>
      obtain ⟨ofTarget, ofValue⟩ := List.append_subset.mp (List.cons_subset.mp within).2
      exact (part e ofValue).andThen fun v comes => parts.assign ofTarget comes
  | cond branch =>
      obtain ⟨location, test, body, otherwise⟩ := branch
      obtain ⟨ofTest, rest⟩ := List.append_subset.mp (List.cons_subset.mp within).2
      obtain ⟨ofBody, ofOtherwise⟩ := List.append_subset.mp rest
      refine (part test ofTest).andThenAny fun v => ?_
      split
      · exact block body ofBody
      · cases otherwise with
        | nothing => exact .value trivial
        | block body => exact parts.stmt (.block body) ofOtherwise
        | branch next => exact parts.stmt (.cond next) ofOtherwise
  | empty => exact .value trivial
  | expr location e =>
      exact (part e (List.cons_subset.mp within).2).andThenAny fun _ => .value trivial
  | loop location test body =>
      obtain ⟨ofTest, ofBody⟩ := List.append_subset.mp (List.cons_subset.mp within).2
      exact parts.loop test body ofTest ofBody
  | ret location result =>
      cases result with
      | none => exact .setPending trivial
      | some e =>
          exact (part e (List.cons_subset.mp within).2).andThen fun v comes => .setPending comes

theorem program (fuel calls : Nat) : TracesParts all fuel calls := by
  induction fuel generalizing calls with
  | zero =>
      refine ⟨fun e _ => ?_, fun st _ => ?_, fun test body _ _ => ?_⟩
      · rw [evaluate]; exact .exhausted
      · rw [execute]; exact .exhausted
      · rw [repeatWhile]; exact .exhausted
  | succ fuel ih =>
      refine ⟨fun e within => evaluate_succ ih within,
        fun st within => execute_succ (ih calls) within, fun test body ofTest ofBody => ?_⟩
      rw [repeatWhile]
      refine ((ih calls).expr test ofTest).andThenAny fun v => ?_
      split
      · exact ((ih calls).body ofBody).inScope.andThenAny fun _ =>
          (ih calls).loop test body ofTest ofBody
      · exact .value trivial

end TracesParts

/-! ## Runs -/

/-- The sessions that runs of one source lead to. -/
inductive RunsOf (source : Source) (verbose : Bool) : Session → Prop
  | initial : RunsOf source verbose (.initial verbose)
  | run {s : Session} (budget : Budget) :
      RunsOf source verbose s → RunsOf source verbose (s.runSource budget source).2

section Run

variable {budget : Budget} {program : Program} {s t : Session}

theorem traces_program (budget : Budget) (program : Program) :
    Traces program.locations (fun _ => True)
      (forEach (execute budget.fuel budget.calls) program.statements) :=
  .forEach ((TracesParts.program budget.fuel budget.calls).stmts fun _ mem => mem)

theorem Sourced.run_done (sourced : Sourced program.locations s)
    (done : s.run budget program = .done () t) : Sourced program.locations t := by
  have begun : Sourced program.locations s.begun := sourced.of_stores rfl
  rw [run_eq] at done
  split at done
  · rename_i _ u here
    cases done
    exact ((traces_program budget program).inScope_done begun here).2.1.pop
  · cases done
  · cases done

theorem Sourced.run_failed {fault : Fault} (sourced : Sourced program.locations s)
    (failed : s.run budget program = .failed fault t) :
    Sourced program.locations t ∧ fault.Blames program.locations := by
  have begun : Sourced program.locations s.begun := sourced.of_stores rfl
  rw [run_eq] at failed
  split at failed
  · cases failed
  · rename_i fault' u here
    cases failed
    obtain ⟨sourced', blames⟩ := (traces_program budget program).inScope_failed begun here
    refine ⟨sourced', ?_⟩
    unfold blame
    split
    · rename_i limit hit
      rw [hit]
      exact Fault.blames_limit limit _
    · exact blames
  · cases failed

end Run

theorem sourced_initial (all : List Location) (verbose : Bool) :
    Sourced all (.initial verbose) := by
  refine ⟨fun ref pair mem => ?_, fun v binds => ?_, trivial⟩
  · have none : (initial verbose).heap.read ref = [] := rfl
    rw [none] at mem
    cases mem
  · obtain ⟨handle, scope, there, -⟩ := binds
    cases there

theorem RunsOf.sourced {source : Source} {verbose : Bool} {program : Program} {s : Session}
    (runs : RunsOf source verbose s) (read : Program.ofSource source = .ok program) :
    Sourced program.locations s := by
  induction runs with
  | initial => exact sourced_initial _ verbose
  | @run s budget _ ih =>
      generalize ran : s.runSource budget source = ended
      obtain ⟨ending, t⟩ := ended
      obtain ⟨fault, -, rfl⟩ | ⟨program', read', ⟨-, done⟩ | ⟨fault, -, failed⟩ | ⟨-, rfl⟩⟩ :=
        runSource_cases ran
      · exact ih
      · cases read.symm.trans read'
        exact ih.run_done done
      · cases read.symm.trans read'
        exact (ih.run_failed failed).1
      · exact ih

/-- **Every fault has a place.** Whatever runs of a source have come before, a run of it that fails
reports a rule, and unless that is the rule for limits it reports the location of a node of the
program. It never reports that no scope is open, nor that a statement or an expression is of no
supported kind. -/
theorem runSource_located {source : Source} {verbose : Bool} {s t : Session} {budget : Budget}
    {fault : Fault} (runs : RunsOf source verbose s)
    (ran : s.runSource budget source = (.failed fault, t)) :
    let report := t.report fault
    (∃ rule, report.rule = some rule) ∧
      (report.rule ≠ some "internal" → ∃ program, Program.ofSource source = .ok program ∧
        ∃ l ∈ program.locations, report.location = some l) ∧
      fault.cause ≠ .noScope ∧ report.message ≠ "No active scope" ∧
      ∀ rest, report.message ≠ "Unsupported " ++ rest := by
  obtain ⟨_, ended, -⟩ | ⟨program, read, ⟨ended, -⟩ | ⟨fault', ended, failed⟩ | ⟨ended, -⟩⟩ :=
    runSource_cases ran
  · cases ended
  · cases ended
  · cases ended
    obtain ⟨scope, place⟩ := ((runs.sourced read).run_failed failed).2
    refine ⟨⟨fault.cause.rule, rfl⟩, fun rule => ?_, scope, Cause.message_ne_noScope scope,
      fault.cause.message_ne_unsupported⟩
    refine ⟨program, read, place ?_⟩
    intro limit hit
    refine rule ?_
    show some fault.cause.rule = some "internal"
    rw [hit]
    rfl
  · cases ended

/-- A source whose functions are called from an array. The second of them fails in the first. -/
def misplaced : Source :=
  ⟨"misplaced", "f = func(a) \x7b return a[0]; \x7d; g = [func(b) \x7b f(b); \x7d]; g[0](1);"⟩

/-- It fails again when it is run again. -/
theorem runSource_located_misplaced :
    let s := ((initial false).runSource ⟨30, 10⟩ misplaced).2
    ∃ fault t, RunsOf misplaced false s ∧ s.runSource ⟨30, 10⟩ misplaced = (.failed fault, t) ∧
      (t.report fault).rule = some "INDEX" ∧
      ∃ program, Program.ofSource misplaced = .ok program ∧
        ∃ l ∈ program.locations, (t.report fault).location = some l := by
  intro s
  have runs : RunsOf misplaced false s := .run _ .initial
  have rules : (failure? (s.runSource ⟨30, 10⟩ misplaced)).map
      (fun failed => (failed.2.report failed.1).rule) = some (some "INDEX") := by decide +kernel
  obtain ⟨⟨fault, t⟩, failed, rule⟩ := Option.map_eq_some_iff.mp rules
  have ran := of_failure? failed
  have rule : (t.report fault).rule = some "INDEX" := rule
  have other : (t.report fault).rule ≠ some "internal" := by simp [rule]
  exact ⟨fault, t, runs, ran, rule, (runSource_located runs ran).2.1 other⟩

end Session

end Mini
