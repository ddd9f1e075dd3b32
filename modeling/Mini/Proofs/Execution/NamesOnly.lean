import Mini.Proofs.Execution.Blamed

/-!
# Programs that assign to names only

A program that assigns to no entry of an array never stores into one. For this it is not enough that
none of the statements that are carried out does, since a function may be called that was put away
earlier. But all functions that a session holds are literals of the program, so their bodies assign
to no entries either, wherever they are called.
-/

namespace Mini

/-! ## Targets of assignments -/

/-- The expression stands for an entry of an array, for reading or as a target. -/
def Expr.isEntry : Expr → Bool
  | .index .. | .select .. => true
  | .number .. | .text .. | .ident _ | .func .. | .array .. | .unary .. | .binary .. | .paren ..
  | .call .. => false

mutual

/-- The targets of all assignments in an expression, which stand in bodies of functions. -/
def Expr.targets : Expr → List Expr
  | .number .. | .text .. | .ident _ => []
  | .func _ _ body => body.targets
  | .array _ elements => Element.listTargets elements
  | .unary _ _ operand => operand.targets
  | .binary _ _ left right => left.targets ++ right.targets
  | .index _ base key => base.targets ++ key.targets
  | .select _ base _ => base.targets
  | .paren _ inner => inner.targets
  | .call _ callee args => callee.targets ++ Expr.listTargets args

def Expr.listTargets : List Expr → List Expr
  | [] => []
  | e :: es => e.targets ++ Expr.listTargets es

def Element.targets : Element → List Expr
  | .plain value => value.targets
  | .keyed _ key value => key.targets ++ value.targets

def Element.listTargets : List Element → List Expr
  | [] => []
  | element :: elements => element.targets ++ Element.listTargets elements

/-- The targets of all assignments in a statement. -/
def Stmt.targets : Stmt → List Expr
  | .block body => body.targets
  | .assign _ target value => target :: (target.targets ++ value.targets)
  | .cond branch => branch.targets
  | .empty _ => []
  | .expr _ value => value.targets
  | .loop _ test body => test.targets ++ body.targets
  | .ret _ none => []
  | .ret _ (some value) => value.targets

def Stmt.listTargets : List Stmt → List Expr
  | [] => []
  | statement :: statements => statement.targets ++ Stmt.listTargets statements

def Block.targets : Block → List Expr
  | .mk _ statements => Stmt.listTargets statements

def Branch.targets : Branch → List Expr
  | .mk _ test body otherwise => test.targets ++ (body.targets ++ otherwise.targets)

def Otherwise.targets : Otherwise → List Expr
  | .nothing => []
  | .block body => body.targets
  | .branch next => next.targets

end

/-- None of the targets is an entry of an array. -/
def NoEntries (targets : List Expr) : Prop :=
  ∀ target ∈ targets, target.isEntry = false

instance (targets : List Expr) : Decidable (NoEntries targets) :=
  inferInstanceAs (Decidable (∀ target ∈ targets, target.isEntry = false))

theorem noEntries_append {targets more : List Expr} :
    NoEntries (targets ++ more) ↔ NoEntries targets ∧ NoEntries more :=
  List.forall_mem_append

/-- No assignment of the program, in bodies of functions or outside of them, is to an entry of an
array. -/
def Program.NamesOnly (program : Program) : Prop :=
  NoEntries (Stmt.listTargets program.statements)

instance (program : Program) : Decidable program.NamesOnly :=
  inferInstanceAs (Decidable (NoEntries _))

/-! ## Values without assignments to entries -/

/-- The body of a function assigns to no entries. No other value has a body. -/
def Value.NamesOnly : Value → Prop
  | .function f => NoEntries f.body.targets
  | .nothing | .number _ | .text _ | .boolean _ | .array _ => True

/-- So do the bodies of all functions among the keys and values of some pairs. -/
def PairsNamesOnly (pairs : Pairs) : Prop :=
  ∀ pair ∈ pairs, pair.1.NamesOnly ∧ pair.2.NamesOnly

theorem Heap.namesOnly_of_lookup {h : Heap} {pairs : Pairs} {key v : Value}
    (all : PairsNamesOnly pairs) (found : h.lookup pairs key = .ok v) : v.NamesOnly := by
  rcases of_lookup found with rfl | ⟨pair, mem, rfl⟩
  · trivial
  · exact (all pair mem).2

namespace Operator

theorem namesOnly_unary {op : Token} {operand v : Value} (only : operand.NamesOnly)
    (ok : unary op operand = .ok v) : v.NamesOnly := by
  unfold unary at ok
  split at ok
  · cases ok
    exact only
  · cases ok
    trivial
  · cases ok
    trivial
  · cases ok

theorem namesOnly_binary {op : Token} {left right v : Value}
    (ok : binary op left right = .ok v) : v.NamesOnly := by
  -- what operators make of two values has no nodes at all
  have nowhere : Fits [] (binary op left right) := fits_binary op left right
  rw [ok] at nowhere
  cases v with
  | function f =>
      obtain ⟨id, params, location, statements⟩ := f
      have within : Block.locations (.mk location statements) ⊆ [] := nowhere
      exact absurd (within List.mem_cons_self) List.not_mem_nil
  | nothing | number | text | boolean | array => trivial

end Operator

namespace Session

open Exec

variable {α β : Type}

/-! ## Sessions -/

/-- All functions that a session holds assign to names only. -/
structure NamesOnly (s : Session) : Prop where
  stored : ∀ ref, PairsNamesOnly (s.heap.read ref)
  bound : ∀ v, s.scopes.Binds v → v.NamesOnly
  pending : s.pending.NamesOnly

namespace NamesOnly

variable {s t : Session}

theorem of_stores (only : NamesOnly s) (same : t.stores = s.stores) : NamesOnly t := by
  obtain ⟨heap, scopes, pending⟩ : t.heap = s.heap ∧ t.scopes = s.scopes ∧
      t.pending = s.pending := by
    simpa [stores] using same
  exact ⟨heap ▸ only.stored, scopes ▸ only.bound, pending ▸ only.pending⟩

theorem withScopes (only : NamesOnly s) {scopes : Scopes}
    (bound : ∀ v, scopes.Binds v → s.scopes.Binds v ∨ v.NamesOnly) :
    NamesOnly { s with scopes := scopes } :=
  ⟨only.stored, fun v binds => (bound v binds).elim (only.bound v) id, only.pending⟩

theorem entered (only : NamesOnly s) : NamesOnly { s with scopes := s.scopes.enter } :=
  only.withScopes fun _ binds => .inl (Scopes.binds_of_enter binds)

theorem left (only : NamesOnly s) : NamesOnly { s with scopes := s.scopes.leave } :=
  only.withScopes fun _ binds => .inl (Scopes.binds_of_leave binds)

theorem withPending (only : NamesOnly s) {v : Value} (plain : v.NamesOnly) :
    NamesOnly { s with pending := v } :=
  ⟨only.stored, only.bound, plain⟩

theorem unwound (only : NamesOnly s) : NamesOnly (unwound s) := by
  have nothing : Value.NamesOnly .nothing := trivial
  exact (only.withPending nothing).left

theorem pop (only : NamesOnly s) : NamesOnly s.pop :=
  only.of_stores (by unfold Session.pop; cases s.stack <;> rfl)

end NamesOnly

/-! ## Executions -/

/-- Where all functions assign to names only, an execution leaves it at that, gives what can be
added to it, and stores nothing into arrays. -/
structure Spares ⦃α : Type⦄ (gives : α → Prop) (found : Session → List Event) (x : Exec α) : Prop where
  ended : ∀ ⦃s t⦄, NamesOnly s → left? (x s) = some t → NamesOnly t
  given : ∀ ⦃s a t⦄, NamesOnly s → x s = .done a t → gives a
  events : ∀ ⦃s⦄, NamesOnly s → ∀ e ∈ found s, e.stored = none

namespace Spares

variable {gives : α → Prop} {gives' : β → Prop} {found : Session → List Event} {x : Exec α}

theorem andThen {f : α → Exec β} {later} (first : Spares gives found x)
    (second : ∀ a, gives a → Spares gives' (later a) (f a)) :
    Spares gives' (inTurn found x later) (x >>= f) := by
  refine ⟨fun s t only left => ?_, fun s b t only done => ?_, fun s only e mem => ?_⟩
  · rcases left?_andThen left with left | ⟨a, u, here, left⟩
    · exact first.ended only left
    · exact (second a (first.given only here)).ended (first.ended only (congrArg left? here)) left
  · obtain ⟨a, u, here, there⟩ := bind_done done
    exact (second a (first.given only here)).given (first.ended only (congrArg left? here)) there
  · rcases List.mem_append.mp mem with mem | mem
    · exact first.events only e mem
    · cases here : x s with
      | done a u =>
          rw [listBehind_done _ here] at mem
          exact (second a (first.given only here)).events (first.ended only (congrArg left? here))
            e mem
      | failed | outOfFuel =>
          rw [here] at mem
          cases mem

theorem andThenAny {f : α → Exec β} {later} (first : Spares gives found x)
    (second : ∀ a, Spares gives' (later a) (f a)) :
    Spares gives' (inTurn found x later) (x >>= f) :=
  first.andThen fun a _ => second a

/-- What comes after, if nothing happens any more. -/
theorem andThenPlain {f : α → Exec β} (first : Spares gives found x)
    (second : ∀ a, gives a → Spares gives' noEvents (f a)) : Spares gives' found (x >>= f) := by
  have both := first.andThen second
  rwa [inTurn_noEvents] at both

/-! ### Steps that leave the stores as they are -/

theorem still (h : Keeps stores x) (given : ∀ {s a t}, NamesOnly s → x s = .done a t → gives a)
    (events : ∀ s, ∀ e ∈ found s, e.stored = none) : Spares gives found x := by
  refine ⟨fun s t only left => ?_, fun s a t only done => given only done,
    fun s _ e mem => events s e mem⟩
  rcases left?_cases left with ⟨a, done⟩ | ⟨fault, failed⟩
  · exact only.of_stores (h.done done)
  · exact only.of_stores (h.failed failed)

theorem quiet (h : Keeps stores x) (given : ∀ {s a t}, NamesOnly s → x s = .done a t → gives a) :
    Spares gives noEvents x :=
  still h given fun _ _ mem => absurd mem List.not_mem_nil

theorem value {a : α} (given : gives a) : Spares gives noEvents (value a) :=
  quiet (fun _ => rfl) fun _ done => by cases done; exact given

theorem fail (cause : Cause) (location : Option Location) :
    Spares gives noEvents (fail cause location) :=
  quiet (fun _ => rfl) fun _ done => nomatch done

theorem exhausted : Spares gives noEvents exhausted :=
  quiet (fun _ => trivial) fun _ done => nomatch done

theorem orBlame {location : Option Location} {r : Except Cause α}
    (given : ∀ a, r = .ok a → gives a) : Spares gives noEvents (orBlame location r) := by
  cases r with
  | ok a => exact value (given a rfl)
  | error cause => exact fail cause location

theorem arrayOf (use : ArrayUse) (location : Location) (v : Value) :
    Spares (fun _ => True) noEvents (arrayOf use location v) := by
  cases v with
  | array ref => exact value trivial
  | nothing | number | text | boolean | function => exact fail _ _

theorem functionOf (location : Location) {v : Value} (only : v.NamesOnly) :
    Spares (fun f : Function => NoEntries f.body.targets) noEvents (functionOf location v) := by
  cases v with
  | function f => exact value only
  | nothing | number | text | boolean | array => exact fail _ _

theorem name (id : Identifier) : Spares Value.NamesOnly noEvents (name id) := by
  refine quiet ((Keeps.name id).map stores) fun {s v t} only done => ?_
  rw [name_apply] at done
  split at done
  · cases done
    trivial
  · split at done
    · cases done
      trivial
    · split at done
      · rename_i got
        cases done
        exact only.bound v (Scopes.binds_of_get got)
      · cases done

theorem function (location : Location) (params : List Identifier) {body : Block}
    (only : NoEntries body.targets) :
    Spares Value.NamesOnly noEvents (function location params body) :=
  quiet (fun _ => rfl) fun _ done => by cases done; exact only

theorem lookUp {look : Session → Except Limit α}
    (given : ∀ {s a}, NamesOnly s → look s = .ok a → gives a) :
    Spares gives noEvents (get look >>= orLimit) := by
  refine quiet ((Keeps.lookUp look).map stores) fun only done => ?_
  rw [lookUp_apply] at done
  split at done
  · cases done
    exact given only ‹_›
  · cases done

theorem fetch (ref : Ref) (key : Value) : Spares Value.NamesOnly noEvents (fetch ref key) :=
  lookUp fun only found => Heap.namesOnly_of_lookup (only.stored ref) found

/-! ### Steps that change the stores -/

theorem newArray {items : Pairs} (all : PairsNamesOnly items) :
    Spares Value.NamesOnly noEvents (newArray items) := by
  refine ⟨fun s t only left => ?_, fun s v t only done => ?_,
    fun s _ e mem => absurd mem List.not_mem_nil⟩
  · cases left
    exact ⟨Heap.forall_read_add only.stored all, only.bound, only.pending⟩
  · cases done
    trivial

theorem bind (name : String) {v : Value} (plain : v.NamesOnly) :
    Spares (fun _ => True) noEvents (bind name v) := by
  refine ⟨fun s t only left => ?_, fun _ _ _ _ _ => trivial,
    fun s _ e mem => absurd mem List.not_mem_nil⟩
  rw [bindName_apply] at left
  cases bound : s.scopes.bind name v with
  | ok scopes =>
      rw [bound] at left
      cases left
      refine only.withScopes fun w binds => ?_
      exact (Scopes.binds_of_bind bound binds).imp_right fun (same : w = v) => same ▸ plain
  | error cause =>
      rw [bound] at left
      cases left
      exact only

theorem declare : ∀ (params : List Identifier) {args : List Value}, (∀ v ∈ args, v.NamesOnly) →
    Spares (fun _ => True) noEvents (declare params args)
  | [], _, _ => value trivial
  | _ :: _, [], _ => value trivial
  | param :: params, arg :: args, all => by
      refine ⟨fun s t only left => ?_, fun _ _ _ _ _ => trivial,
        fun s _ e mem => absurd mem List.not_mem_nil⟩
      rw [declare_cons_apply] at left
      cases declared : s.scopes.declare param.name arg with
      | ok scopes =>
          rw [declared] at left
          have later := declare params fun v mem => all v (List.mem_cons_of_mem _ mem)
          refine later.ended (only.withScopes fun w binds => ?_) left
          exact (Scopes.binds_of_declare declared binds).imp_right fun (same : w = arg) =>
            same ▸ all arg List.mem_cons_self
      | error cause =>
          rw [declared] at left
          cases left
          exact only

/-! ### Events -/

theorem heard {frame : Nat} {deed : Session → Deed} (h : Keeps stores x)
    (given : ∀ {s a t}, NamesOnly s → x s = .done a t → gives a)
    (nothing : ∀ s, Event.stored ⟨frame, deed s, s⟩ = none) :
    Spares gives (heard frame deed x) x :=
  still h given fun s _ mem => eq_of_mem_heard mem ▸ nothing s

/-- An event whose deed says nothing of what is given. -/
theorem logged {frame : Nat} {deed : Session → Deed} (h : Keeps stores x)
    (nothing : ∀ s, Event.stored ⟨frame, deed s, s⟩ = none) :
    Spares (fun _ => True) (Session.heard frame deed x) x :=
  heard h (fun _ _ => trivial) nothing

/-- Values that are to be written out store nothing. -/
theorem ahead {frame : Nat} {earlier : Session → List Event} (writings : Writings frame earlier)
    (h : Spares gives found x) : Spares gives (ahead earlier found) x := by
  refine ⟨h.ended, h.given, fun s only e mem => ?_⟩
  rcases List.mem_append.mp mem with mem | mem
  · obtain ⟨values, rfl⟩ := writings s e mem
    rfl
  · exact h.events only e mem

theorem of_sessions (h : ∀ s, ∃ same, same s = found s ∧ Spares gives same x) :
    Spares gives found x := by
  have any : ∃ same, Spares gives same x := (h (.initial false)).imp fun _ holds => holds.2
  obtain ⟨_, spares⟩ := any
  refine ⟨spares.ended, spares.given, fun s only => ?_⟩
  obtain ⟨_, same, spares⟩ := h s
  exact same ▸ spares.events only

theorem setPending {frame : Nat} {v : Value} (plain : v.NamesOnly) :
    Spares (fun _ => True) (heardReturn frame v) (setPending v) := by
  refine ⟨fun s t only left => ?_, fun _ _ _ _ _ => trivial,
    fun s _ e mem => eq_of_mem_heard mem ▸ rfl⟩
  cases left
  exact only.withPending plain

theorem noteCall {frame : Nat} {deed : Session → Deed} (name : String) (location : Location)
    (args : List Value) (nothing : ∀ s, Event.stored ⟨frame, deed s, s⟩ = none) :
    Spares (fun _ => True)
      (Session.ahead (writingCall frame name args)
        (Session.heard frame deed (noteCall name location args)))
      (noteCall name location args) :=
  (logged ((keeps_noteCall name location args).map stores) nothing).ahead
    (writings_call frame name args)

theorem refused {frame : Nat} (name : String) (location : Location) (args : List Value) :
    Spares gives
      (Session.ahead (writingCall frame name args) (heardRefused frame name location args))
      (Session.noteCall name location args >>= fun _ => Exec.fail (.limit .calls) none) := by
  have noted : Spares (fun _ => True)
      (Session.ahead (writingCall frame name args) (heardRefused frame name location args))
      (Session.noteCall name location args) := noteCall name location args fun _ => rfl
  exact noted.andThenPlain fun _ _ => fail _ _

theorem grown {frame : Nat} {array : Option Ref} {sofar : Pairs} {key v : Value} (all : PairsNamesOnly sofar)
    (plainKey : key.NamesOnly) (plain : v.NamesOnly) :
    Spares PairsNamesOnly (heardBuild frame array sofar key v) (grown sofar key v) := by
  refine heard ((Keeps.lookUp _).map stores) (fun {s pairs t} _ done => ?_) fun _ => rfl
  rw [Session.grown, lookUp_apply] at done
  split at done
  · cases done
    exact Heap.forall_stored ‹_› all plainKey plain
  · cases done

theorem printed {frame : Nat} (location : Location) (v : Value) :
    Spares Value.NamesOnly (Session.ahead (writingPrint frame v) (heardPrint frame location v))
      (printing location v) := by
  have shown : Spares (fun _ : String => True) noEvents (get (·.heap.display v) >>= orLimit) :=
    lookUp fun _ _ => trivial
  have put : Spares Value.NamesOnly (heardPrint frame location v) (printing location v) := by
    refine shown.andThenAny fun text => ?_
    refine (logged (Secures.keeps_note "PRINT" location _) fun _ => rfl).andThenPlain fun _ _ => ?_
    exact quiet (fun _ => rfl) fun _ done => by cases done; trivial
  exact put.ahead (writings_print frame v)

/-! ### Scopes and calls -/

theorem inScope (h : Spares gives found x) :
    Spares gives (fun s => found { s with scopes := s.scopes.enter }) (inScope x) := by
  refine ⟨fun s t only left => ?_, fun s a t only done => ?_, fun s only => h.events only.entered⟩
  · rcases left?_cases left with ⟨a, done⟩ | ⟨fault, failed⟩
    · obtain ⟨u, here, rfl⟩ := inScope_done done
      exact (h.ended only.entered (congrArg left? here)).left
    · obtain ⟨u, here, rfl⟩ := inScope_failed failed
      exact (h.ended only.entered (congrArg left? here)).left
  · obtain ⟨u, here, rfl⟩ := inScope_done done
    exact h.given only.entered here

/-- What a call gives was pending behind its body. -/
theorem activate (name : String) (location : Location) (params : List Identifier)
    {args : List Value} {body : Exec Unit} {inside : Nat → Session → List Event}
    (all : ∀ v ∈ args, v.NamesOnly)
    (h : ∀ callee, Spares (fun _ => True) (inside callee) body) :
    Spares Value.NamesOnly (historyInCall name location params args inside)
      (activate name location (Exec.declare params args >>= fun _ => body)) := by
  have bound := fun callee => (declare params all).andThenAny fun _ => h callee
  have begun : ∀ {s}, NamesOnly s → NamesOnly (activated name location s) :=
    fun only => only.entered.of_stores rfl
  refine ⟨fun s t only left => ?_, fun s v t only done => ?_,
    fun s only => (bound s.frames).events (begun only)⟩
  · rcases left?_cases left with ⟨a, done⟩ | ⟨fault, failed⟩
    · obtain ⟨u, here, rfl⟩ := activate_done done
      exact ((bound s.frames).ended (begun only) (congrArg left? here)).unwound.pop
    · obtain ⟨u, here, rfl⟩ := activate_failed failed
      exact ((bound s.frames).ended (begun only) (congrArg left? here)).unwound
  · rw [activate_apply] at done
    split at done
    · rename_i u here
      cases done
      exact ((bound s.frames).ended (begun only) (congrArg left? here)).pending
    · cases done
    · cases done

theorem call {frame : Nat} {name : String} {location : Location} {params : List Identifier}
    {args : List Value} {body : Exec Unit} {inside : Nat → Session → List Event}
    (all : ∀ v ∈ args, v.NamesOnly)
    (h : ∀ callee, Spares (fun _ => True) (inside callee) body) :
    Spares Value.NamesOnly
      (Session.ahead (writingCall frame name args)
        (historyOfCall frame name location params args body inside))
      (Session.noteCall name location args >>= fun _ =>
        Exec.activate name location (Exec.declare params args >>= fun _ => body)) := by
  have noted : Spares (fun _ => True)
      (Session.ahead (writingCall frame name args) (heardCall frame name location args))
      (Session.noteCall name location args) := noteCall name location args fun _ => rfl
  have resumed : ∀ v : Value, v.NamesOnly →
      Spares Value.NamesOnly (heardResume frame v) (Exec.value v) := fun v plain =>
    heard (fun _ => rfl) (fun _ done => by cases done; exact plain) fun _ => rfl
  have whole := noted.andThenAny fun _ => (activate name location params all h).andThen resumed
  simp only [bind_value] at whole
  rw [historyOfCall, ahead_inTurn]
  exact whole

/-! ### Lists of parts -/

theorem collect {eval : Expr → Exec Value} {found : Expr → Session → List Event} :
    ∀ {es : List Expr}, (∀ e ∈ es, Spares Value.NamesOnly (found e) (eval e)) →
      Spares (fun vs : List Value => ∀ v ∈ vs, v.NamesOnly) (listEach eval found es)
        (collect eval es)
  | [], _ => value fun _ mem => absurd mem List.not_mem_nil
  | e :: rest, each => by
      refine (each e List.mem_cons_self).andThen fun v plain => ?_
      refine (collect fun e mem => each e (List.mem_cons_of_mem _ mem)).andThenPlain fun vs all => ?_
      exact value (List.forall_mem_cons.mpr ⟨plain, all⟩)

theorem forEach {run : Stmt → Exec Unit} {found : Stmt → Session → List Event} :
    ∀ {sts : List Stmt}, (∀ st ∈ sts, Spares (fun _ => True) (found st) (run st)) →
      Spares (fun _ => True) (listEach run found sts) (forEach run sts)
  | [], _ => value trivial
  | st :: _, each =>
      (each st List.mem_cons_self).andThenAny fun _ =>
        forEach fun st mem => each st (List.mem_cons_of_mem _ mem)

end Spares

/-! ## Programs -/

/-- All parts of a tree spare the arrays if they assign to names only. -/
structure SparesParts (fuel calls : Nat) : Prop where
  expr : ∀ (frame : Nat) (e : Expr), NoEntries e.targets →
    Spares Value.NamesOnly (historyOfExpr fuel calls frame e) (evaluate fuel calls e)
  stmt : ∀ (frame : Nat) (st : Stmt), NoEntries st.targets →
    Spares (fun _ => True) (historyOfStmt fuel calls frame st) (execute fuel calls st)
  loop : ∀ (frame : Nat) (test : Expr) (body : Block), NoEntries test.targets →
    NoEntries body.targets →
      Spares (fun _ => True) (historyOfLoop fuel calls frame test body)
        (repeatWhile fuel calls test body)

namespace SparesParts

variable {fuel calls frame : Nat}

/-- The only assignment that can succeed is to a name. -/
theorem assign {target : Expr} {v : Value} (name : target.isEntry = false) (plain : v.NamesOnly) :
    Spares (fun _ => True)
      (historyOfTarget (evaluate fuel calls) (historyOfExpr fuel calls frame) frame target v)
      (assign (evaluate fuel calls) target v) := by
  cases target with
  | ident id => exact .bind id.name plain
  | index | select => cases name
  | number | text | func | array | unary | binary | paren | call => exact .fail _ _

section Parts

variable (parts : SparesParts fuel calls)
include parts

theorem exprs {es : List Expr} (only : NoEntries (Expr.listTargets es)) :
    ∀ e ∈ es, Spares Value.NamesOnly (historyOfExpr fuel calls frame e) (evaluate fuel calls e) := by
  induction es with
  | nil => exact fun _ mem => absurd mem List.not_mem_nil
  | cons e es ih =>
      obtain ⟨first, rest⟩ := noEntries_append.mp only
      exact List.forall_mem_cons.mpr ⟨parts.expr frame e first, ih rest⟩

theorem stmts {sts : List Stmt} (only : NoEntries (Stmt.listTargets sts)) :
    ∀ st ∈ sts, Spares (fun _ => True) (historyOfStmt fuel calls frame st)
      (execute fuel calls st) := by
  induction sts with
  | nil => exact fun _ mem => absurd mem List.not_mem_nil
  | cons st sts ih =>
      obtain ⟨first, rest⟩ := noEntries_append.mp only
      exact List.forall_mem_cons.mpr ⟨parts.stmt frame st first, ih rest⟩

theorem body {body : Block} (only : NoEntries body.targets) :
    Spares (fun _ => True)
      (listEach (execute fuel calls) (historyOfStmt fuel calls frame) body.statements)
      (Exec.forEach (execute fuel calls) body.statements) := by
  obtain ⟨location, sts⟩ := body
  exact .forEach (parts.stmts only)

theorem block {body : Block} (only : NoEntries body.targets) :
    Spares (fun _ => True)
      (historyOfBlock (execute fuel calls) (historyOfStmt fuel calls frame) body)
      (Exec.inScope (Exec.forEach (execute fuel calls) body.statements)) :=
  (parts.body only).inScope

theorem pairs (array : Option Ref) :
    ∀ (elements : List Element) (position : Nat) {sofar : Pairs},
    NoEntries (Element.listTargets elements) → PairsNamesOnly sofar →
      Spares PairsNamesOnly
        (historyOfPairs (evaluate fuel calls) (historyOfExpr fuel calls frame) frame array position
          sofar elements)
        (pairs (evaluate fuel calls) position sofar elements)
  | [], _, _, _, all => .value all
  | .plain element :: rest, position, sofar, only, all => by
      obtain ⟨first, others⟩ := noEntries_append.mp only
      have number : (Value.number position).NamesOnly := trivial
      refine (parts.expr frame element first).andThen fun v plain => ?_
      rw [← Exec.bind_assoc]
      exact (Spares.grown all number plain).andThen fun sofar all =>
        pairs array rest _ others all
  | .keyed _ key element :: rest, position, sofar, only, all => by
      obtain ⟨first, others⟩ := noEntries_append.mp only
      obtain ⟨ofKey, ofValue⟩ := noEntries_append.mp first
      refine (parts.expr frame key ofKey).andThen fun k plainKey => ?_
      refine (parts.expr frame element ofValue).andThen fun v plain => ?_
      rw [← Exec.bind_assoc]
      exact (Spares.grown all plainKey plain).andThen fun sofar all =>
        pairs array rest _ others all

theorem array {elements : List Element} (only : NoEntries (Element.listTargets elements)) :
    Spares Value.NamesOnly
      (historyOfArray (evaluate fuel calls) (historyOfExpr fuel calls frame) frame elements)
      (Exec.pairs (evaluate fuel calls) 0 [] elements >>= Exec.newArray) := by
  have none : PairsNamesOnly [] := fun _ mem => absurd mem List.not_mem_nil
  refine .of_sessions fun s => ?_
  let array := becoming ((Exec.pairs (evaluate fuel calls) 0 [] elements >>= Exec.newArray) s)
  exact ⟨historyOfPairs (evaluate fuel calls) (historyOfExpr fuel calls frame) frame array 0 []
    elements, rfl, (parts.pairs array elements 0 only none).andThenPlain fun _ => .newArray⟩

theorem print (location : Location) {args : List Expr} (only : NoEntries (Expr.listTargets args)) :
    Spares Value.NamesOnly
      (historyOfPrint (evaluate fuel calls) (historyOfExpr fuel calls frame) frame location args)
      (print (evaluate fuel calls) location args) := by
  match args with
  | [] => exact .fail _ _
  | [arg] =>
      exact (parts.expr frame arg (noEntries_append.mp only).1).andThenAny fun v =>
        .printed location v
  | _ :: _ :: _ => exact .fail _ _

end Parts

/-- One level of an expression, with its parts and the statements of functions that it may call. -/
theorem evaluate_succ (parts : ∀ calls, SparesParts fuel calls) {e : Expr}
    (only : NoEntries e.targets) :
    Spares Value.NamesOnly (historyOfExpr (fuel + 1) calls frame e)
      (evaluate (fuel + 1) calls e) := by
  have part := (parts calls).expr frame
  rw [evaluate.eq_def, historyOfExpr.eq_def]
  cases e with
  | number | text => exact .value trivial
  | ident id => exact .name id
  | func location params body => exact .function location params only
  | array location elements => exact (parts calls).array only
  | unary location op operand =>
      exact (part operand only).andThenPlain fun a plain =>
        .orBlame fun v ok => Operator.namesOnly_unary plain ok
  | binary location op left right =>
      obtain ⟨ofLeft, ofRight⟩ := noEntries_append.mp only
      refine (part left ofLeft).andThenAny fun a => (part right ofRight).andThenPlain fun b _ => ?_
      exact .orBlame fun v ok => Operator.namesOnly_binary ok
  | index location base key =>
      obtain ⟨ofBase, ofKey⟩ := noEntries_append.mp only
      refine (part base ofBase).andThenAny fun a => ?_
      refine (Spares.arrayOf .index location a).andThenAny fun ref => ?_
      exact (part key ofKey).andThenPlain fun k _ => .fetch ref k
  | select location base selector =>
      refine (part base only).andThenPlain fun a _ => ?_
      refine (Spares.arrayOf .select location a).andThenPlain fun ref _ => ?_
      exact (Spares.name selector).andThenPlain fun k _ => .fetch ref k
  | paren location inner => exact part inner only
  | call location callee args =>
      obtain ⟨ofCallee, ofArgs⟩ := noEntries_append.mp only
      dsimp only
      split
      · exact (parts calls).print location ofArgs
      · refine (part callee ofCallee).andThen fun a plain => ?_
        refine (Spares.functionOf location plain).andThen fun f ofBody => ?_
        split
        · exact .fail _ _
        · refine (Spares.collect ((parts calls).exprs ofArgs)).andThen fun values all => ?_
          rw [← Exec.bind_assoc, ← Exec.bind_assoc]
          cases calls with
          | zero => exact .refused _ _ _
          | succ calls =>
              -- the body is that of a function the session holds, and not a part of the expression
              exact .call all fun callee => (parts calls).body ofBody

/-- One level of a statement. -/
theorem execute_succ (parts : SparesParts fuel calls) {st : Stmt} (only : NoEntries st.targets) :
    Spares (fun _ => True) (historyOfStmt (fuel + 1) calls frame st)
      (execute (fuel + 1) calls st) := by
  have part := parts.expr frame
  have heard : Spares (fun _ => True) (heardStatement frame st) (noteStatement st) :=
    .logged (Secures.keeps_note _ _ _) fun _ => rfl
  have noted := heard.ahead (writings_bindings frame)
  rw [execute.eq_def, historyOfStmt.eq_def]
  refine noted.andThenAny fun _ => ?_
  cases st with
  | block body => exact parts.block only
  | assign location target e =>
      obtain ⟨name, rest⟩ := List.forall_mem_cons.mp only
      exact (part e (noEntries_append.mp rest).2).andThen fun v plain => assign name plain
  | cond branch =>
      obtain ⟨location, test, body, otherwise⟩ := branch
      obtain ⟨ofTest, rest⟩ := noEntries_append.mp only
      obtain ⟨ofBody, ofOtherwise⟩ := noEntries_append.mp rest
      refine (part test ofTest).andThenAny fun v => ?_
      split
      · exact parts.block ofBody
      · cases otherwise with
        | nothing => exact .value trivial
        | block body => exact parts.stmt frame (.block body) ofOtherwise
        | branch next => exact parts.stmt frame (.cond next) ofOtherwise
  | empty => exact .value trivial
  | expr location e => exact (part e only).andThenPlain fun _ _ => .value trivial
  | loop location test body =>
      obtain ⟨ofTest, ofBody⟩ := noEntries_append.mp only
      exact parts.loop frame test body ofTest ofBody
  | ret location result =>
      cases result with
      | none => exact .setPending trivial
      | some e => exact (part e only).andThen fun v plain => .setPending plain

theorem program (fuel calls : Nat) : SparesParts fuel calls := by
  induction fuel generalizing calls with
  | zero =>
      refine ⟨fun frame e _ => ?_, fun frame st _ => ?_, fun frame test body _ _ => ?_⟩
      · rw [evaluate, historyOfExpr]; exact .exhausted
      · rw [execute, historyOfStmt]; exact .exhausted
      · rw [repeatWhile, historyOfLoop]; exact .exhausted
  | succ fuel ih =>
      refine ⟨fun frame e only => evaluate_succ ih only,
        fun frame st only => execute_succ (ih calls) only, fun frame test body ofTest ofBody => ?_⟩
      rw [repeatWhile, historyOfLoop]
      refine ((ih calls).expr frame test ofTest).andThenAny fun v => ?_
      split
      · exact ((ih calls).block ofBody).andThenAny fun _ =>
          (ih calls).loop frame test body ofTest ofBody
      · exact .value trivial

theorem programBody {program : Program} (names : program.NamesOnly) (budget : Budget)
    (frame : Nat) :
    Spares (fun _ => True) (historyOfBody budget program frame) (programBody budget program) := by
  have all : NoEntries (Block.mk default program.statements).targets := names
  exact (SparesParts.program budget.fuel budget.calls).block all

end SparesParts

/-! ## Runs -/

theorem namesOnly_initial (verbose : Bool) : NamesOnly (initial verbose) := by
  refine ⟨fun ref => ?_, fun v binds => ?_, trivial⟩
  · have none : (initial verbose).heap.read ref = [] := rfl
    rw [none]
    exact fun _ mem => absurd mem List.not_mem_nil
  · obtain ⟨handle, scope, there, -⟩ := binds
    cases there

section Run

variable {source : Source} {program : Program} {s : Session}
  (read : Program.ofSource source = .ok program) (names : program.NamesOnly)
include read names

/-- The history of a run shows no assignment to an entry. -/
theorem NamesOnly.nothing_stored (only : NamesOnly s) (budget : Budget) :
    ∀ e ∈ historyOfSource budget source s, e.stored = none := by
  have body := SparesParts.programBody names budget s.frames
  have begun : NamesOnly s.begun := only.of_stores rfl
  unfold historyOfSource
  rw [read]
  exact body.events begun

theorem NamesOnly.runSource (only : NamesOnly s) (budget : Budget) :
    NamesOnly (s.runSource budget source).2 := by
  have body := SparesParts.programBody names budget s.frames
  have begun : NamesOnly s.begun := only.of_stores rfl
  rw [runSource_eq read]
  split
  · rename_i here
    exact (body.ended begun (congrArg left? here)).pop
  · rename_i here
    exact body.ended begun (congrArg left? here)
  · exact only

theorem RunsOf.namesOnly {verbose : Bool} (runs : RunsOf source verbose s) : NamesOnly s := by
  induction runs with
  | initial => exact namesOnly_initial verbose
  | run budget _ ih => exact ih.runSource read names budget

end Run

end Session

end Mini
