import Mini.Proofs.Execution.PutBehind
import Mini.Proofs.Execution.Tracked
import Mini.Proofs.Scopes.Names

/-!
# Executions keep a session in order

A session is in order if all arrays that it refers to are there, and the history shows of all keys
where they were put. What carries this through a run is a triple for every execution, with
assertions about the history and the heap: that the values which the evaluator holds on to are
there, and that the keys of a literal which is not finished yet have been put behind each other in
the array that it becomes. A triple says besides how the heap evolves by way of the history.
-/

namespace Mini

namespace Session

open Exec

variable {α β : Type}

/-! ## Sessions in order -/

/-- There are all arrays that the session refers to, and the history shows of all keys where they
were put. -/
structure Orderly (history : List Event) (s : Session) : Prop where
  sound : s.heap.Sound
  bound : ∀ v, s.scopes.Binds v → s.heap.Owns v
  pending : s.heap.Owns s.pending
  keys : ∀ ref, KeysPut history s.heap ref (s.heap.read ref)

/-- What that is about. -/
def stores (s : Session) : Heap × Scopes × Value :=
  (s.heap, s.scopes, s.pending)

theorem heap_of_stores {s t : Session} (same : t.stores = s.stores) : t.heap = s.heap :=
  congrArg Prod.fst same

namespace Orderly

variable {history events : List Event} {s t : Session}

theorem more (orderly : Orderly history s) (quiet : ∀ e ∈ events, e.stored = none) :
    Orderly (history ++ events) s := by
  obtain ⟨sound, bound, pending, keys⟩ := orderly
  have evolves : s.heap.Evolves (storedIn events) s.heap := storedIn_of_quiet quiet ▸ .refl s.heap
  exact ⟨sound, bound, pending, fun ref => (keys ref).evolves sound (sound ref) evolves⟩

theorem of_stores (orderly : Orderly history s) (same : t.stores = s.stores) :
    Orderly history t := by
  obtain ⟨heap, scopes, pending⟩ : t.heap = s.heap ∧ t.scopes = s.scopes ∧
      t.pending = s.pending := by
    simpa [stores] using same
  refine ⟨?_, ?_, ?_, ?_⟩
  · rw [heap]; exact orderly.sound
  · rw [heap, scopes]; exact orderly.bound
  · rw [heap, pending]; exact orderly.pending
  · rw [heap]; exact orderly.keys

/-- Other scopes, with nothing bound that is not there. -/
theorem withScopes (orderly : Orderly history s) {scopes : Scopes}
    (bound : ∀ v, scopes.Binds v → s.scopes.Binds v ∨ s.heap.Owns v) :
    Orderly history { s with scopes := scopes } :=
  ⟨orderly.sound, fun v binds => (bound v binds).elim (orderly.bound v) id, orderly.pending,
    orderly.keys⟩

theorem entered (orderly : Orderly history s) :
    Orderly history { s with scopes := s.scopes.enter } :=
  orderly.withScopes fun _ binds => .inl (Scopes.binds_of_enter binds)

theorem left (orderly : Orderly history s) :
    Orderly history { s with scopes := s.scopes.leave } :=
  orderly.withScopes fun _ binds => .inl (Scopes.binds_of_leave binds)

theorem withPending (orderly : Orderly history s) {v : Value} (owns : s.heap.Owns v) :
    Orderly history { s with pending := v } :=
  ⟨orderly.sound, orderly.bound, owns, orderly.keys⟩

theorem unwound (orderly : Orderly history s) : Orderly history (unwound s) := by
  have nothing : s.heap.Owns .nothing := Heap.owns_of_plain fun _ => nofun
  exact (orderly.withPending nothing).left

theorem pop (orderly : Orderly history s) : Orderly history s.pop :=
  orderly.of_stores (by unfold Session.pop; cases s.stack <;> rfl)

end Orderly

/-! ## Triples -/

/-- What is said of the history and of the heap. -/
def Assertion := List Event → Heap → Prop

/-- The assertion stays true as the heap evolves. -/
def Assertion.Stable (pre : Assertion) : Prop :=
  ∀ ⦃history events h h'⦄, h.Sound → pre history h → h.Evolves (storedIn events) h' →
    pre (history ++ events) h'

/-- Values that are held are there. -/
def Holding (held : List Value) : Assertion :=
  fun _ h => ∀ v ∈ held, h.Owns v

theorem holding_nil {history : List Event} {h : Heap} : Holding [] history h :=
  fun _ mem => absurd mem List.not_mem_nil

/-- The pairs of a literal are there, and their keys have been put into the array that it becomes,
if it becomes one. -/
def Literal (array : Option Ref) (pairs : Pairs) : Assertion :=
  fun history h => h.OwnsPairs pairs ∧ ∀ ref, array = some ref → KeysPut history h ref pairs

/-- Both assertions. -/
def Assertion.both (pre pre' : Assertion) : Assertion :=
  fun history h => pre history h ∧ pre' history h

theorem stable_holding (held : List Value) : (Holding held).Stable :=
  fun _ _ _ _ _ holds evolves v mem => evolves.owns (holds v mem)

theorem stable_literal (array : Option Ref) (pairs : Pairs) : (Literal array pairs).Stable :=
  fun _ _ _ _ sound holds evolves =>
    ⟨evolves.ownsPairs holds.1, fun ref becomes =>
      (holds.2 ref becomes).evolves sound holds.1 evolves⟩

theorem Assertion.Stable.both {pre pre' : Assertion} (first : pre.Stable) (second : pre'.Stable) :
    (pre.both pre').Stable :=
  fun _ _ _ _ sound holds evolves =>
    ⟨first sound holds.1 evolves, second sound holds.2 evolves⟩

/-- All is in order however an execution ends, and in the session of every event on the way. The
heap evolves by way of the history into the one in which the execution ends, if it ends. -/
structure Secures ⦃α : Type⦄ (pre : Assertion) (found : Session → List Event) (x : Exec α)
    (post : α → Assertion) : Prop where
  evolution : ∀ ⦃s history⦄, Orderly history s → pre history s.heap →
    ∃ h, Evolution s.heap (found s) h ∧ ∀ t, left? (x s) = some t → t.heap = h
  done : ∀ ⦃s a t history⦄, Orderly history s → pre history s.heap → x s = .done a t →
    Orderly (history ++ found s) t ∧ post a (history ++ found s) t.heap
  failed : ∀ ⦃s fault t history⦄, Orderly history s → pre history s.heap →
    x s = .failed fault t → Orderly (history ++ found s) t
  within : ∀ ⦃s history⦄, Orderly history s → pre history s.heap → ∀ before e after,
    found s = before ++ e :: after → Orderly (history ++ before) e.session

namespace Secures

variable {pre : Assertion} {found : Session → List Event} {x : Exec α} {post : α → Assertion}

theorem evolves {s t : Session} {a : α} {history : List Event} (h : Secures pre found x post)
    (orderly : Orderly history s) (holds : pre history s.heap) (done : x s = .done a t) :
    s.heap.Evolves (storedIn (found s)) t.heap := by
  obtain ⟨h', evolution, ended⟩ := h.evolution orderly holds
  obtain rfl := ended t (congrArg left? done)
  exact evolution.evolves

/-- More may be known before than is needed. -/
theorem weaken {pre' : Assertion} (h : Secures pre found x post)
    (enough : ∀ history h, pre' history h → pre history h) : Secures pre' found x post where
  evolution _ _ orderly holds := h.evolution orderly (enough _ _ holds)
  done _ _ _ _ orderly holds done := h.done orderly (enough _ _ holds) done
  failed _ _ _ _ orderly holds failed := h.failed orderly (enough _ _ holds) failed
  within _ _ orderly holds := h.within orderly (enough _ _ holds)

/-- What needs nothing to be held can be done anywhere. -/
theorem anywhere (h : Secures (Holding []) found x post) : Secures pre found x post :=
  h.weaken fun _ _ _ => holding_nil

/-- One execution after another: what held before is not lost on the way. -/
theorem andThen {mid : α → Assertion} {post : β → Assertion} {f : α → Exec β} {later}
    (stable : pre.Stable) (first : Secures pre found x mid)
    (second : ∀ a, Secures ((mid a).both pre) (later a) (f a) post) :
    Secures pre (inTurn found x later) (x >>= f) post := by
  have between : ∀ {s a u history}, Orderly history s → pre history s.heap → x s = .done a u →
      Orderly (history ++ found s) u ∧ ((mid a).both pre) (history ++ found s) u.heap := by
    intro s a u history orderly holds here
    obtain ⟨orderly', given⟩ := first.done orderly holds here
    exact ⟨orderly', given, stable orderly.sound holds (first.evolves orderly holds here)⟩
  refine ⟨fun s history orderly holds => ?_, fun s b t history orderly holds done => ?_,
    fun s fault t history orderly holds failed => ?_,
    fun s history orderly holds before e after split => ?_⟩
  · obtain ⟨h, evolution, ended⟩ := first.evolution orderly holds
    rw [bind_apply]
    cases here : x s with
    | done a u =>
        rw [here] at ended
        obtain rfl := ended u rfl
        obtain ⟨orderly', holds'⟩ := between orderly holds here
        obtain ⟨h', evolution', ended'⟩ := (second a).evolution orderly' holds'
        rw [inTurn_done here]
        exact ⟨h', evolution.trans evolution', ended'⟩
    | failed fault u =>
        rw [here] at ended
        rw [inTurn_failed here]
        exact ⟨h, evolution, ended⟩
    | outOfFuel =>
        rw [inTurn_outOfFuel here]
        exact ⟨h, evolution, fun t left => by cases left⟩
  · obtain ⟨a, u, here, there⟩ := bind_done done
    obtain ⟨orderly', holds'⟩ := between orderly holds here
    rw [inTurn_done here, ← List.append_assoc]
    exact (second a).done orderly' holds' there
  · obtain here | ⟨a, u, here, there⟩ := bind_failed failed
    · rw [inTurn_failed here]
      exact first.failed orderly holds here
    · obtain ⟨orderly', holds'⟩ := between orderly holds here
      rw [inTurn_done here, ← List.append_assoc]
      exact (second a).failed orderly' holds' there
  -- the event is one of the first execution, or one of the second, which then has begun
  · rcases split_append split with ⟨rest, inside⟩ | ⟨rest, rfl, behind⟩
    · exact first.within orderly holds before e rest inside
    · cases here : x s with
      | done a u =>
          obtain ⟨orderly', holds'⟩ := between orderly holds here
          rw [listBehind_done _ here] at behind
          rw [← List.append_assoc]
          exact (second a).within orderly' holds' rest e after behind
      | failed | outOfFuel =>
          rw [here] at behind
          cases rest <;> cases behind

/-- What comes after, if nothing happens any more. -/
theorem andThenPlain {mid : α → Assertion} {post : β → Assertion} {f : α → Exec β}
    (stable : pre.Stable) (first : Secures pre found x mid)
    (second : ∀ a, Secures ((mid a).both pre) noEvents (f a) post) :
    Secures pre found (x >>= f) post := by
  have both := first.andThen stable second
  rwa [inTurn_noEvents] at both

theorem inScope (h : Secures pre found x post) :
    Secures pre (fun s => found { s with scopes := s.scopes.enter }) (inScope x) post := by
  refine ⟨fun s history orderly holds => ?_, fun s a t history orderly holds done => ?_,
    fun s fault t history orderly holds failed => ?_,
    fun s history orderly holds => h.within orderly.entered holds⟩
  · obtain ⟨h', evolution, ended⟩ := h.evolution orderly.entered holds
    refine ⟨h', evolution, fun t left => ?_⟩
    rcases left?_cases left with ⟨a, done⟩ | ⟨fault, failed⟩
    · obtain ⟨u, here, rfl⟩ := inScope_done done
      exact ended u (congrArg left? here)
    · obtain ⟨u, here, rfl⟩ := inScope_failed failed
      exact ended u (congrArg left? here)
  · obtain ⟨u, here, rfl⟩ := inScope_done done
    obtain ⟨orderly', given⟩ := h.done orderly.entered holds here
    exact ⟨orderly'.left, given⟩
  · obtain ⟨u, here, rfl⟩ := inScope_failed failed
    exact (h.failed orderly.entered holds here).left

/-! ### Steps without events -/

/-- A step in which nothing happens. -/
theorem plain (done : ∀ {s a t history}, Orderly history s → pre history s.heap →
      x s = .done a t → Orderly history t ∧ Evolution s.heap [] t.heap ∧ post a history t.heap)
    (failed : ∀ {s fault t history}, Orderly history s → pre history s.heap →
      x s = .failed fault t → Orderly history t ∧ t.heap = s.heap) :
    Secures pre noEvents x post := by
  refine ⟨fun s history orderly holds => ?_, fun s a t history orderly holds ended => ?_,
    fun s fault t history orderly holds ended => ?_, fun s history _ _ before e after none => ?_⟩
  · cases ended : x s with
    | done a t =>
        refine ⟨t.heap, (done orderly holds ended).2.1, fun u left => ?_⟩
        cases left
        rfl
    | failed fault t =>
        refine ⟨s.heap, .refl _, fun u left => ?_⟩
        cases left
        exact (failed orderly holds ended).2
    | outOfFuel => exact ⟨s.heap, .refl _, fun u left => by cases left⟩
  · rw [noEvents, List.append_nil]
    obtain ⟨orderly', -, given⟩ := done orderly holds ended
    exact ⟨orderly', given⟩
  · rw [noEvents, List.append_nil]
    exact (failed orderly holds ended).1
  · cases before <;> cases none

/-- A step that leaves all stores as they are. -/
theorem of_keeps (h : Keeps stores x)
    (given : ∀ {s a t history}, Orderly history s → pre history s.heap → x s = .done a t →
      post a history s.heap) : Secures pre noEvents x post := by
  refine plain (fun orderly holds done => ?_) fun orderly _ failed => ?_
  · have same := h.done done
    rw [heap_of_stores same]
    exact ⟨orderly.of_stores same, .refl _, given orderly holds done⟩
  · have same := h.failed failed
    exact ⟨orderly.of_stores same, heap_of_stores same⟩

theorem fail (cause : Cause) (location : Option Location) :
    Secures pre noEvents (fail cause location : Exec α) post :=
  of_keeps (fun _ => rfl) fun _ _ done => nomatch done

theorem exhausted : Secures pre noEvents (exhausted : Exec α) post :=
  of_keeps (fun _ => trivial) fun _ _ done => nomatch done

theorem value {a : α} (given : ∀ {s : Session} {history}, Orderly history s →
    pre history s.heap → post a history s.heap) : Secures pre noEvents (value a) post :=
  of_keeps (fun _ => rfl) fun orderly holds done => by cases done; exact given orderly holds

theorem lookUp {look : Session → Except Limit α}
    (given : ∀ {s : Session} {a history}, Orderly history s → pre history s.heap →
      look s = .ok a → post a history s.heap) :
    Secures pre noEvents (get look >>= orLimit) post := by
  refine of_keeps ((Keeps.lookUp look).map stores) fun orderly holds done => ?_
  rw [lookUp_apply] at done
  split at done
  · cases done
    exact given orderly holds ‹_›
  · cases done

theorem name (id : Identifier) : Secures pre noEvents (name id) fun v => Holding [v] := by
  refine of_keeps ((Keeps.name id).map stores) fun {s v t history} orderly _ done => ?_
  refine List.forall_mem_singleton.mpr ?_
  rw [name_apply] at done
  split at done
  · cases done
    exact Heap.owns_of_plain fun _ => nofun
  · split at done
    · cases done
      exact Heap.owns_of_plain fun _ => nofun
    · split at done
      · rename_i got
        cases done
        exact orderly.bound _ (Scopes.binds_of_get got)
      · cases done

theorem function (location : Location) (params : List Identifier) (body : Block) :
    Secures pre noEvents (function location params body) fun v => Holding [v] :=
  of_keeps (fun _ => rfl) fun _ _ done => by
    cases done
    exact List.forall_mem_singleton.mpr (Heap.owns_of_plain fun _ => nofun)

theorem fetch (ref : Ref) (key : Value) :
    Secures pre noEvents (fetch ref key) fun v => Holding [v] := by
  refine lookUp fun {s v history} orderly _ found => List.forall_mem_singleton.mpr ?_
  rcases Heap.of_lookup found with rfl | ⟨pair, mem, rfl⟩
  · exact Heap.owns_of_plain fun _ => nofun
  · exact (orderly.sound ref pair mem).2

theorem bind (name : String) {v : Value} {held : List Value} (mem : v ∈ held) :
    Secures (Holding held) noEvents (bind name v) fun _ => Holding [] := by
  refine plain (fun orderly holds done => ?_) fun orderly _ failed => ?_
  · rw [bindName_apply] at done
    split at done
    · rename_i bound
      cases done
      refine ⟨orderly.withScopes fun w binds => ?_, .refl _,
        holding_nil⟩
      exact (Scopes.binds_of_bind bound binds).imp_right fun (same : w = v) => same ▸ holds v mem
    · cases done
  · rw [bindName_apply] at failed
    split at failed
    · cases failed
    · cases failed
      exact ⟨orderly, rfl⟩

theorem declare : ∀ (params : List Identifier) (args : List Value),
    Secures (Holding args) noEvents (declare params args) fun _ => Holding []
  | [], _ => value fun _ _ => holding_nil
  | _ :: _, [] => value fun _ _ => holding_nil
  | param :: params, arg :: args => by
      have later := declare params args
      have step : ∀ {s history scopes}, Orderly history s → Holding (arg :: args) history s.heap →
          s.scopes.declare param.name arg = .ok scopes →
          Orderly history { s with scopes := scopes } := fun orderly holds declared =>
        orderly.withScopes fun w binds =>
          (Scopes.binds_of_declare declared binds).imp_right fun (same : w = arg) =>
            same ▸ holds arg List.mem_cons_self
      have heap := (Keeps.declare (param :: params) (arg :: args)).map (·.heap)
      refine plain (fun orderly holds done => ?_) fun orderly holds failed => ?_
      · have same := heap.done done
        rw [declare_cons_apply] at done
        split at done
        · rename_i scopes declared
          have ended := later.done (step orderly holds declared)
            (fun v mem => holds v (List.mem_cons_of_mem _ mem)) done
          rw [noEvents, List.append_nil] at ended
          exact ⟨ended.1, same ▸ .refl _, ended.2⟩
        · cases done
      · refine ⟨?_, heap.failed failed⟩
        rw [declare_cons_apply] at failed
        split at failed
        · rename_i scopes declared
          have orderly' := later.failed (step orderly holds declared)
            (fun v mem => holds v (List.mem_cons_of_mem _ mem)) failed
          rwa [noEvents, List.append_nil] at orderly'
        · cases failed
          exact orderly

/-! ### Steps that are events -/

/-- A step that is an event by itself. -/
theorem single {frame : Nat} {deed : Session → Deed}
    (done : ∀ {s a t history}, Orderly history s → pre history s.heap → x s = .done a t →
      Orderly (history ++ [⟨frame, deed s, s⟩]) t ∧ Event.Leaves ⟨frame, deed s, s⟩ t.heap ∧
        post a (history ++ [⟨frame, deed s, s⟩]) t.heap)
    (failed : ∀ {s fault t history}, Orderly history s → pre history s.heap →
      x s = .failed fault t → Orderly history t ∧ t.heap = s.heap) :
    Secures pre (heard frame deed x) x post := by
  refine ⟨fun s history orderly holds => ?_, fun s a t history orderly holds ended => ?_,
    fun s fault t history orderly holds ended => ?_,
    fun s history orderly holds before e after split => ?_⟩
  · cases ended : x s with
    | done a t =>
        rw [heard_done ended]
        refine ⟨t.heap, .event rfl (done orderly holds ended).2.1 (.refl _), fun u left => ?_⟩
        cases left
        rfl
    | failed fault t =>
        rw [heard_failed ended]
        refine ⟨s.heap, .refl _, fun u left => ?_⟩
        cases left
        exact (failed orderly holds ended).2
    | outOfFuel =>
        rw [heard, ended]
        exact ⟨s.heap, .refl _, fun u left => by cases left⟩
  · rw [heard_done ended]
    obtain ⟨orderly', -, given⟩ := done orderly holds ended
    exact ⟨orderly', given⟩
  · rw [heard_failed ended, List.append_nil]
    exact (failed orderly holds ended).1
  · cases ended : x s with
    | done a t =>
        rw [heard_done ended] at split
        cases before with
        | nil =>
            cases split
            rwa [List.append_nil]
        | cons first before => cases before <;> cases split
    | failed | outOfFuel =>
        rw [heard, ended] at split
        cases before <;> cases split

/-- A step that is an event and leaves all stores as they are. -/
theorem heard {frame : Nat} {deed : Session → Deed} (h : Keeps stores x)
    (quiet : ∀ s, Event.stored ⟨frame, deed s, s⟩ = none) :
    Secures pre (heard frame deed x) x fun _ => Holding [] := by
  refine single (fun {s a t history} orderly _ done => ?_) fun orderly _ failed => ?_
  · have same := h.done done
    rw [heap_of_stores same]
    refine ⟨(orderly.of_stores same).more ?_, .same (quiet s), holding_nil⟩
    exact List.forall_mem_singleton.mpr (quiet s)
  · have same := h.failed failed
    exact ⟨orderly.of_stores same, heap_of_stores same⟩

/-- Where values are to be written out first, nothing changes. -/
theorem ahead {frame : Nat} {earlier : Session → List Event} (stable : pre.Stable)
    (writings : Writings frame earlier) (h : Secures pre found x post) :
    Secures pre (ahead earlier found) x post := by
  have quiet : ∀ s, ∀ e ∈ earlier s, e.stored = none ∧ e.session = s := by
    intro s e mem
    obtain ⟨values, rfl⟩ := writings s e mem
    exact ⟨rfl, rfl⟩
  have still : ∀ {s history}, Orderly history s → pre history s.heap →
      Orderly (history ++ earlier s) s ∧ pre (history ++ earlier s) s.heap := by
    intro s history orderly holds
    have none : storedIn (earlier s) = [] := storedIn_of_quiet fun e mem => (quiet s e mem).1
    exact ⟨orderly.more fun e mem => (quiet s e mem).1,
      stable orderly.sound holds (none ▸ .refl s.heap)⟩
  refine ⟨fun s history orderly holds => ?_, fun s a t history orderly holds done => ?_,
    fun s fault t history orderly holds failed => ?_,
    fun s history orderly holds before e after split => ?_⟩
  · obtain ⟨orderly', holds'⟩ := still orderly holds
    obtain ⟨h', evolution, ended⟩ := h.evolution orderly' holds'
    refine ⟨h', .trans (.still fun e mem => ?_) evolution, ended⟩
    obtain ⟨none, session⟩ := quiet s e mem
    exact ⟨none, congrArg Session.heap session⟩
  · obtain ⟨orderly', holds'⟩ := still orderly holds
    rw [Session.ahead, ← List.append_assoc]
    exact h.done orderly' holds' done
  · obtain ⟨orderly', holds'⟩ := still orderly holds
    rw [Session.ahead, ← List.append_assoc]
    exact h.failed orderly' holds' failed
  · rcases split_append split with ⟨rest, inside⟩ | ⟨rest, rfl, behind⟩
    · have here := quiet s
      rw [inside] at here
      rw [(here e (by simp)).2]
      exact orderly.more fun e mem => (here e (List.mem_append_left _ mem)).1
    · obtain ⟨orderly', holds'⟩ := still orderly holds
      rw [← List.append_assoc]
      exact h.within orderly' holds' rest e after behind

theorem keeps_note (rule : String) (location : Location) (fields : Details) :
    Keeps stores (note rule location fields) :=
  (Keeps.note rule location fields).map stores

theorem printed {frame : Nat} (stable : pre.Stable) (location : Location) (v : Value) :
    Secures pre (Session.ahead (writingPrint frame v) (heardPrint frame location v))
      (printing location v) fun v => Holding [v] := by
  have shown : Secures pre noEvents (get (·.heap.display v) >>= orLimit)
      fun _ : String => Holding [] :=
    lookUp fun _ _ _ => holding_nil
  have logged : ∀ text, Secures ((Holding []).both pre)
      (Session.heard frame (fun _ => .print location text)
        (note "PRINT" location [("output", .text text)]))
      (note "PRINT" location [("output", .text text)]) fun _ => Holding [] :=
    fun text => heard (keeps_note "PRINT" location [("output", .text text)]) fun _ => rfl
  have emitted : ∀ {pre : Assertion} (text : String), Secures pre noEvents
      (modify (fun s => { s with output := s.output.push text }) >>= fun _ =>
        Exec.value Value.nothing)
      fun v => Holding [v] := by
    intro pre text
    refine of_keeps (fun _ => rfl) fun orderly holds done => ?_
    cases done
    exact List.forall_mem_singleton.mpr (Heap.owns_of_plain fun _ => nofun)
  have put : Secures pre (heardPrint frame location v) (printing location v) fun v => Holding [v] :=
    shown.andThen stable fun text =>
      (logged text).andThenPlain ((stable_holding []).both stable) fun _ => emitted text
  exact put.ahead stable (writings_print frame v)

/-- The step of a call is logged, whether or not the call may nest. -/
theorem called {frame : Nat} {deed : Session → Deed} (stable : pre.Stable) (name : String)
    (location : Location) (args : List Value)
    (quiet : ∀ s, Event.stored ⟨frame, deed s, s⟩ = none) :
    Secures pre
      (Session.ahead (writingCall frame name args)
        (Session.heard frame deed (noteCall name location args)))
      (noteCall name location args) fun _ => Holding [] :=
  (heard ((keeps_noteCall name location args).map stores) quiet).ahead stable
    (writings_call frame name args)

theorem refused {frame : Nat} (stable : pre.Stable) (name : String) (location : Location)
    (args : List Value) :
    Secures pre
      (Session.ahead (writingCall frame name args) (heardRefused frame name location args))
      (noteCall name location args >>= fun _ => Exec.fail (.limit .calls) none)
      fun v => Holding [v] := by
  have logged : Secures pre
      (Session.ahead (writingCall frame name args) (heardRefused frame name location args))
      (noteCall name location args) fun _ => Holding [] :=
    called stable name location args fun _ => rfl
  exact logged.andThenPlain stable fun _ => fail _ _

/-- A call whose value is at hand has come to its end. -/
theorem resumed {frame : Nat} (v : Value) :
    Secures (Holding [v]) (heardResume frame v) (Exec.value v) fun v => Holding [v] := by
  refine single (fun orderly holds done => ?_) fun _ _ failed => nomatch failed
  cases done
  exact ⟨orderly.more (List.forall_mem_singleton.mpr rfl), .same rfl, holds⟩

theorem setPending {frame : Nat} {v : Value} {held : List Value} (atHand : AtHand held v) :
    Secures (Holding held) (heardReturn frame v) (setPending v) fun _ => Holding [] := by
  refine single (fun orderly holds done => ?_) fun orderly _ failed => nomatch failed
  cases done
  have owns : Heap.Owns _ v := atHand.elim (holds v) Heap.owns_of_plain
  exact ⟨(orderly.withPending owns).more (List.forall_mem_singleton.mpr rfl), .same rfl,
    holding_nil⟩

theorem store {frame : Nat} {held : List Value} (ref : Ref) {key v : Value} (mem : key ∈ held)
    (mem' : v ∈ held) :
    Secures (Holding held) (heardAssign frame ref key v) (store ref key v) fun _ => Holding [] := by
  refine single (fun {s _ t history} orderly holds done => ?_) fun orderly _ failed => ?_
  · rw [store_apply] at done
    split at done
    · rename_i pairs' stored
      cases done
      have evolves : s.heap.Evolves [ref] (s.heap.write ref pairs') := .write s.heap ref pairs'
      have owns := Heap.ownsPairs_of_store (orderly.sound ref) (holds key mem) (holds v mem') stored
      refine ⟨⟨orderly.sound.write owns ref, fun w binds => evolves.owns (orderly.bound w binds),
        evolves.owns orderly.pending, ?_⟩, .stored rfl (holds key mem) (holds v mem') stored,
        holding_nil⟩
      intro other
      rcases s.heap.read_write ref other pairs' with same | ⟨rfl, same⟩
      · rw [same]
        exact (orderly.keys other).evolves orderly.sound (orderly.sound other) evolves
      · rw [same]
        exact (orderly.keys other).put orderly.sound (orderly.sound other) (holds key mem) evolves
          ⟨rfl, rfl, rfl⟩ stored
    · cases done
  · rw [store_apply] at failed
    split at failed
    · cases failed
    · cases failed
      exact ⟨orderly, rfl⟩

/-! ### Array literals -/

theorem grown {frame : Nat} (array : Option Ref) (sofar : Pairs) (key v : Value) :
    Secures ((Holding [key, v]).both (Literal array sofar)) (heardBuild frame array sofar key v)
      (grown sofar key v) (Literal array) := by
  refine single (fun {s pairs t history} orderly holds done => ?_)
    fun {s fault t history} orderly _ failed => ?_
  · have stored : s.heap.store sofar key v = .ok pairs ∧ t = s := by
      rw [Session.grown, lookUp_apply] at done
      split at done
      · cases done
        exact ⟨‹_›, rfl⟩
      · cases done
    obtain ⟨stored, rfl⟩ := stored
    obtain ⟨held, owns, put⟩ := holds
    have ownsKey := held key (by simp)
    refine ⟨orderly.more (List.forall_mem_singleton.mpr rfl), .same rfl, ?_, fun ref becomes => ?_⟩
    · exact Heap.ownsPairs_of_store owns ownsKey (held v (by simp)) stored
    · exact (put ref becomes).put orderly.sound owns ownsKey (.refl _) ⟨becomes, rfl, rfl⟩ stored
  · have same : t = s := (Keeps.lookUp _).failed failed
    exact ⟨same ▸ orderly, congrArg Session.heap same⟩

/-- A new array has the keys of the literal, which have been put into that very array. -/
theorem newArray (items : Pairs) :
    Secures (fun history h => Literal (some h.fresh) items history h) noEvents (newArray items)
      fun v => Holding [v] := by
  refine plain (fun {s v t history} orderly holds done => ?_) fun orderly _ failed => nomatch failed
  cases done
  obtain ⟨owns, put⟩ := holds
  have evolves : s.heap.Evolves [] (s.heap.add items) := .add s.heap items
  have still : ∀ {ref pairs}, s.heap.OwnsPairs pairs → KeysPut history s.heap ref pairs →
      KeysPut history (s.heap.add items) ref pairs := by
    intro ref pairs owns put
    have kept : KeysPut (history ++ []) (s.heap.add items) ref pairs :=
      put.evolves orderly.sound owns evolves
    rwa [List.append_nil] at kept
  refine ⟨⟨orderly.sound.add owns, fun w binds => evolves.owns (orderly.bound w binds),
    evolves.owns orderly.pending, fun ref => ?_⟩, .add owns (.refl _), ?_⟩
  · show KeysPut history (s.heap.add items) ref ((s.heap.add items).read ref)
    by_cases new : ref = s.heap.fresh
    · rw [new, Heap.read_fresh]
      exact still owns (put _ rfl)
    · rw [Heap.read_add_of_ne new]
      exact still (orderly.sound ref) (orderly.keys ref)
  · rintro w mem ref same
    cases List.mem_singleton.mp mem
    cases same
    show s.heap.arrays.size < (s.heap.arrays.push items).size
    rw [Array.size_push]
    exact Nat.lt_succ_self _

/-- One more element, and those that come after it. -/
theorem element {frame : Nat} {array : Option Ref} {sofar : Pairs} {key v : Value}
    {f : Pairs → Exec Pairs} {later} (stable : pre.Stable)
    (ready : ∀ history h, pre history h → (Holding [key, v]).both (Literal array sofar) history h)
    (rest : ∀ sofar, Secures (Literal array sofar) (later sofar) (f sofar) (Literal array)) :
    Secures pre (inTurn (heardBuild frame array sofar key v) (Session.grown sofar key v) later)
      (Session.grown sofar key v >>= f) (Literal array) := by
  have put : Secures pre (heardBuild frame array sofar key v) (Session.grown sofar key v)
      (Literal array) := (grown array sofar key v).weaken ready
  exact put.andThen stable fun sofar => (rest sofar).weaken fun _ _ both => both.1

section Elements

variable {frame : Nat} {eval : Expr → Exec Value} {found : Expr → Session → List Event}
  (each : ∀ e, Secures (Holding []) (found e) (eval e) fun v => Holding [v])
include each

/-- The keys of a literal are put behind each other, whatever array it becomes. -/
theorem pairs (array : Option Ref) : ∀ (elements : List Element) (position : Nat) (sofar : Pairs),
    Secures (Literal array sofar) (historyOfPairs eval found frame array position sofar elements)
      (pairs eval position sofar elements) (Literal array)
  | [], _, sofar => value fun _ holds => holds
  | .plain element :: rest, position, sofar => by
      have stable := stable_literal array sofar
      refine (each element).anywhere.andThen stable ?_
      intro v
      rw [← bind_assoc]
      refine Secures.element ((stable_holding [v]).both stable) ?_ fun sofar =>
        pairs array rest _ sofar
      rintro history h ⟨held, literal⟩
      refine ⟨List.forall_mem_cons.mpr ⟨?_, held⟩, literal⟩
      exact Heap.owns_of_plain fun _ => nofun
  | .keyed _ key element :: rest, position, sofar => by
      have stable := stable_literal array sofar
      refine (each key).anywhere.andThen stable ?_
      intro k
      refine (each element).anywhere.andThen ((stable_holding [k]).both stable) ?_
      intro v
      rw [← bind_assoc]
      refine Secures.element ((stable_holding [v]).both ((stable_holding [k]).both stable)) ?_
        fun sofar => pairs array rest _ sofar
      rintro history h ⟨held, heldKey, literal⟩
      refine ⟨List.forall_mem_cons.mpr ⟨?_, held⟩, literal⟩
      exact heldKey k List.mem_cons_self

/-- A literal that is done is the next array, so its keys have been put into that one. -/
theorem array {held : List Value} (elements : List Element) :
    Secures (Holding held) (historyOfArray eval found frame elements)
      (Exec.pairs eval 0 [] elements >>= Exec.newArray) fun v => Holding [v] := by
  have built : ∀ array, Secures (Literal array [])
      (historyOfPairs eval found frame array 0 [] elements) (Exec.pairs eval 0 [] elements)
      (Literal array) := fun array => pairs each array elements 0 []
  have nothing : ∀ {array history h}, Literal array [] history h :=
    ⟨fun _ mem => absurd mem List.not_mem_nil, fun _ _ => .nil⟩
  -- where the elements are there, the literal becomes the next array
  have between : ∀ {s items u history}, Orderly history s →
      Exec.pairs eval 0 [] elements s = .done items u →
      Orderly (history ++ historyOfArray eval found frame elements s) u ∧
        Literal (some u.heap.fresh) items
          (history ++ historyOfArray eval found frame elements s) u.heap := by
    intro s items u history orderly here
    rw [historyOfArray, bind_apply, here]
    exact (built _).done orderly nothing here
  refine ⟨fun s history orderly _ => ?_, fun s v t history orderly _ done => ?_,
    fun s fault t history orderly _ failed => ?_,
    fun s history orderly _ => (built _).within orderly nothing⟩
  · obtain ⟨h, evolution, ended⟩ := (built _).evolution orderly nothing
    rw [bind_apply]
    cases here : Exec.pairs eval 0 [] elements s with
    | done items u =>
        rw [here] at ended
        obtain rfl := ended u rfl
        obtain ⟨orderly', literal⟩ := between orderly here
        obtain ⟨h', added, ended'⟩ := (newArray items).evolution orderly' literal
        have both := evolution.trans added
        rw [noEvents, List.append_nil] at both
        exact ⟨h', both, ended'⟩
    | failed fault u =>
        rw [here] at ended
        exact ⟨h, evolution, ended⟩
    | outOfFuel => exact ⟨h, evolution, fun t left => by cases left⟩
  · obtain ⟨items, u, here, made⟩ := bind_done done
    obtain ⟨orderly', literal⟩ := between orderly here
    have added := (newArray items).done orderly' literal made
    rwa [noEvents, List.append_nil] at added
  · rcases bind_failed failed with here | ⟨items, u, -, made⟩
    · exact (built _).failed orderly nothing here
    · cases made

end Elements

/-! ### Calls -/

/-- The body of a call begins with its arguments bound, and leaves its value pending. -/
theorem activate {name : String} {location : Location} {params : List Identifier}
    {args : List Value} {body : Exec Unit} {inside : Nat → Session → List Event}
    (h : ∀ callee, Secures (Holding []) (inside callee) body fun _ => Holding []) :
    Secures (Holding args) (historyInCall name location params args inside)
      (activate name location (Exec.declare params args >>= fun _ => body))
      fun v => Holding [v] := by
  have bound : ∀ callee, Secures (Holding args)
      (inTurn noEvents (Exec.declare params args) fun _ => inside callee)
      (Exec.declare params args >>= fun _ => body) fun _ => Holding [] := fun callee =>
    (declare params args).andThen (stable_holding args) fun _ => (h callee).anywhere
  have begun : ∀ {history s}, Orderly history s → Orderly history (activated name location s) :=
    fun orderly => orderly.entered.of_stores rfl
  refine ⟨fun s history orderly holds => ?_, fun s v t history orderly holds done => ?_,
    fun s fault t history orderly holds failed => ?_,
    fun s history orderly holds => (bound s.frames).within (begun orderly) holds⟩
  · obtain ⟨h', evolution, ended⟩ := (bound s.frames).evolution (begun orderly) holds
    refine ⟨h', evolution, fun t left => ?_⟩
    rcases left?_cases left with ⟨a, done⟩ | ⟨fault, failed⟩
    · obtain ⟨u, here, rfl⟩ := activate_done done
      rw [pop_heap]
      exact ended u (congrArg left? here)
    · obtain ⟨u, here, rfl⟩ := activate_failed failed
      exact ended u (congrArg left? here)
  · rw [activate_apply] at done
    split at done
    · rename_i u inner
      cases done
      obtain ⟨orderly', -⟩ := (bound s.frames).done (begun orderly) holds inner
      rw [pop_heap]
      exact ⟨orderly'.unwound.pop, List.forall_mem_singleton.mpr orderly'.pending⟩
    · cases done
    · cases done
  · obtain ⟨u, inner, rfl⟩ := activate_failed failed
    exact ((bound s.frames).failed (begun orderly) holds inner).unwound

theorem call {frame : Nat} {held : List Value} (name : String) (location : Location)
    (params : List Identifier) {args : List Value} {body : Exec Unit}
    {inside : Nat → Session → List Event} (given : ∀ v ∈ args, v ∈ held)
    (h : ∀ callee, Secures (Holding []) (inside callee) body fun _ => Holding []) :
    Secures (Holding held)
      (Session.ahead (writingCall frame name args)
        (historyOfCall frame name location params args body inside))
      (noteCall name location args >>= fun _ =>
        Exec.activate name location (Exec.declare params args >>= fun _ => body))
      fun v => Holding [v] := by
  have stable := stable_holding held
  have logged : Secures (Holding held)
      (Session.ahead (writingCall frame name args) (heardCall frame name location args))
      (noteCall name location args) fun _ => Holding [] :=
    called stable name location args fun _ => rfl
  have activated : Secures ((Holding []).both (Holding held))
      (historyInCall name location params args inside)
      (Exec.activate name location (Exec.declare params args >>= fun _ => body))
      fun v => Holding [v] := (activate h).weaken fun _ _ both v mem => both.2 v (given v mem)
  have resumed : ∀ v, Secures ((Holding [v]).both ((Holding []).both (Holding held)))
      (heardResume frame v) (Exec.value v) fun v => Holding [v] := fun v =>
    (resumed v).weaken fun _ _ both => both.1
  have whole := logged.andThen stable fun _ =>
    activated.andThen ((stable_holding []).both stable) resumed
  simp only [bind_value] at whole
  rw [historyOfCall, ahead_inTurn]
  exact whole

end Secures

/-- What is held is there, and what is given is there. -/
def Secured : Tracking :=
  fun _ _ held gives found x => Secures (Holding held) found x fun a => Holding (gives a)

theorem secured_andThen {frame : Nat} {held : List Value} {gives : α → List Value}
    {gives' : β → List Value} {x : Exec α} {f : α → Exec β} {first later}
    (h : Secured frame held gives first x)
    (h' : ∀ a, Secured frame (gives a ++ held) gives' (later a) (f a)) :
    Secured frame held gives' (inTurn first x later) (x >>= f) :=
  h.andThen (stable_holding held) fun a =>
    (h' a).weaken fun _ _ both => List.forall_mem_append.mpr both

theorem tracked_secures : Tracked Secured Secured where
  value a given := .value fun _ holds v mem => (given v mem).elim (holds v) Heap.owns_of_plain
  fail location _ := .fail _ location
  exhausted := .exhausted
  andThen := secured_andThen
  ofExpr secured := secured
  sequence := secured_andThen
  inScope h := h.inScope
  noteStatement {frame held} st := by
    have noted : Secures (Holding held) (heardStatement frame st) (noteStatement st)
        fun _ => Holding [] := .heard (Secures.keeps_note _ _ _) fun _ => rfl
    exact noted.ahead (stable_holding held) (writings_bindings frame)
  name id := .name id
  function location params body := .function location params body
  fetch ref key := .fetch ref key
  bind name v mem := .bind name mem
  setPending v atHand := .setPending atHand
  store ref key v mem mem' := .store ref mem mem'
  array elements each := .array (fun e => each e []) elements
  printed location v := .printed (stable_holding _) location v
  refused name location args := .refused (stable_holding _) name location args
  call name location params _ _ _ _ given h := .call name location params given h

end Session

end Mini
