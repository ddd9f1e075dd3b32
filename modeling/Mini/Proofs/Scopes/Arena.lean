import Mini.Proofs.Scopes.Shape
import Mini.Proofs.Scopes.Stack

/-!
# Scopes that are only operated on

Whatever is done with scopes that begin empty, in whatever order and whether it succeeds or not,
they are the lay-out of some stack of maps. So the handles say no more than the order in which the
scopes were opened, a name means what it means in the innermost scope that binds it, and a new
value goes there.

What a stretch of operations does to the scopes below it is told by the stretch alone: between the
opening of a scope and its closing, the scopes further out keep their names, and only get the
values that are given to names in them while no scope further in binds the same name.
-/

namespace Mini.Scopes

/-! ## Operations -/

/-- What can be done with scopes. A snapshot shows the values of some heap. -/
inductive Operation
  | enter
  | leave
  | bind (name : String) (v : Value)
  | declare (name : String) (v : Value)
  | lookup (name : String)
  | get (name : String)
  | snapshot (h : Heap)

/-- What is answered. -/
inductive Answer
  | done
  | handle (handle : Option Nat)
  | value (v : Value)
  | texts (texts : OrderedMap String String)
  | fault (cause : Cause)
  | limit (limit : Limit)

/-- The operation has failed. -/
def Answer.IsFailure : Answer → Prop
  | .fault _ | .limit _ => True
  | .done | .handle _ | .value _ | .texts _ => False

/-- The answer to an operation, and the scopes behind it. -/
def perform (s : Scopes) : Operation → Answer × Scopes
  | .enter => (.handle s.enter.current, s.enter)
  | .leave => (.done, s.leave)
  | .bind name v =>
      match s.bind name v with
      | .ok t => (.done, t)
      | .error cause => (.fault cause, s)
  | .declare name v =>
      match s.declare name v with
      | .ok t => (.done, t)
      | .error cause => (.fault cause, s)
  | .lookup name => (.handle (s.lookup name), s)
  | .get name =>
      match s.get name with
      | .ok v => (.value v, s)
      | .error cause => (.fault cause, s)
  | .snapshot h =>
      match s.snapshot h with
      | .ok texts => (.texts texts, s)
      | .error limit => (.limit limit, s)

/-- The scopes behind a sequence of operations. -/
def performAll (s : Scopes) (ops : List Operation) : Scopes :=
  ops.foldl (fun s op => (s.perform op).2) s

theorem performAll_cons (s : Scopes) (op : Operation) (ops : List Operation) :
    s.performAll (op :: ops) = (s.perform op).2.performAll ops :=
  rfl

theorem performAll_append (s : Scopes) (ops more : List Operation) :
    s.performAll (ops ++ more) = (s.performAll ops).performAll more :=
  List.foldl_append

/-! ## Stacks -/

theorem perform_ofStack (ms : Stack) (op : Operation) :
    ∃ ms', ((ofStack ms).perform op).2 = ofStack ms' := by
  cases op with
  | enter => exact ⟨_, enter_ofStack ms⟩
  | leave => exact ⟨_, leave_ofStack ms⟩
  | bind name v =>
      rw [perform, bind_ofStack]
      cases ms.bind name v with
      | none => exact ⟨ms, rfl⟩
      | some ms' => exact ⟨ms', rfl⟩
  | declare name v =>
      rw [perform, declare_ofStack]
      cases ms.declare name v with
      | none => exact ⟨ms, rfl⟩
      | some ms' => exact ⟨ms', rfl⟩
  | lookup name => exact ⟨ms, rfl⟩
  | get name =>
      rw [perform]
      cases (ofStack ms).get name <;> exact ⟨ms, rfl⟩
  | snapshot h =>
      rw [perform]
      cases (ofStack ms).snapshot h <;> exact ⟨ms, rfl⟩

/-- Operations on a stack lead to a stack. -/
theorem performAll_ofStack (ms : Stack) (ops : List Operation) :
    ∃ ms', (ofStack ms).performAll ops = ofStack ms' := by
  induction ops generalizing ms with
  | nil => exact ⟨ms, rfl⟩
  | cons op ops ih =>
      obtain ⟨ms', same⟩ := perform_ofStack ms op
      rw [performAll_cons, same]
      exact ih ms'

theorem exists_stack (ops : List Operation) : ∃ ms, empty.performAll ops = ofStack ms :=
  performAll_ofStack [] ops

/-! ## Handles -/

/-- The current scope is the last one, and every scope stands in the one before it. -/
structure Stacked (s : Scopes) : Prop where
  closed : s.current = none ↔ s.scopes.size = 0
  last : ∀ handle, s.current = some handle → s.scopes.size = handle + 1
  outermost : ∀ scope, s.scopes[0]? = some scope → scope.parent = none
  inner : ∀ handle scope, s.scopes[handle + 1]? = some scope → scope.parent = some handle

theorem stacked_ofStack (ms : Stack) : (ofStack ms).Stacked where
  closed := by
    rw [size_ofStack]
    cases ms <;> simp [ofStack, handleBefore]
  last handle current := by
    rw [size_ofStack]
    cases ms with
    | nil => cases current
    | cons m rest =>
        cases current
        rfl
  outermost _ there := parent_of_layOut there
  inner _ _ there := parent_of_layOut there

/-- Whether scopes are stacked is a question of their shape. -/
theorem Stacked.of_shape {s t : Scopes} (stacked : s.Stacked) (same : t.shape = s.shape) :
    t.Stacked := by
  have current : t.current = s.current := congrArg Shape.current same
  have size : t.scopes.size = s.scopes.size := size_of_shape same
  have parents : ∀ (handle : Nat) (scope : Scope), t.scopes[handle]? = some scope →
      ∃ scope' : Scope, s.scopes[handle]? = some scope' ∧ scope'.parent = scope.parent := by
    intro handle scope there
    have lists := congrArg (fun shape => shape.parents[handle]?) same
    have parent : s.scopes[handle]?.map Scope.parent = some scope.parent := by
      simpa [shape, there, eq_comm] using lists
    exact Option.map_eq_some_iff.mp parent
  refine ⟨?_, fun handle => ?_, fun scope there => ?_, fun handle scope there => ?_⟩
  · rw [current, size]
    exact stacked.closed
  · rw [current, size]
    exact stacked.last handle
  · obtain ⟨scope', there', parent⟩ := parents 0 scope there
    exact parent ▸ stacked.outermost scope' there'
  · obtain ⟨scope', there', parent⟩ := parents (handle + 1) scope there
    exact parent ▸ stacked.inner handle scope' there'

theorem exists_layOut (scopes : Array Scope)
    (parents : ∀ (i : Nat) (scope : Scope), scopes[i]? = some scope →
      scope.parent = handleBefore i) :
    ∃ ms, scopes = layOut ms := by
  induction size : scopes.size generalizing scopes with
  | zero => exact ⟨[], Array.eq_empty_of_size_eq_zero size⟩
  | succ n ih =>
      have notEmpty : scopes.size ≠ 0 := by omega
      obtain ⟨before, scope, rfl⟩ := Array.eq_push_of_size_ne_zero notEmpty
      have length : before.size = n := by simpa using size
      have outer : ∀ (i : Nat) (scope : Scope), before[i]? = some scope →
          scope.parent = handleBefore i := by
        intro i scope there
        obtain ⟨below, -⟩ := Array.getElem?_eq_some_iff.mp there
        refine parents i scope ?_
        rw [Array.getElem?_push, if_neg (Nat.ne_of_lt below), there]
      obtain ⟨ms, rfl⟩ := ih before outer length
      have parent := parents (layOut ms).size scope Array.getElem?_push_size
      rw [size_layOut] at parent
      exact ⟨scope.bindings :: ms, by rw [layOut, ← parent]⟩

/-- Stacked scopes are the lay-out of a stack. -/
theorem Stacked.exists_stack {s : Scopes} (stacked : s.Stacked) : ∃ ms, s = ofStack ms := by
  obtain ⟨scopes, current⟩ := s
  have parents : ∀ (i : Nat) (scope : Scope), scopes[i]? = some scope →
      scope.parent = handleBefore i := by
    intro i scope there
    cases i with
    | zero => exact stacked.outermost scope there
    | succ i => exact stacked.inner i scope there
  obtain ⟨ms, rfl⟩ := exists_layOut scopes parents
  refine ⟨ms, ?_⟩
  cases current with
  | none =>
      have none : ms.length = 0 := by simpa using stacked.closed.mp rfl
      simp [ofStack, none, handleBefore]
  | some handle =>
      have last : ms.length = handle + 1 := by simpa using stacked.last handle rfl
      simp [ofStack, last, handleBefore]

theorem Stacked.enter {s : Scopes} (stacked : s.Stacked) : s.enter.Stacked := by
  obtain ⟨ms, rfl⟩ := stacked.exists_stack
  exact enter_ofStack ms ▸ stacked_ofStack ([] :: ms)

/-! ## Names -/

/-- A scope binds a name. -/
def HoldsAt (s : Scopes) (handle : Nat) (name : String) : Prop :=
  name ∈ (s.bindings handle).keys

/-- A scope binds a name, and none further in does. -/
def IsInnermost (s : Scopes) (name : String) (handle : Nat) : Prop :=
  s.HoldsAt handle name ∧ ∀ other, handle < other → ¬s.HoldsAt other name

section Names

variable {s : Scopes} {name : String}

theorem exists_of_holdsAt {handle : Nat} (holds : s.HoldsAt handle name) :
    ∃ v, (s.bindings handle).find? name = some v := by
  cases found : (s.bindings handle).find? name with
  | some v => exact ⟨v, rfl⟩
  | none => exact absurd holds ((OrderedMap.find?_eq_none_iff _ _).mp found)

theorem holdsAt_ofStack_cons {m : OrderedMap String Value} {rest : Stack} {handle : Nat} :
    (ofStack (m :: rest)).HoldsAt handle name ↔
      handle = rest.length ∧ name ∈ m.keys ∨ (ofStack rest).HoldsAt handle name := by
  unfold HoldsAt
  rw [bindings_ofStack_cons]
  by_cases last : handle = rest.length
  · have beyond : (ofStack rest).bindings handle = [] := bindings_ofStack_of_le (by omega)
    rw [if_pos last, beyond]
    simp [last, OrderedMap.keys]
  · simp [last]

theorem lt_of_holdsAt {ms : Stack} {handle : Nat} (holds : (ofStack ms).HoldsAt handle name) :
    handle < ms.length := by
  refine Nat.lt_of_not_le fun beyond => ?_
  rw [HoldsAt, bindings_ofStack_of_le beyond] at holds
  cases holds

/-- The innermost scope of a name is where the stack holds it. -/
theorem isInnermost_ofStack_iff {ms : Stack} {handle : Nat} :
    (ofStack ms).IsInnermost name handle ↔ ms.holder? name = some handle := by
  induction ms with
  | nil => exact ⟨fun innermost => absurd (lt_of_holdsAt innermost.1) (Nat.not_lt_zero _), nofun⟩
  | cons m rest ih =>
      unfold Stack.holder? IsInnermost
      by_cases here : name ∈ m.keys
      · rw [if_pos ((m.isSome_find?_iff name).mpr here), Option.some_inj]
        constructor
        · rintro ⟨holds, further⟩
          have within := lt_of_holdsAt holds
          have last : ¬handle < rest.length := fun below =>
            further rest.length below (holdsAt_ofStack_cons.mpr (.inl ⟨rfl, here⟩))
          simp only [List.length_cons] at within
          omega
        · rintro rfl
          refine ⟨holdsAt_ofStack_cons.mpr (.inl ⟨rfl, here⟩), fun other further holds => ?_⟩
          have within := lt_of_holdsAt holds
          simp only [List.length_cons] at within
          omega
      · rw [if_neg fun found => here ((m.isSome_find?_iff name).mp found), ← ih, IsInnermost]
        simp [holdsAt_ofStack_cons, here]

theorem holder?_eq_none_iff {ms : Stack} :
    ms.holder? name = none ↔ ∀ handle, ¬(ofStack ms).HoldsAt handle name := by
  induction ms with
  | nil =>
      refine iff_of_true rfl ?_
      intro handle holds
      exact absurd (lt_of_holdsAt holds) (Nat.not_lt_zero _)
  | cons m rest ih =>
      unfold Stack.holder?
      by_cases here : name ∈ m.keys
      · rw [if_pos ((m.isSome_find?_iff name).mpr here)]
        constructor
        · intro none
          cases none
        · intro nowhere
          exact absurd (holdsAt_ofStack_cons.mpr (.inl ⟨rfl, here⟩)) (nowhere rest.length)
      · rw [if_neg fun found => here ((m.isSome_find?_iff name).mp found), ih]
        simp [holdsAt_ofStack_cons, here]

end Names

/-- How a name is looked up: the way up comes to an end by itself, and stops at the innermost scope
that binds the name. -/
structure Resolves (s : Scopes) (name : String) : Prop where
  ends : ∀ steps, s.scopes.size ≤ steps → s.findFrom name steps s.current = s.lookup name
  found : ∀ handle, s.lookup name = some handle ↔ s.IsInnermost name handle
  missing : s.lookup name = none ↔ ∀ handle, ¬s.HoldsAt handle name
  gets : ∀ handle, s.IsInnermost name handle →
    ∃ v, (s.bindings handle).find? name = some v ∧ s.get name = .ok v
  fails : (∃ cause, s.get name = .error cause) ↔ ∀ handle, ¬s.HoldsAt handle name

theorem resolves_ofStack (ms : Stack) (name : String) : (ofStack ms).Resolves name := by
  have found : ∀ handle,
      (ofStack ms).lookup name = some handle ↔ (ofStack ms).IsInnermost name handle := by
    intro handle
    rw [lookup_ofStack, isInnermost_ofStack_iff]
  have gets : ∀ handle, (ofStack ms).IsInnermost name handle →
      ∃ v, ((ofStack ms).bindings handle).find? name = some v ∧ (ofStack ms).get name = .ok v := by
    intro handle innermost
    obtain ⟨v, here⟩ := exists_of_holdsAt innermost.1
    exact ⟨v, here, get_of_lookup ((found handle).mpr innermost) here⟩
  have missing : (ofStack ms).lookup name = none ↔ ∀ handle, ¬(ofStack ms).HoldsAt handle name := by
    rw [lookup_ofStack, holder?_eq_none_iff]
  refine ⟨fun steps enough => ?_, found, missing, gets, ?_⟩
  · rw [size_ofStack] at enough
    rw [findFrom_ofStack name enough, lookup_ofStack]
  · rw [← missing]
    cases here : (ofStack ms).lookup name with
    | none =>
        refine iff_of_true ⟨.undefined name, ?_⟩ rfl
        rw [get, here]
        rfl
    | some handle =>
        obtain ⟨v, -, ok⟩ := gets handle ((found handle).mp here)
        refine iff_of_false ?_ (by simp)
        rintro ⟨cause, failed⟩
        rw [ok] at failed
        cases failed

/-! ## Values -/

/-- One binding is put into one scope, and nothing else changes. Behind it the name has the value in
that scope, all other names have there what they had, and the name keeps its place if the scope
bound it, or else comes last. -/
structure PutsAt (s : Scopes) (handle : Nat) (name : String) (v : Value) (t : Scopes) : Prop where
  shape : t.shape = s.shape
  here : t.bindings handle = (s.bindings handle).put name v
  value : (t.bindings handle).find? name = some v
  others : ∀ other, name ≠ other →
    (t.bindings handle).find? other = (s.bindings handle).find? other
  names : (t.bindings handle).keys =
    if name ∈ (s.bindings handle).keys then (s.bindings handle).keys
    else (s.bindings handle).keys ++ [name]
  elsewhere : ∀ other, other ≠ handle → t.bindings other = s.bindings other

theorem putsAt_putIn {s : Scopes} {handle : Nat} {scope : Scope} (name : String) (v : Value)
    (there : s.scopes[handle]? = some scope) : s.PutsAt handle name v (s.putIn handle name v) := by
  have here : (s.putIn handle name v).bindings handle = (s.bindings handle).put name v := by
    rw [bindings_of_getElem? (putIn_getElem?_self v there), bindings_of_getElem? there]
  refine ⟨shape_putIn s handle name v, here, ?_, fun other ne => ?_, ?_, fun other ne => ?_⟩
  · rw [here, OrderedMap.find?_put_self]
  · rw [here, OrderedMap.find?_put_of_ne _ _ ne]
  · rw [here, OrderedMap.keys_put]
  · rw [bindings, putIn_getElem?_of_ne v ne.symm, bindings]

/-- What is done with a value: it goes where the name is bound innermost, or makes a new binding in
the current scope, and fails where there is neither. A declaration always goes to the current
scope. -/
structure Places (s : Scopes) (name : String) (v : Value) : Prop where
  rebinds : ∀ handle, s.IsInnermost name handle →
    ∃ t, s.bind name v = .ok t ∧ s.PutsAt handle name v t
  creates : (∀ handle, ¬s.HoldsAt handle name) → ∀ last, s.current = some last →
    ∃ t, s.bind name v = .ok t ∧ s.PutsAt last name v t ∧
      t.bindings last = s.bindings last ++ [(name, v)]
  fails : (∃ cause, s.bind name v = .error cause) ↔ s.current = none
  declares : ∀ last, s.current = some last →
    ∃ t, s.declare name v = .ok t ∧ s.PutsAt last name v t
  undeclared : (∃ cause, s.declare name v = .error cause) ↔ s.current = none

theorem places_ofStack (ms : Stack) (name : String) (v : Value) : (ofStack ms).Places name v := by
  generalize same : ofStack ms = s
  have resolves : s.Resolves name := same ▸ resolves_ofStack ms name
  have inside : ∀ handle, s.current = some handle → ∃ scope, s.scopes[handle]? = some scope := by
    intro handle current
    have size : s.scopes.size = handle + 1 := (same ▸ stacked_ofStack ms : s.Stacked).last _ current
    exact ⟨_, Array.getElem?_eq_getElem (by omega)⟩
  have declares : ∀ last, s.current = some last →
      ∃ t, s.declare name v = .ok t ∧ s.PutsAt last name v t := by
    intro last current
    obtain ⟨scope, there⟩ := inside last current
    refine ⟨s.putIn last name v, ?_, putsAt_putIn name v there⟩
    rw [declare, current]
  have rebinds : ∀ handle, s.IsInnermost name handle →
      ∃ t, s.bind name v = .ok t ∧ s.PutsAt handle name v t := by
    intro handle innermost
    have found := (resolves.found handle).mpr innermost
    obtain ⟨scope, there, -⟩ := findFrom_spec found
    refine ⟨s.putIn handle name v, ?_, putsAt_putIn name v there⟩
    rw [bind, found]
  have undeclared : (∃ cause, s.declare name v = .error cause) ↔ s.current = none := by
    cases current : s.current with
    | none => exact iff_of_true ⟨.noScope, by rw [declare, current]⟩ rfl
    | some last =>
        obtain ⟨t, ok, -⟩ := declares last current
        rw [ok]
        exact iff_of_false (by rintro ⟨_, ⟨⟩⟩) (by simp)
  refine ⟨rebinds, fun nowhere last current => ?_, ?_, declares, undeclared⟩
  · obtain ⟨t, ok, puts⟩ := declares last current
    refine ⟨t, ?_, puts, ?_⟩
    · rw [bind, resolves.missing.mpr nowhere]
      exact ok
    · rw [puts.here]
      exact OrderedMap.put_of_not_mem (nowhere last) v
  · rw [← undeclared]
    cases found : s.lookup name with
    | none => rw [bind, found]
    | some handle =>
        -- a name that is bound stands in some scope, so there is a current one
        obtain ⟨t, ok, -⟩ := rebinds handle ((resolves.found handle).mp found)
        rw [undeclared, ok]
        refine iff_of_false (by rintro ⟨_, ⟨⟩⟩) fun none => ?_
        have size := (same ▸ stacked_ofStack ms : s.Stacked).closed.mp none
        rw [lookup, size] at found
        cases found

/-! ## Stretches of operations -/

/-- Every scope that is opened is closed again, and no other is. -/
inductive Balanced : List Operation → Prop
  | nil : Balanced []
  | plain {op : Operation} {ops : List Operation} :
      op ≠ .enter → op ≠ .leave → Balanced ops → Balanced (op :: ops)
  | nested {inside ops : List Operation} :
      Balanced inside → Balanced ops → Balanced (.enter :: (inside ++ .leave :: ops))

/-- Scopes with handles below a bound keep their names. A value that is new there was given to its
name by one of the operations, when no scope further in bound that name. -/
structure Spares (bound : Nat) (s : Scopes) (ops : List Operation) (t : Scopes) : Prop where
  names : ∀ handle, handle < bound → (t.bindings handle).keys = (s.bindings handle).keys
  values : ∀ handle, handle < bound → ∀ name v, (t.bindings handle).find? name = some v →
    (s.bindings handle).find? name = some v ∨
      ∃ before after, ops = before ++ .bind name v :: after ∧
        (s.performAll before).IsInnermost name handle

namespace Spares

variable {bound : Nat} {s t u : Scopes} {ops more : List Operation}

/-- Where the bindings below the bound are the same there is nothing to tell. -/
theorem of_same (same : ∀ handle, handle < bound → t.bindings handle = s.bindings handle) :
    Spares bound s ops t where
  names handle below := by rw [same handle below]
  values handle below name v found := by
    rw [same handle below] at found
    exact .inl found

theorem mono {less : Nat} (h : Spares bound s ops t) (le : less ≤ bound) : Spares less s ops t :=
  ⟨fun handle below => h.names handle (Nat.lt_of_lt_of_le below le),
    fun handle below => h.values handle (Nat.lt_of_lt_of_le below le)⟩

theorem trans (first : Spares bound s ops (s.performAll ops))
    (later : Spares bound (s.performAll ops) more u) : Spares bound s (ops ++ more) u := by
  refine ⟨fun handle below => ?_, fun handle below name v found => ?_⟩
  · rw [later.names handle below, first.names handle below]
  · rcases later.values handle below name v found with found | ⟨before, after, rfl, innermost⟩
    · refine (first.values handle below name v found).imp_right ?_
      rintro ⟨before, after, same, innermost⟩
      exact ⟨before, after ++ more, by simp [same], innermost⟩
    · refine .inr ⟨ops ++ before, after, by simp, ?_⟩
      rwa [performAll_append]

/-- A binding that is put into a scope. -/
theorem of_putsAt {handle : Nat} {name : String} {v : Value} (puts : s.PutsAt handle name v t)
    (told : handle < bound → ops = [.bind name v] ∧ s.IsInnermost name handle) :
    Spares bound s ops t := by
  refine ⟨fun other below => ?_, fun other below name' v' found => ?_⟩
  · by_cases same : other = handle
    · subst same
      have holds : name ∈ (s.bindings other).keys := (told below).2.1
      rw [puts.names, if_pos holds]
    · rw [puts.elsewhere other same]
  · by_cases same : other = handle
    · subst same
      obtain ⟨rfl, innermost⟩ := told below
      by_cases named : name = name'
      · subst named
        rw [puts.value] at found
        cases found
        exact .inr ⟨[], [], rfl, innermost⟩
      · rw [puts.others name' named] at found
        exact .inl found
    · rw [puts.elsewhere other same] at found
      exact .inl found

end Spares

/-- An operation that neither opens nor closes a scope. -/
theorem spares_perform {op : Operation} {ms : Stack} {last : Nat} (opens : op ≠ .enter)
    (closes : op ≠ .leave) (current : (ofStack ms).current = some last) :
    ((ofStack ms).perform op).2.shape = (ofStack ms).shape ∧
      Spares last (ofStack ms) [op] ((ofStack ms).perform op).2 := by
  cases op with
  | enter => exact absurd rfl opens
  | leave => exact absurd rfl closes
  | bind name v =>
      have places := places_ofStack ms name v
      have resolves := resolves_ofStack ms name
      rw [perform]
      cases found : (ofStack ms).lookup name with
      | some handle =>
          have innermost := (resolves.found handle).mp found
          obtain ⟨t, ok, puts⟩ := places.rebinds handle innermost
          rw [ok]
          exact ⟨puts.shape, .of_putsAt puts fun _ => ⟨rfl, innermost⟩⟩
      | none =>
          obtain ⟨t, ok, puts, -⟩ := places.creates (resolves.missing.mp found) last current
          rw [ok]
          exact ⟨puts.shape, .of_putsAt puts fun below => absurd below (Nat.lt_irrefl _)⟩
  | declare name v =>
      obtain ⟨t, ok, puts⟩ := (places_ofStack ms name v).declares last current
      rw [perform, ok]
      exact ⟨puts.shape, .of_putsAt puts fun below => absurd below (Nat.lt_irrefl _)⟩
  | lookup name => exact ⟨rfl, .of_same fun _ _ => rfl⟩
  | get name =>
      rw [perform]
      cases (ofStack ms).get name <;> exact ⟨rfl, .of_same fun _ _ => rfl⟩
  | snapshot h =>
      rw [perform]
      cases (ofStack ms).snapshot h <;> exact ⟨rfl, .of_same fun _ _ => rfl⟩

theorem bindings_enter (ms : Stack) {handle : Nat} (below : handle < ms.length) :
    (ofStack ms).enter.bindings handle = (ofStack ms).bindings handle := by
  rw [enter_ofStack, bindings_ofStack_cons, if_neg (Nat.ne_of_lt below)]

theorem bindings_leave (ms : Stack) {handle : Nat} (below : handle + 1 < ms.length) :
    (ofStack ms).leave.bindings handle = (ofStack ms).bindings handle := by
  cases ms with
  | nil => rfl
  | cons m rest =>
      have other : handle ≠ rest.length := by simp at below; omega
      rw [leave_ofStack, bindings_ofStack_cons, if_neg other, List.tail_cons]

/-- A scope around a stretch of operations, which spares all scopes outside. -/
theorem spares_scope {ms : Stack} {inside : List Operation}
    (shape : ((ofStack ms).enter.performAll inside).shape = (ofStack ms).enter.shape)
    (spares : Spares ms.length (ofStack ms).enter inside ((ofStack ms).enter.performAll inside)) :
    ((ofStack ms).performAll (.enter :: (inside ++ [.leave]))).shape = (ofStack ms).shape ∧
      Spares ms.length (ofStack ms) (.enter :: (inside ++ [.leave]))
        ((ofStack ms).performAll (.enter :: (inside ++ [.leave]))) := by
  have opened : Spares ms.length (ofStack ms) [.enter] (ofStack ms).enter :=
    .of_same fun _ below => bindings_enter ms below
  have ends : (ofStack ms).performAll (.enter :: (inside ++ [.leave])) =
      ((ofStack ms).enter.performAll inside).leave :=
    performAll_append (ofStack ms).enter inside [.leave]
  rw [ends]
  refine ⟨shape_leave shape, (opened.trans spares).trans ?_⟩
  obtain ⟨ms', same⟩ := performAll_ofStack ([] :: ms) inside
  rw [← enter_ofStack] at same
  have length : ms'.length = ms.length + 1 := by
    rw [same, enter_ofStack] at shape
    simpa using size_of_shape shape
  have behind : (ofStack ms).performAll ([.enter] ++ inside) = ofStack ms' := same
  rw [behind, same]
  exact .of_same fun _ below => bindings_leave ms' (by omega)

/-- Operations that close what they open spare all scopes outside the current one. -/
theorem spares_balanced {ops : List Operation} (balanced : Balanced ops) {ms : Stack} {last : Nat}
    (current : (ofStack ms).current = some last) :
    ((ofStack ms).performAll ops).shape = (ofStack ms).shape ∧
      Spares last (ofStack ms) ops ((ofStack ms).performAll ops) := by
  induction balanced generalizing ms last with
  | nil => exact ⟨rfl, .of_same fun _ _ => rfl⟩
  | @plain op ops opens closes _ ih =>
      obtain ⟨shape, spares⟩ := spares_perform opens closes current
      obtain ⟨ms', same⟩ := perform_ofStack ms op
      rw [same] at shape spares
      obtain ⟨shape', spares'⟩ := ih ((congrArg Shape.current shape).trans current)
      rw [performAll_cons, same]
      refine ⟨shape'.trans shape, ?_⟩
      have behind : (ofStack ms).performAll [op] = ofStack ms' := same
      rw [← behind] at spares spares' ⊢
      exact spares.trans spares'
  | @nested inside ops _ _ ih ih' =>
      have size : ms.length = last + 1 := by
        have last := (stacked_ofStack ms).last last current
        rwa [size_ofStack] at last
      have opened : (ofStack ([] :: ms)).current = some ms.length := rfl
      have scope := ih opened
      rw [← enter_ofStack] at scope
      obtain ⟨shape, spares⟩ := spares_scope scope.1 scope.2
      obtain ⟨ms', same⟩ := performAll_ofStack ms (.enter :: (inside ++ [.leave]))
      have split : Operation.enter :: (inside ++ .leave :: ops) =
          (.enter :: (inside ++ [.leave])) ++ ops := by simp
      rw [split, performAll_append]
      have spares : Spares last (ofStack ms) _ _ := spares.mono (by omega)
      rw [same] at shape
      obtain ⟨shape', spares'⟩ := ih' ((congrArg Shape.current shape).trans current)
      rw [← same] at shape' spares'
      exact ⟨shape'.trans (same ▸ shape), spares.trans spares'⟩

/-- **Scopes are a stack of maps**, whatever operations have been carried out on new ones. The
current scope is the last one, each stands in the one before it, every name is looked up and given
values in the innermost scope that binds it, and an operation that fails changes nothing. A scope
that is opened and closed around a balanced stretch of operations leaves all others with their
parents and names, and a value in them is new only if it was given to its name where no scope
further in bound that. -/
theorem arena_is_stack (ops : List Operation) :
    let s := empty.performAll ops
    s.Stacked ∧ (∀ name, s.Resolves name) ∧ (∀ name v, s.Places name v) ∧
      (∀ op, (s.perform op).1.IsFailure → (s.perform op).2 = s) ∧
      ∀ inside, Balanced inside →
        let t := s.performAll (.enter :: (inside ++ [.leave]))
        t.shape = s.shape ∧ Spares s.scopes.size s (.enter :: (inside ++ [.leave])) t := by
  obtain ⟨ms, same⟩ := exists_stack ops
  intro s
  have same : s = ofStack ms := same
  clear_value s
  subst same
  refine ⟨stacked_ofStack ms, resolves_ofStack ms, places_ofStack ms, ?_, fun inside balanced => ?_⟩
  · intro op failed
    cases op with
    | enter | leave | lookup => cases failed
    | bind name v =>
        rw [perform] at failed ⊢
        cases ended : (ofStack ms).bind name v with
        | ok t => rw [ended] at failed; cases failed
        | error cause => rfl
    | declare name v =>
        rw [perform] at failed ⊢
        cases ended : (ofStack ms).declare name v with
        | ok t => rw [ended] at failed; cases failed
        | error cause => rfl
    | get name =>
        rw [perform]
        cases (ofStack ms).get name <;> rfl
    | snapshot h =>
        rw [perform]
        cases (ofStack ms).snapshot h <;> rfl
  · have opened : (ofStack ([] :: ms)).current = some ms.length := rfl
    have scope := spares_balanced balanced opened
    rw [← enter_ofStack] at scope
    rw [size_ofStack]
    exact spares_scope scope.1 scope.2

/-- Operations on new scopes: a closing and a binding to no avail, then one name in two scopes. -/
def shadowing : List Operation :=
  [.leave, .bind "x" .nothing, .enter, .bind "x" (.number 1), .enter, .declare "x" (.number 2)]

/-- Behind these, a name that nothing binds cannot be got. One more scope is opened and closed, with
a binding of each kind in between: to the inner `x`, to a name of its own, and to one that a scope
further in shadows. -/
theorem arena_is_stack_shadowing :
    let s := empty.performAll shadowing
    let inside : List Operation := [.bind "x" (.number 3), .bind "y" (.number 4), .enter,
      .declare "y" .nothing, .bind "y" (.number 5), .leave, .get "z"]
    let t := s.performAll (.enter :: (inside ++ [.leave]))
    (s.perform (.get "z")).1.IsFailure ∧ (s.perform (.get "z")).2 = s ∧ Balanced inside ∧
      t.shape = s.shape ∧ Spares s.scopes.size s (.enter :: (inside ++ [.leave])) t := by
  obtain ⟨-, -, -, unchanged, scope⟩ := arena_is_stack shadowing
  intro s inside t
  have failed : (s.perform (.get "z")).1.IsFailure := trivial
  have inner : Balanced [.declare "y" .nothing, .bind "y" (.number 5)] :=
    .plain nofun nofun (.plain nofun nofun .nil)
  have balanced : Balanced inside :=
    .plain nofun nofun (.plain nofun nofun (inner.nested (.plain nofun nofun .nil)))
  exact ⟨failed, unchanged (.get "z") failed, balanced, scope inside balanced⟩

end Mini.Scopes
