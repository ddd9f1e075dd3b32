import Mini.Scopes

/-!
# Names that are bound

A name that has just been given a value has it: it is looked up where it was put.
-/

namespace Mini.Scopes

variable {s : Scopes} {name : String}

theorem bindings_of_getElem? {handle : Nat} {scope : Scope} (h : s.scopes[handle]? = some scope) :
    s.bindings handle = scope.bindings := by
  rw [bindings, h]
  rfl

theorem putIn_getElem?_self {handle : Nat} {scope : Scope} (v : Value)
    (h : s.scopes[handle]? = some scope) :
    (s.putIn handle name v).scopes[handle]? =
      some { scope with bindings := scope.bindings.put name v } := by
  rw [putIn, Array.getElem?_modify, if_pos rfl, h]
  rfl

theorem putIn_getElem?_of_ne {handle other : Nat} (v : Value) (ne : handle ≠ other) :
    (s.putIn handle name v).scopes[other]? = s.scopes[other]? := by
  rw [putIn, Array.getElem?_modify, if_neg ne]

/-! ## The scope that binds a name -/

/-- One step on the way up. -/
theorem findFrom_succ (steps handle : Nat) :
    s.findFrom name (steps + 1) (some handle) =
      match s.scopes[handle]? with
      | none => none
      | some scope =>
          if (scope.bindings.find? name).isSome then some handle
          else s.findFrom name steps scope.parent :=
  rfl

theorem findFrom_spec {steps found : Nat} {start : Option Nat}
    (h : s.findFrom name steps start = some found) :
    ∃ scope, s.scopes[found]? = some scope ∧ (scope.bindings.find? name).isSome = true := by
  induction steps generalizing start with
  | zero => cases h
  | succ steps ih =>
      cases start with
      | none => cases h
      | some handle =>
          rw [findFrom_succ] at h
          cases here : s.scopes[handle]? with
          | none =>
              rw [here] at h
              cases h
          | some scope =>
              rw [here] at h
              dsimp only at h
              by_cases bound : (scope.bindings.find? name).isSome = true
              · rw [if_pos bound] at h
                cases h
                exact ⟨scope, here, bound⟩
              · rw [if_neg bound] at h
                exact ih h

/-- A name is found in the same scope after it was given another value there. -/
theorem findFrom_putIn {steps found : Nat} {start : Option Nat} (v : Value)
    (h : s.findFrom name steps start = some found) :
    (s.putIn found name v).findFrom name steps start = some found := by
  obtain ⟨_, there, has⟩ := findFrom_spec h
  induction steps generalizing start with
  | zero => cases h
  | succ steps ih =>
      cases start with
      | none => cases h
      | some handle =>
          rw [findFrom_succ] at h ⊢
          -- the scopes on the way did not bind the name, so the new value is not in them
          by_cases same : found = handle
          · subst same
            rw [putIn_getElem?_self v there]
            dsimp only
            rw [OrderedMap.find?_put_self]
            rfl
          rw [putIn_getElem?_of_ne v same]
          cases here : s.scopes[handle]? with
          | none =>
              rw [here] at h
              cases h
          | some scope =>
              rw [here] at h
              dsimp only at h ⊢
              by_cases bound : (scope.bindings.find? name).isSome = true
              · rw [if_pos bound] at h
                cases h
                exact absurd rfl same
              · rw [if_neg bound] at h ⊢
                exact ih h

theorem get_of_lookup {handle : Nat} {v : Value} (found : s.lookup name = some handle)
    (has : (s.bindings handle).find? name = some v) : s.get name = .ok v := by
  rw [get, found]
  dsimp only [Option.bind_some]
  rw [has]

/-- A name has the value that was put where it is found. -/
theorem get_putIn {handle : Nat} {scope : Scope} {v : Value} (there : s.scopes[handle]? = some scope)
    (found : (s.putIn handle name v).lookup name = some handle) :
    (s.putIn handle name v).get name = .ok v := by
  refine get_of_lookup found ?_
  rw [bindings_of_getElem? (putIn_getElem?_self v there)]
  exact OrderedMap.find?_put_self _ _ _

theorem lookup_putIn_current {handle : Nat} {scope : Scope} (v : Value)
    (current : s.current = some handle) (there : s.scopes[handle]? = some scope) :
    (s.putIn handle name v).lookup name = some handle := by
  obtain ⟨inside, -⟩ := Array.getElem?_eq_some_iff.mp there
  obtain ⟨steps, size⟩ : ∃ steps, s.scopes.size = steps + 1 := ⟨s.scopes.size - 1, by omega⟩
  have same : (s.putIn handle name v).scopes.size = steps + 1 := by
    rw [putIn, Array.size_modify, size]
  have here : (s.putIn handle name v).current = some handle := current
  rw [lookup, same, here, findFrom_succ, putIn_getElem?_self v there]
  dsimp only
  rw [OrderedMap.find?_put_self]
  rfl

/-- **What was given to a name is its value**, wherever the name was bound before. -/
theorem get_bind {handle : Nat} {scope : Scope} (current : s.current = some handle)
    (there : s.scopes[handle]? = some scope) (v : Value) :
    ∃ t, s.bind name v = .ok t ∧ t.get name = .ok v := by
  rw [bind]
  cases found : s.lookup name with
  | some outer =>
      obtain ⟨scope', there', -⟩ := findFrom_spec found
      have still : (s.putIn outer name v).lookup name = some outer := by
        have size : (s.putIn outer name v).scopes.size = s.scopes.size := Array.size_modify
        rw [lookup, size]
        exact findFrom_putIn v found
      exact ⟨_, rfl, get_putIn there' still⟩
  | none =>
      refine ⟨s.putIn handle name v, ?_, get_putIn there (lookup_putIn_current v current there)⟩
      show s.declare name v = _
      rw [declare, current]

/-! ## Values that are bound -/

/-- Some scope binds a name to the value. -/
def Binds (s : Scopes) (v : Value) : Prop :=
  ∃ (handle : Nat) (scope : Scope),
    s.scopes[handle]? = some scope ∧ v ∈ scope.bindings.map Prod.snd

theorem binds_of_enter {v : Value} (binds : s.enter.Binds v) : s.Binds v := by
  obtain ⟨handle, scope, there, mem⟩ := binds
  rw [enter, Array.getElem?_push] at there
  split at there
  · cases there
    cases mem
  · exact ⟨handle, scope, there, mem⟩

theorem binds_of_leave {v : Value} (binds : s.leave.Binds v) : s.Binds v := by
  obtain ⟨handle, scope, there, mem⟩ := binds
  unfold leave at there
  split at there
  · exact ⟨handle, scope, there, mem⟩
  · rw [Array.getElem?_pop] at there
    split at there
    · exact ⟨handle, scope, there, mem⟩
    · cases there

theorem binds_of_putIn {handle : Nat} {v w : Value} (binds : (s.putIn handle name w).Binds v) :
    s.Binds v ∨ v = w := by
  obtain ⟨other, scope, there, mem⟩ := binds
  by_cases same : handle = other
  · subst same
    cases before : s.scopes[handle]? with
    | none =>
        rw [putIn, Array.getElem?_modify, if_pos rfl, before] at there
        cases there
    | some old =>
        rw [putIn_getElem?_self w before] at there
        cases there
        exact (OrderedMap.mem_values_put mem).imp_left fun mem => ⟨handle, old, before, mem⟩
  · rw [putIn_getElem?_of_ne w same] at there
    exact .inl ⟨other, scope, there, mem⟩

theorem binds_of_declare {t : Scopes} {v w : Value} (declared : s.declare name w = .ok t)
    (binds : t.Binds v) : s.Binds v ∨ v = w := by
  unfold declare at declared
  split at declared
  · cases declared
  · cases declared
    exact binds_of_putIn binds

theorem binds_of_bind {t : Scopes} {v w : Value} (bound : s.bind name w = .ok t)
    (binds : t.Binds v) : s.Binds v ∨ v = w := by
  unfold bind at bound
  split at bound
  · cases bound
    exact binds_of_putIn binds
  · exact binds_of_declare bound binds

/-- The value of a name is bound. -/
theorem binds_of_get {v : Value} (got : s.get name = .ok v) : s.Binds v := by
  unfold get at got
  split at got
  · rename_i found
    cases got
    obtain ⟨handle, -, has⟩ := Option.bind_eq_some_iff.mp found
    unfold bindings at has
    cases there : s.scopes[handle]? with
    | none =>
        rw [there] at has
        cases has
    | some scope =>
        rw [there] at has
        exact ⟨handle, scope, there, OrderedMap.mem_values_of_find? has⟩
  · cases got

/-! ## A scope that was just opened -/

theorem enter_getElem? (s : Scopes) :
    s.enter.scopes[s.scopes.size]? = some ⟨s.current, []⟩ := by
  rw [enter, Array.getElem?_push_size]

theorem snapshot_enter (s : Scopes) (h : Heap) : s.enter.snapshot h = .ok [] := by
  show snapshotOf h (s.enter.bindings s.scopes.size) = _
  rw [bindings_of_getElem? (enter_getElem? s)]
  rfl

end Mini.Scopes
