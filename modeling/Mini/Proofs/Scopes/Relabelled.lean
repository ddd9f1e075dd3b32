import Mini.Proofs.Heap.Relabelled
import Mini.Scopes

/-!
# Scopes with new labels

New names are looked up and bound as the old ones were, because different names stay different.
-/

namespace Mini.Relabelling

open Scopes

variable (ρ : Relabelling)

def bindings (m : OrderedMap String Value) : OrderedMap String Value :=
  m.map fun entry => (ρ.name entry.1, ρ.value entry.2)

def scope (s : Scope) : Scope :=
  ⟨s.parent, ρ.bindings s.bindings⟩

/-- Scopes with new names and values. -/
def scopes (s : Scopes) : Scopes :=
  ⟨s.scopes.map ρ.scope, s.current⟩

theorem find?_bindings (m : OrderedMap String Value) (name : String) :
    (ρ.bindings m).find? (ρ.name name) = (m.find? name).map ρ.value :=
  OrderedMap.find?_map (fun _ _ same => ρ.name_injective same) ρ.value m name

theorem put_bindings (m : OrderedMap String Value) (name : String) (v : Value) :
    (ρ.bindings m).put (ρ.name name) (ρ.value v) = ρ.bindings (m.put name v) :=
  OrderedMap.put_map (fun _ _ same => ρ.name_injective same) ρ.value m name v

/-! ## Looking up -/

theorem bindings_scopes (s : Scopes) (handle : Nat) :
    (ρ.scopes s).bindings handle = ρ.bindings (s.bindings handle) := by
  rw [Scopes.bindings, Scopes.bindings, scopes, Array.getElem?_map]
  cases s.scopes[handle]? <;> rfl

theorem findFrom_scopes (s : Scopes) (name : String) (steps : Nat) (start : Option Nat) :
    (ρ.scopes s).findFrom (ρ.name name) steps start = s.findFrom name steps start := by
  induction steps generalizing start with
  | zero => rfl
  | succ steps ih =>
      cases start with
      | none => rfl
      | some handle =>
          rw [Scopes.findFrom, Scopes.findFrom, scopes, Array.getElem?_map]
          cases s.scopes[handle]? with
          | none => rfl
          | some here =>
              dsimp only [Option.map_some, scope]
              rw [find?_bindings, Option.isSome_map]
              rw [← ih here.parent]
              rfl

theorem lookup_scopes (s : Scopes) (name : String) :
    (ρ.scopes s).lookup (ρ.name name) = s.lookup name := by
  have size : (ρ.scopes s).scopes.size = s.scopes.size := Array.size_map
  rw [Scopes.lookup, Scopes.lookup, size, findFrom_scopes]
  rfl

/-- The only cause that says a name. -/
def cause : Cause → Cause
  | .undefined name => .undefined (ρ.name name)
  | other => other

/-- What is under a name is what was under it with new labels. -/
theorem get_scopes (s : Scopes) (name : String) :
    (ρ.scopes s).get (ρ.name name) =
      match s.get name with
      | .ok v => .ok (ρ.value v)
      | .error missing => .error (ρ.cause missing) := by
  rw [Scopes.get, Scopes.get, lookup_scopes]
  cases s.lookup name with
  | none => rfl
  | some handle =>
      simp only [Option.bind_some, bindings_scopes, find?_bindings]
      cases (s.bindings handle).find? name <;> rfl

/-! ## Binding -/

theorem enter_scopes (s : Scopes) : (ρ.scopes s).enter = ρ.scopes s.enter := by
  simp [Scopes.enter, scopes, scope, bindings]

theorem leave_scopes (s : Scopes) : (ρ.scopes s).leave = ρ.scopes s.leave := by
  obtain ⟨all, current⟩ := s
  cases current with
  | none => rfl
  | some handle =>
      have outer : (all.map ρ.scope).back?.bind Scope.parent = all.back?.bind Scope.parent := by
        rw [Array.back?_map]
        cases all.back? <;> rfl
      show Scopes.mk (all.map ρ.scope).pop ((all.map ρ.scope).back?.bind Scope.parent) =
        Scopes.mk (all.pop.map ρ.scope) (all.back?.bind Scope.parent)
      rw [outer, Array.map_pop]

theorem putIn_scopes (s : Scopes) (handle : Nat) (name : String) (v : Value) :
    (ρ.scopes s).putIn handle (ρ.name name) (ρ.value v) = ρ.scopes (s.putIn handle name v) := by
  refine Scopes.mk.injEq .. ▸ ⟨Array.ext_getElem? fun i => ?_, rfl⟩
  simp only [scopes, Array.getElem?_modify, Array.getElem?_map, putIn]
  split
  · cases s.scopes[i]? with
    | none => rfl
    | some here => simp [scope, put_bindings]
  · rfl

theorem declare_scopes (s : Scopes) (name : String) (v : Value) :
    (ρ.scopes s).declare (ρ.name name) (ρ.value v) = (s.declare name v).map ρ.scopes := by
  obtain ⟨all, current⟩ := s
  cases current with
  | none => rfl
  | some handle => exact congrArg Except.ok (ρ.putIn_scopes _ handle name v)

theorem bind_scopes (s : Scopes) (name : String) (v : Value) :
    (ρ.scopes s).bind (ρ.name name) (ρ.value v) = (s.bind name v).map ρ.scopes := by
  rw [Scopes.bind, Scopes.bind, lookup_scopes]
  cases s.lookup name with
  | none => exact ρ.declare_scopes s name v
  | some handle => exact congrArg Except.ok (ρ.putIn_scopes s handle name v)

/-! ## Snapshots -/

theorem snapshotOf_bindings {ρ : Relabelling} {h h' : Heap} (carries : ρ.Carries h h')
    (m : OrderedMap String Value) :
    snapshotOf h' (ρ.bindings m) =
      (snapshotOf h m).map (List.map fun entry => (ρ.name entry.1, entry.2)) := by
  induction m with
  | nil => rfl
  | cons entry rest ih =>
      obtain ⟨name, v⟩ := entry
      show snapshotOf h' ((ρ.name name, ρ.value v) :: ρ.bindings rest) = _
      have text : snapshotText h' (ρ.value v) = snapshotText h v := by
        rw [snapshotText, snapshotText, carries.display, kind_value]
      rw [snapshotOf, snapshotOf, text, ih]
      cases snapshotText h v with
      | error limit => rfl
      | ok text => cases snapshotOf h rest <;> rfl

theorem snapshot_scopes {ρ : Relabelling} {h h' : Heap} (carries : ρ.Carries h h') (s : Scopes) :
    (ρ.scopes s).snapshot h' =
      (s.snapshot h).map (List.map fun entry => (ρ.name entry.1, entry.2)) := by
  obtain ⟨all, current⟩ := s
  cases current with
  | none => rfl
  | some handle =>
      show snapshotOf h' ((ρ.scopes _).bindings handle) = _
      rw [bindings_scopes]
      exact snapshotOf_bindings carries _

end Mini.Relabelling
