import Mini.Scopes

/-!
# The shape of the scopes

How many scopes are open, which scope each of them stands in, and which one is the current one:
all that opening and closing scopes is about. Binding names changes none of it, and closing the
newest scope gives back the shape that there was before it was opened, whatever shape that was.
-/

namespace Mini

/-- The parents of the open scopes, in order, and the current scope. -/
structure Shape where
  parents : List (Option Nat)
  current : Option Nat
  deriving DecidableEq, Repr

namespace Scopes

def shape (s : Scopes) : Shape :=
  ⟨s.scopes.toList.map Scope.parent, s.current⟩

theorem size_of_shape {s t : Scopes} (same : t.shape = s.shape) :
    t.scopes.size = s.scopes.size := by
  have lengths := congrArg (fun shape => shape.parents.length) same
  simpa [shape] using lengths

theorem shape_enter (s : Scopes) :
    s.enter.shape = ⟨s.shape.parents ++ [s.current], some s.scopes.size⟩ := by
  simp [shape, enter]

/-- **Closing a scope undoes opening it**: scopes that have the shape of newly opened ones have
the shape from before when the newest is closed. -/
theorem shape_leave {s t : Scopes} (h : t.shape = s.enter.shape) : t.leave.shape = s.shape := by
  rw [shape_enter, shape, Shape.mk.injEq] at h
  obtain ⟨parents, current⟩ := h
  obtain ⟨before, newest, same⟩ : ∃ before newest, t.scopes.toList = before ++ [newest] := by
    rcases List.eq_nil_or_concat t.scopes.toList with none | ⟨before, newest, same⟩
    · rw [none] at parents
      exact absurd parents.symm (by simp)
    · exact ⟨before, newest, by rw [same, List.concat_eq_append]⟩
  rw [same, List.map_append] at parents
  obtain ⟨others, last⟩ := List.append_inj' parents rfl
  have last : newest.parent = s.current := (List.cons.inj last).1
  have back : t.scopes.back? = some newest := by
    rw [← Array.getLast?_toList, same, List.getLast?_concat]
  rw [leave, current, back]
  simp [shape, same, others, last]

theorem shape_putIn (s : Scopes) (handle : Nat) (name : String) (v : Value) :
    (s.putIn handle name v).shape = s.shape := by
  refine Shape.mk.injEq .. ▸ ⟨?_, rfl⟩
  refine List.ext_getElem? fun i => ?_
  simp only [putIn, List.getElem?_map, Array.getElem?_toList, Array.getElem?_modify]
  split
  · rw [Option.map_map]
    rfl
  · rfl

theorem shape_declare {s t : Scopes} {name : String} {v : Value}
    (h : s.declare name v = .ok t) : t.shape = s.shape := by
  unfold declare at h
  split at h
  · cases h
  · cases h
    exact shape_putIn s _ name v

theorem shape_bind {s t : Scopes} {name : String} {v : Value} (h : s.bind name v = .ok t) :
    t.shape = s.shape := by
  unfold bind at h
  split at h
  · cases h
    exact shape_putIn s _ name v
  · exact shape_declare h

/-- Nothing but no scopes has no shape. -/
theorem eq_empty_of_shape {s : Scopes} (h : s.shape = empty.shape) : s = empty := by
  obtain ⟨scopes, current⟩ := s
  rw [shape, shape, Shape.mk.injEq] at h
  obtain ⟨none, rfl⟩ := h
  have none : scopes = #[] := by simpa [empty] using none
  rw [none]
  rfl

end Scopes

end Mini
