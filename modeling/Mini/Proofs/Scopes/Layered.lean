import Mini.Proofs.Heap.Rescoped
import Mini.Proofs.Scopes.Stack

/-!
# Stacks in layers

Two stacks of maps that fall into layers, so that in each layer the same names are found. A layer
may have more maps in one stack than in the other: a scope that was only opened in one of them then
holds names that stand one scope further out in the other. Since a name is looked up, and given a
value, layer by layer, nothing that is done with names tells the two stacks apart.
-/

namespace Mini

namespace Stack

variable {name : String} {v : Value}

/-! ## Stacks on top of each other -/

theorem find?_append (ms rest : Stack) :
    (ms ++ rest).find? name = (ms.find? name).or (rest.find? name) := by
  induction ms with
  | nil => rfl
  | cons m ms ih =>
      by_cases here : (m.find? name).isSome
      · obtain ⟨w, there⟩ := Option.isSome_iff_exists.mp here
        simp [find?, there]
      · simp [find?, here, ih]

theorem rebind_append (ms rest : Stack) :
    (ms ++ rest).rebind name v =
      ((ms.rebind name v).map (· ++ rest)).or ((rest.rebind name v).map (ms ++ ·)) := by
  induction ms with
  | nil => simp [rebind]
  | cons m ms ih =>
      by_cases here : (m.find? name).isSome
      · simp [rebind, here]
      · simp only [List.cons_append, rebind, here, ih]
        cases rebind name v ms <;> cases rebind name v rest <;> rfl

/-! ## What is found behind a change -/

theorem find?_put_cons (m : OrderedMap String Value) (rest : Stack) (other : String) :
    find? other (m.put name v :: rest) =
      if other = name then some v else find? other (m :: rest) := by
  by_cases same : other = name
  · simp [find?, same, OrderedMap.find?_put_self]
  · simp [find?, same, OrderedMap.find?_put_of_ne m v (Ne.symm same)]

theorem find?_rebind {ms ms' : Stack} (bound : ms.rebind name v = some ms') (other : String) :
    ms'.find? other = if other = name then some v else ms.find? other := by
  induction ms generalizing ms' with
  | nil => cases bound
  | cons m rest ih =>
      unfold rebind at bound
      split at bound
      · cases bound
        exact find?_put_cons m rest other
      · rename_i absent
        obtain ⟨rest', later, rfl⟩ := Option.map_eq_some_iff.mp bound
        have found := ih later
        by_cases same : other = name
        · subst same
          simp [find?, absent, found]
        · simp [find?, same, found]

end Stack

/-! ## Layers -/

theorem isSome_eq_of_rel {α : Type} {R : α → α → Prop} {o o' : Option α}
    (related : Option.Rel R o o') : o'.isSome = o.isSome := by
  cases related <;> rfl

/-- Two layers: in both the same names are found, with values that are the same but for scopes. -/
structure Layer (part part' : Stack) : Prop where
  nonempty : part ≠ []
  nonempty' : part' ≠ []
  find : ∀ name, Option.Rel Value.Rescoped (part.find? name) (part'.find? name)

/-- Two stacks made of layers of the given heights. -/
inductive Layered : List (Nat × Nat) → Stack → Stack → Prop
  | nil : Layered [] [] []
  | cons {height height' : Nat} {layers : List (Nat × Nat)} {part part' rest rest' : Stack} :
      part.length = height → part'.length = height' → Layer part part' →
        Layered layers rest rest' →
          Layered ((height, height') :: layers) (part ++ rest) (part' ++ rest')

namespace Layer

variable {part part' : Stack} {name : String} {v v' : Value}

theorem opened : Layer [[]] [[]] :=
  ⟨List.cons_ne_nil _ _, List.cons_ne_nil _ _, fun _ => .none⟩

/-- What is found behind a change is what has been put there, or what was found before. -/
theorem changed (layer : Layer part part') (value : Value.Rescoped v v') {after after' : Stack}
    (length : after.length = part.length) (length' : after'.length = part'.length)
    (found : ∀ other, after.find? other = if other = name then some v else part.find? other)
    (found' : ∀ other, after'.find? other = if other = name then some v' else part'.find? other) :
    Layer after after' := by
  refine ⟨?_, ?_, fun other => ?_⟩
  · exact List.ne_nil_of_length_pos (length ▸ List.length_pos_of_ne_nil layer.nonempty)
  · exact List.ne_nil_of_length_pos (length' ▸ List.length_pos_of_ne_nil layer.nonempty')
  · rw [found, found']
    split
    · exact .some value
    · exact layer.find other

theorem rebind (layer : Layer part part') (value : Value.Rescoped v v') :
    Option.Rel (fun after after' => after.length = part.length ∧ after'.length = part'.length ∧
      Layer after after') (part.rebind name v) (part'.rebind name v') := by
  have both : (part'.rebind name v').isSome = (part.rebind name v).isSome := by
    rw [Stack.isSome_rebind, Stack.isSome_rebind, isSome_eq_of_rel (layer.find name)]
  cases bound : part.rebind name v with
  | none =>
      cases bound' : part'.rebind name v' with
      | none => exact .none
      | some after' => simp [bound, bound'] at both
  | some after =>
      cases bound' : part'.rebind name v' with
      | none => simp [bound, bound'] at both
      | some after' =>
          have length := Stack.length_rebind bound
          have length' := Stack.length_rebind bound'
          exact .some ⟨length, length', layer.changed value length length'
            (Stack.find?_rebind bound) (Stack.find?_rebind bound')⟩

end Layer

namespace Layered

variable {layers : List (Nat × Nat)} {height height' : Nat} {ms ms' : Stack} {name : String}
  {v v' : Value}

/-! ### Opening and closing -/

theorem enter (layered : Layered layers ms ms') :
    Layered ((1, 1) :: layers) ([] :: ms) ([] :: ms') :=
  .cons rfl rfl .opened layered

/-- One more scope in one of the stacks makes its top layer higher. -/
theorem enterInner (layered : Layered ((height, height') :: layers) ms ms') :
    Layered ((height, height' + 1) :: layers) ms ([] :: ms') := by
  cases layered with
  | @cons _ _ _ part part' rest rest' length length' layer below =>
      have higher : Layer part ([] :: part') :=
        ⟨layer.nonempty, List.cons_ne_nil _ _, layer.find⟩
      exact .cons length (congrArg (· + 1) length') higher below

theorem enterOuter (layered : Layered ((height, height') :: layers) ms ms') :
    Layered ((height + 1, height') :: layers) ([] :: ms) ms' := by
  cases layered with
  | @cons _ _ _ part part' rest rest' length length' layer below =>
      have higher : Layer ([] :: part) part' :=
        ⟨List.cons_ne_nil _ _, layer.nonempty', layer.find⟩
      exact .cons (congrArg (· + 1) length) length' higher below

theorem leave (layered : Layered ((height, height') :: layers) ms ms') :
    Layered layers (ms.drop height) (ms'.drop height') := by
  cases layered with
  | cons length length' _ below =>
      rwa [List.drop_left' length, List.drop_left' length']

/-! ### Names -/

theorem find (layered : Layered layers ms ms') (name : String) :
    Option.Rel Value.Rescoped (ms.find? name) (ms'.find? name) := by
  induction layered with
  | nil => exact .none
  | @cons _ _ _ part part' _ _ _ _ layer _ ih =>
      rw [Stack.find?_append, Stack.find?_append]
      have here := layer.find name
      generalize part.find? name = found, part'.find? name = found' at here
      cases here with
      | none => exact ih
      | some value => exact .some value

theorem rebind (layered : Layered layers ms ms') (value : Value.Rescoped v v') :
    Option.Rel (Layered layers) (ms.rebind name v) (ms'.rebind name v') := by
  induction layered with
  | nil => exact .none
  | @cons _ _ _ part part' rest rest' length length' layer below ih =>
      rw [Stack.rebind_append, Stack.rebind_append]
      have here : Option.Rel _ (part.rebind name v) (part'.rebind name v') := layer.rebind value
      generalize part.rebind name v = bound, part'.rebind name v' = bound' at here
      cases here with
      | some after =>
          obtain ⟨same, same', layer⟩ := after
          exact .some (.cons (same.trans length) (same'.trans length') layer below)
      | none =>
          generalize rest.rebind name v = bound, rest'.rebind name v' = bound' at ih
          cases ih with
          | none => exact .none
          | some after => exact .some (.cons length length' layer after)

theorem declare (layered : Layered layers ms ms') (value : Value.Rescoped v v') :
    Option.Rel (Layered layers) (ms.declare name v) (ms'.declare name v') := by
  cases layered with
  | nil => exact .none
  | @cons height height' layers part part' rest rest' length length' layer below =>
      obtain ⟨m, others, rfl⟩ := List.exists_cons_of_ne_nil layer.nonempty
      obtain ⟨m', others', rfl⟩ := List.exists_cons_of_ne_nil layer.nonempty'
      have changed : Layer (m.put name v :: others) (m'.put name v' :: others') :=
        layer.changed value rfl rfl (Stack.find?_put_cons m others)
          (Stack.find?_put_cons m' others')
      have same : (m.put name v :: others).length = height := length
      have same' : (m'.put name v' :: others').length = height' := length'
      exact .some (.cons same same' changed below)

/-- A name is given a value in the same layer of both stacks. -/
theorem bind (layered : Layered layers ms ms') (value : Value.Rescoped v v') :
    Option.Rel (Layered layers) (ms.bind name v) (ms'.bind name v') := by
  have bound : Option.Rel _ (ms.rebind name v) (ms'.rebind name v') := layered.rebind value
  unfold Stack.bind
  generalize ms.rebind name v = after, ms'.rebind name v' = after' at bound
  cases bound with
  | none => exact layered.declare value
  | some after => exact .some after

end Layered

end Mini
