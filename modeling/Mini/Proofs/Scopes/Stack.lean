import Mini.Proofs.Scopes.Names

/-!
# Scopes as a stack of maps

The array of scopes with its handles, read as a list of maps, the innermost first. As long as scopes
are opened and closed at the end of the array, each of them stands in the one before it and the last
is the current one, so the list says all that there is to say. `Scopes.ofStack` lays a list out in
an array, and each operation on scopes is one on lists: opening puts an empty map in front, closing
takes the first one away, and a name is looked up from the front.
-/

namespace Mini

/-- Maps from names to values, innermost first. -/
abbrev Stack := List (OrderedMap String Value)

namespace Stack

/-- The innermost map that has a name. Maps are numbered from the outermost on. -/
def holder? (name : String) : Stack → Option Nat
  | [] => none
  | m :: rest => if (m.find? name).isSome then some rest.length else holder? name rest

/-- The value of a name, in the innermost map that has it. -/
def find? (name : String) : Stack → Option Value
  | [] => none
  | m :: rest => if (m.find? name).isSome then m.find? name else find? name rest

/-- Puts a value under a name in the innermost map. -/
def declare (name : String) (v : Value) : Stack → Option Stack
  | [] => none
  | m :: rest => some (m.put name v :: rest)

/-- Puts a value under a name in the innermost map that has it. -/
def rebind (name : String) (v : Value) : Stack → Option Stack
  | [] => none
  | m :: rest =>
      if (m.find? name).isSome then some (m.put name v :: rest)
      else (rebind name v rest).map (m :: ·)

/-- Gives a name a new value where it has one, or else a value in the innermost map. -/
def bind (name : String) (v : Value) (ms : Stack) : Option Stack :=
  match rebind name v ms with
  | some ms => some ms
  | none => declare name v ms

section Names

variable {name : String} {v : Value}

/-- A name has a value exactly if some map has it, and then it can be given another one. -/
theorem isSome_holder? (ms : Stack) : (ms.holder? name).isSome = (ms.find? name).isSome := by
  induction ms with
  | nil => rfl
  | cons m rest ih =>
      by_cases here : (m.find? name).isSome <;> simp [holder?, find?, here, ih]

theorem isSome_rebind (ms : Stack) : (ms.rebind name v).isSome = (ms.find? name).isSome := by
  induction ms with
  | nil => rfl
  | cons m rest ih =>
      by_cases here : (m.find? name).isSome <;> simp [rebind, find?, here, ih]

theorem length_rebind {ms ms' : Stack} (bound : ms.rebind name v = some ms') :
    ms'.length = ms.length := by
  induction ms generalizing ms' with
  | nil => cases bound
  | cons m rest ih =>
      unfold rebind at bound
      split at bound
      · cases bound
        rfl
      · obtain ⟨rest', later, rfl⟩ := Option.map_eq_some_iff.mp bound
        simp [ih later]

end Names

end Stack

namespace Scopes

/-! ## Laying out a stack -/

/-- The handle in front of a handle, which is also the last handle of so many scopes. -/
def handleBefore : Nat → Option Nat
  | 0 => none
  | n + 1 => some n

/-- The scopes of a stack in the order of their handles. -/
def layOut : Stack → Array Scope
  | [] => #[]
  | m :: rest => (layOut rest).push ⟨handleBefore rest.length, m⟩

/-- A stack as open scopes, the last of which is the current one. -/
def ofStack (ms : Stack) : Scopes :=
  ⟨layOut ms, handleBefore ms.length⟩

@[simp] theorem size_layOut (ms : Stack) : (layOut ms).size = ms.length := by
  induction ms with
  | nil => rfl
  | cons m rest ih => simp [layOut, ih]

@[simp] theorem size_ofStack (ms : Stack) : (ofStack ms).scopes.size = ms.length :=
  size_layOut ms

/-- The scope of a stack that was opened last. -/
theorem layOut_getElem?_self (m : OrderedMap String Value) (rest : Stack) :
    (layOut (m :: rest))[rest.length]? = some ⟨handleBefore rest.length, m⟩ := by
  rw [layOut, ← size_layOut rest, Array.getElem?_push_size]

theorem layOut_getElem?_of_lt (m : OrderedMap String Value) {rest : Stack} {i : Nat}
    (below : i < rest.length) : (layOut (m :: rest))[i]? = (layOut rest)[i]? := by
  have ne : i ≠ (layOut rest).size := by
    rw [size_layOut]
    exact Nat.ne_of_lt below
  rw [layOut, Array.getElem?_push, if_neg ne]

/-- Each scope stands in the one before it. -/
theorem parent_of_layOut {ms : Stack} {i : Nat} {scope : Scope}
    (there : (layOut ms)[i]? = some scope) : scope.parent = handleBefore i := by
  induction ms with
  | nil => cases there
  | cons m rest ih =>
      rw [layOut, Array.getElem?_push, size_layOut] at there
      split at there
      · rename_i last
        cases there
        rw [last]
      · exact ih there

/-! ## Opening and closing -/

theorem enter_ofStack (ms : Stack) : (ofStack ms).enter = ofStack ([] :: ms) := by
  simp [enter, ofStack, layOut, handleBefore]

theorem leave_ofStack (ms : Stack) : (ofStack ms).leave = ofStack ms.tail := by
  cases ms with
  | nil => rfl
  | cons m rest => simp [leave, ofStack, layOut, handleBefore]

/-! ## Looking up -/

/-- The way up from the last of some scopes meets the maps of the stack one by one, so it needs no
more steps than there are maps. -/
theorem findFrom_layOut {s : Scopes} {ms : Stack} {name : String} {steps : Nat}
    (same : ∀ i, i < ms.length → s.scopes[i]? = (layOut ms)[i]?) (enough : ms.length ≤ steps) :
    s.findFrom name steps (handleBefore ms.length) = ms.holder? name := by
  induction ms generalizing steps with
  | nil => cases steps <;> rfl
  | cons m rest ih =>
      obtain ⟨steps, rfl⟩ : ∃ more, steps = more + 1 := by
        refine ⟨steps - 1, ?_⟩
        simp only [List.length_cons] at enough
        omega
      simp only [List.length_cons, Nat.add_le_add_iff_right] at enough
      have here : s.scopes[rest.length]? = some ⟨handleBefore rest.length, m⟩ := by
        rw [same rest.length (by simp), layOut_getElem?_self]
      have up : s.findFrom name steps (handleBefore rest.length) = Stack.holder? name rest := by
        refine ih (fun i below => ?_) enough
        rw [same i (by simp; omega), layOut_getElem?_of_lt m below]
      show s.findFrom name (steps + 1) (some rest.length) = _
      rw [findFrom_succ, here]
      dsimp only
      rw [up, Stack.holder?]

theorem findFrom_ofStack {ms : Stack} (name : String) {steps : Nat} (enough : ms.length ≤ steps) :
    (ofStack ms).findFrom name steps (ofStack ms).current = ms.holder? name :=
  findFrom_layOut (fun _ _ => rfl) enough

theorem lookup_ofStack (ms : Stack) (name : String) :
    (ofStack ms).lookup name = ms.holder? name := by
  rw [lookup, size_ofStack]
  exact findFrom_ofStack name (Nat.le_refl _)

/-! ## Bindings -/

theorem bindings_ofStack_cons (m : OrderedMap String Value) (rest : Stack) (i : Nat) :
    (ofStack (m :: rest)).bindings i =
      if i = rest.length then m else (ofStack rest).bindings i := by
  unfold bindings ofStack
  by_cases last : i = rest.length
  · rw [if_pos last, last]
    dsimp only
    rw [layOut_getElem?_self]
    rfl
  · rw [if_neg last]
    dsimp only
    rw [layOut, Array.getElem?_push, size_layOut, if_neg last]

theorem bindings_ofStack_of_le {ms : Stack} {i : Nat} (beyond : ms.length ≤ i) :
    (ofStack ms).bindings i = [] := by
  have none : (ofStack ms).scopes[i]? = none := by
    rw [Array.getElem?_eq_none_iff, size_ofStack]
    exact beyond
  rw [bindings, none]
  rfl

theorem holder?_lt {ms : Stack} {name : String} {i : Nat} (held : ms.holder? name = some i) :
    i < ms.length := by
  induction ms with
  | nil => cases held
  | cons m rest ih =>
      unfold Stack.holder? at held
      split at held
      · cases held
        exact Nat.lt_succ_self _
      · exact Nat.lt_succ_of_lt (ih held)

theorem get_ofStack (ms : Stack) (name : String) :
    (ofStack ms).get name =
      match ms.find? name with
      | some v => .ok v
      | none => .error (.undefined name) := by
  suffices found : ((ofStack ms).lookup name).bind
      (fun handle => ((ofStack ms).bindings handle).find? name) = ms.find? name by
    cases value : ms.find? name <;> simp [get, found, value]
  rw [lookup_ofStack]
  induction ms with
  | nil => rfl
  | cons m rest ih =>
      by_cases here : (m.find? name).isSome
      · simp [Stack.holder?, Stack.find?, here, bindings_ofStack_cons]
      · simp only [Stack.holder?, Stack.find?, here, Bool.false_eq_true, if_false]
        rw [← ih]
        cases held : Stack.holder? name rest with
        | none => rfl
        | some i =>
            have other : i ≠ rest.length := Nat.ne_of_lt (holder?_lt held)
            simp [bindings_ofStack_cons, other]

/-! ## Binding -/

theorem putIn_ofStack_self (m : OrderedMap String Value) (rest : Stack) (name : String)
    (v : Value) :
    (ofStack (m :: rest)).putIn rest.length name v = ofStack (m.put name v :: rest) := by
  refine Scopes.mk.injEq .. ▸ ⟨Array.ext_getElem? fun i => ?_, rfl⟩
  simp only [ofStack, layOut, Array.getElem?_modify, Array.getElem?_push, size_layOut]
  by_cases last : rest.length = i
  · simp [last]
  · have other : i ≠ rest.length := fun same => last same.symm
    simp [last, other]

theorem putIn_ofStack_of_lt (m : OrderedMap String Value) {rest rest' : Stack} {i : Nat}
    {name : String} {v : Value} (below : i < rest.length) (length : rest'.length = rest.length)
    (put : (ofStack rest).putIn i name v = ofStack rest') :
    (ofStack (m :: rest)).putIn i name v = ofStack (m :: rest') := by
  have inside : (layOut rest).modify i (fun scope =>
      { scope with bindings := scope.bindings.put name v }) = layOut rest' :=
    congrArg Scopes.scopes put
  refine Scopes.mk.injEq .. ▸ ⟨?_, ?_⟩
  · show ((layOut rest).push _).modify i _ = (layOut rest').push _
    rw [← inside, length]
    refine Array.ext_getElem? fun j => ?_
    simp only [Array.getElem?_modify, Array.getElem?_push, Array.size_modify, size_layOut]
    by_cases last : j = rest.length
    · simp [last, Nat.ne_of_lt below]
    · simp [last]
  · simp [ofStack, length]

theorem putIn_ofStack {ms : Stack} {name : String} {i : Nat} (v : Value)
    (held : ms.holder? name = some i) :
    ∃ ms', ms.rebind name v = some ms' ∧ (ofStack ms).putIn i name v = ofStack ms' := by
  induction ms with
  | nil => cases held
  | cons m rest ih =>
      unfold Stack.holder? at held
      unfold Stack.rebind
      split at held
      · rename_i here
        cases held
        rw [if_pos here]
        exact ⟨_, rfl, putIn_ofStack_self m rest name v⟩
      · rename_i absent
        rw [if_neg absent]
        obtain ⟨rest', bound, put⟩ := ih held
        refine ⟨m :: rest', by rw [bound]; rfl, ?_⟩
        exact putIn_ofStack_of_lt m (holder?_lt held) (Stack.length_rebind bound) put

theorem declare_ofStack (ms : Stack) (name : String) (v : Value) :
    (ofStack ms).declare name v =
      match ms.declare name v with
      | some ms' => .ok (ofStack ms')
      | none => .error .noScope := by
  cases ms with
  | nil => rfl
  | cons m rest => exact congrArg Except.ok (putIn_ofStack_self m rest name v)

theorem bind_ofStack (ms : Stack) (name : String) (v : Value) :
    (ofStack ms).bind name v =
      match ms.bind name v with
      | some ms' => .ok (ofStack ms')
      | none => .error .noScope := by
  unfold bind Stack.bind
  rw [lookup_ofStack]
  cases held : ms.holder? name with
  | none =>
      have free : ms.rebind name v = none := by
        rw [← Option.not_isSome_iff_eq_none, Stack.isSome_rebind, ← Stack.isSome_holder?, held]
        simp
      rw [free]
      exact declare_ofStack ms name v
  | some i =>
      obtain ⟨ms', bound, put⟩ := putIn_ofStack v held
      rw [bound]
      dsimp only
      rw [put]

end Scopes

end Mini
