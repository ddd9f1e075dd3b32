import Mini.Proofs.Heap.Comparison

/-!
# Slots of keys

A key finds the first entry whose own key equals it. Reading gives the value of that entry, and
storing replaces it and nothing else; what comes behind is not looked at. A key that equals none is
put behind all entries. So what a key does is settled by where its slot is, as long as the
comparisons in front of the slot come to an end.
-/

namespace Mini.Heap

variable {h : Heap} {key : Value}

/-- No key of some pairs equals a key. -/
def Lacks (h : Heap) (pairs : Pairs) (key : Value) : Prop :=
  ∀ pair ∈ pairs, h.same pair.1 key = .ok false

/-- The comparisons of a key with those of some pairs come to an end. -/
def Decides (h : Heap) (pairs : Pairs) (key : Value) : Prop :=
  ∀ pair ∈ pairs, ∃ b, h.same pair.1 key = .ok b

/-- A key equals none of some pairs, or it equals that of an entry and none in front of it. -/
theorem Decides.slot {pairs : Pairs} (decides : h.Decides pairs key) :
    h.Lacks pairs key ∨ ∃ before k v after, pairs = before ++ (k, v) :: after ∧
      h.Lacks before key ∧ h.same k key = .ok true := by
  induction pairs with
  | nil => exact .inl fun _ mem => absurd mem List.not_mem_nil
  | cons pair pairs ih =>
      obtain ⟨⟨b, compared⟩, decides⟩ := List.forall_mem_cons.mp decides
      cases b with
      | true =>
          refine .inr ⟨[], pair.1, pair.2, pairs, rfl, ?_, compared⟩
          exact fun _ mem => absurd mem List.not_mem_nil
      | false =>
          rcases ih decides with lacks | ⟨before, k, v, after, rfl, lacks, equal⟩
          · exact .inl (List.forall_mem_cons.mpr ⟨compared, lacks⟩)
          · exact .inr ⟨pair :: before, k, v, after, rfl,
              List.forall_mem_cons.mpr ⟨compared, lacks⟩, equal⟩

/-- A value that is stored replaces that of the first entry whose key equals its own, or is put
behind all entries, whose keys are unequal to its own. -/
theorem store_slot {pairs pairs' : Pairs} {v : Value} (stored : h.store pairs key v = .ok pairs') :
    (∃ before k w after, pairs = before ++ (k, w) :: after ∧ h.Lacks before key ∧
      h.same k key = .ok true ∧ pairs' = before ++ (k, v) :: after) ∨
    h.Lacks pairs key ∧ pairs' = pairs ++ [(key, v)] := by
  induction pairs generalizing pairs' with
  | nil =>
      cases stored
      exact .inr ⟨fun _ mem => absurd mem List.not_mem_nil, rfl⟩
  | cons pair pairs ih =>
      obtain ⟨k, w⟩ := pair
      rw [store] at stored
      cases same : h.same k key with
      | error limit =>
          rw [same] at stored
          cases stored
      | ok found =>
          rw [same] at stored
          cases found with
          | true =>
              cases stored
              exact .inl ⟨[], k, w, pairs, rfl, fun _ mem => absurd mem List.not_mem_nil, same, rfl⟩
          | false =>
              replace stored : (h.store pairs key v >>= fun rest => pure ((k, w) :: rest)) =
                .ok pairs' := stored
              cases rest : h.store pairs key v with
              | error limit =>
                  rw [rest] at stored
                  cases stored
              | ok rest' =>
                  rw [rest] at stored
                  cases stored
                  rcases ih rest with ⟨before, k', w', after, rfl, lacks, equal, rfl⟩ | ⟨lacks, rfl⟩
                  · exact .inl ⟨(k, w) :: before, k', w', after, rfl,
                      List.forall_mem_cons.mpr ⟨same, lacks⟩, equal, rfl⟩
                  · exact .inr ⟨List.forall_mem_cons.mpr ⟨same, lacks⟩, rfl⟩

/-! ## Comparisons decide -/

section Congr

variable {h' : Heap} {pairs : Pairs} (each : ∀ pair ∈ pairs, h'.same pair.1 key = h.same pair.1 key)
include each

theorem lookup_congr : h'.lookup pairs key = h.lookup pairs key := by
  induction pairs with
  | nil => rfl
  | cons pair pairs ih =>
      obtain ⟨here, each⟩ := List.forall_mem_cons.mp each
      rw [lookup, lookup, here, ih each]

theorem store_congr (v : Value) : h'.store pairs key v = h.store pairs key v := by
  induction pairs with
  | nil => rfl
  | cons pair pairs ih =>
      obtain ⟨here, each⟩ := List.forall_mem_cons.mp each
      rw [store, store, here, ih each]

end Congr

section Unequal

variable {k : Value} (unequal : h.same k key = .ok false)
include unequal

/-- The value under another key does not matter. -/
theorem lookup_replace (before after : Pairs) (v w : Value) :
    h.lookup (before ++ (k, v) :: after) key = h.lookup (before ++ (k, w) :: after) key := by
  induction before with
  | nil =>
      rw [List.nil_append, List.nil_append, lookup, lookup, unequal]
      rfl
  | cons pair before ih => rw [List.cons_append, List.cons_append, lookup, lookup, ih]

theorem lookup_concat (pairs : Pairs) (v : Value) :
    h.lookup (pairs ++ [(k, v)]) key = h.lookup pairs key := by
  induction pairs with
  | nil =>
      show h.lookup [(k, v)] key = .ok .nothing
      rw [lookup, unequal]
      rfl
  | cons pair pairs ih => rw [List.cons_append, lookup, lookup, ih]

end Unequal

namespace Lacks

variable {before : Pairs} (lacks : h.Lacks before key)
include lacks

/-! ## Entries in front of a slot are passed over -/

theorem lookup_append (rest : Pairs) : h.lookup (before ++ rest) key = h.lookup rest key := by
  induction before with
  | nil => rfl
  | cons pair before ih =>
      obtain ⟨unequal, lacks⟩ := List.forall_mem_cons.mp lacks
      rw [List.cons_append, Heap.lookup, unequal]
      exact ih lacks

theorem store_append {rest rest' : Pairs} {new : Value} (stored : h.store rest key new = .ok rest') :
    h.store (before ++ rest) key new = .ok (before ++ rest') := by
  induction before with
  | nil => exact stored
  | cons pair before ih =>
      obtain ⟨unequal, lacks⟩ := List.forall_mem_cons.mp lacks
      rw [List.cons_append, Heap.store, unequal]
      show (h.store (before ++ rest) key new >>= fun rest => pure (pair :: rest)) = _
      rw [ih lacks]
      rfl

/-! ## The slot of a key -/

theorem lookup : h.lookup before key = .ok .nothing := by
  have all := lacks.lookup_append []
  rwa [List.append_nil] at all

theorem store (new : Value) : h.store before key new = .ok (before ++ [(key, new)]) := by
  have behind : h.store [] key new = .ok [(key, new)] := rfl
  have all := lacks.store_append behind
  rwa [List.append_nil] at all

section First

variable {k v : Value} {after : Pairs} (equal : h.same k key = .ok true)
include equal

theorem lookup_first : h.lookup (before ++ (k, v) :: after) key = .ok v := by
  rw [lacks.lookup_append, Heap.lookup, equal]
  rfl

theorem store_first (new : Value) :
    h.store (before ++ (k, v) :: after) key new = .ok (before ++ (k, new) :: after) := by
  refine lacks.store_append ?_
  rw [Heap.store, equal]
  rfl

end First

end Lacks

/-! ## What is read and what is stored -/

theorem Decides.exists_store {pairs : Pairs} (decides : h.Decides pairs key) (v : Value) :
    ∃ pairs', h.store pairs key v = .ok pairs' := by
  rcases decides.slot with lacks | ⟨before, k, w, after, rfl, lacks, equal⟩
  · exact ⟨_, lacks.store v⟩
  · exact ⟨_, lacks.store_first equal v⟩

theorem Decides.exists_lookup {pairs : Pairs} (decides : h.Decides pairs key) :
    ∃ v, h.lookup pairs key = .ok v := by
  rcases decides.slot with lacks | ⟨before, k, w, after, rfl, lacks, equal⟩
  · exact ⟨_, lacks.lookup⟩
  · exact ⟨_, lacks.lookup_first equal⟩

/-- What is found under a key stands in some entry. -/
theorem of_lookup {pairs : Pairs} {v : Value} (found : h.lookup pairs key = .ok v) :
    v = .nothing ∨ ∃ pair ∈ pairs, pair.2 = v := by
  induction pairs with
  | nil =>
      cases found
      exact .inl rfl
  | cons pair pairs ih =>
      obtain ⟨k, w⟩ := pair
      rw [lookup] at found
      cases same : h.same k key with
      | error limit =>
          rw [same] at found
          cases found
      | ok equal =>
          rw [same] at found
          cases equal with
          | true =>
              cases found
              exact .inr ⟨(k, v), List.mem_cons_self, rfl⟩
          | false =>
              refine (ih found).imp_right ?_
              rintro ⟨pair, mem, rfl⟩
              exact ⟨pair, List.mem_cons_of_mem _ mem, rfl⟩

section Stored

variable {pairs pairs' : Pairs} {v : Value} (stored : h.store pairs key v = .ok pairs')
include stored

/-- Keys stay where they are, and a key that equals none of them comes behind. -/
theorem keys_stored :
    (∃ pair ∈ pairs, h.same pair.1 key = .ok true) ∧ pairs'.map Prod.fst = pairs.map Prod.fst ∨
    h.Lacks pairs key ∧ pairs'.map Prod.fst = pairs.map Prod.fst ++ [key] := by
  rcases store_slot stored with ⟨before, k, w, after, rfl, -, equal, rfl⟩ | ⟨lacks, rfl⟩
  · refine .inl ⟨⟨(k, w), List.mem_append_right _ List.mem_cons_self, equal⟩, ?_⟩
    rw [List.map_append, List.map_append, List.map_cons, List.map_cons]
  · exact .inr ⟨lacks, List.map_append⟩

/-- What holds of all keys and values that there are, and of those that are stored, still does. -/
theorem forall_stored {P Q : Value → Prop} (each : ∀ pair ∈ pairs, P pair.1 ∧ Q pair.2)
    (newKey : P key) (newValue : Q v) : ∀ pair ∈ pairs', P pair.1 ∧ Q pair.2 := by
  rcases store_slot stored with ⟨before, k, w, after, rfl, -, -, rfl⟩ | ⟨-, rfl⟩
  · obtain ⟨front, rest⟩ := List.forall_mem_append.mp each
    obtain ⟨entry, back⟩ := List.forall_mem_cons.mp rest
    exact List.forall_mem_append.mpr ⟨front, List.forall_mem_cons.mpr ⟨⟨entry.1, newValue⟩, back⟩⟩
  · exact List.forall_mem_append.mpr ⟨each, List.forall_mem_singleton.mpr ⟨newKey, newValue⟩⟩

/-- What is stored is found. -/
theorem lookup_stored : h.lookup pairs' key = .ok v := by
  rcases store_slot stored with ⟨before, k, w, after, -, lacks, equal, rfl⟩ | ⟨lacks, rfl⟩
  · exact lacks.lookup_first equal
  · exact lacks.lookup_first (sameWithin_self _ key)

/-- Under unequal keys there is what there was. -/
theorem lookup_stored_of_ne {key' : Value} (differ : h.same key' key ≠ .ok true)
    (decides : h.Decides pairs key') (unequal : ∃ b, h.same key key' = .ok b) :
    h.lookup pairs' key' = h.lookup pairs key' := by
  rcases store_slot stored with ⟨before, k, w, after, rfl, -, equal, rfl⟩ | ⟨-, rfl⟩
  · obtain ⟨b, compared⟩ := decides (k, w) (List.mem_append_right _ List.mem_cons_self)
    cases b with
    | true =>
        -- a key that equals both would make them equal
        have other : h.SameAt h.depth k key' := compared
        exact absurd (other.symm.trans equal) differ
    | false => exact lookup_replace compared before after v w
  · obtain ⟨b, compared⟩ := unequal
    cases b with
    | true => exact absurd (SameAt.symm compared) differ
    | false => exact lookup_concat compared pairs v

/-- Of two values that are stored under one key the second counts. -/
theorem store_stored (new : Value) : h.store pairs' key new = h.store pairs key new := by
  rcases store_slot stored with ⟨before, k, w, after, rfl, lacks, equal, rfl⟩ | ⟨lacks, rfl⟩
  · rw [lacks.store_first equal, lacks.store_first equal]
  · rw [lacks.store_first (sameWithin_self _ key), lacks.store]

end Stored

end Mini.Heap
