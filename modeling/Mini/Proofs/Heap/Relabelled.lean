import Mini.Proofs.Execution.Relabelling
import Mini.Proofs.Heap.Comparison
import Mini.Proofs.Heap.Depth

/-!
# Heaps with new labels

A heap that has, under new references, the arrays of another heap with new labels, and perhaps
more arrays besides: values are displayed, compared and stored in it as in the other one. The
arrays besides do not matter because neither a display nor a comparison depends on how many arrays
there are.
-/

namespace Mini.Relabelling

open Heap

variable {ρ : Relabelling}

/-- The second heap has the arrays of the first under new references, and perhaps others. -/
structure Carries (ρ : Relabelling) (h h' : Heap) : Prop where
  read : ∀ ref, h'.read (ρ.ref ref) = ρ.pairs (h.read ref)
  size : h.arrays.size ≤ h'.arrays.size

/-! ## Displays -/

theorem pairTexts_pairs {join : String → String → String} {text text' : Value → Except Limit String}
    (same : ∀ v, text' (ρ.value v) = text v) (items : Pairs) :
    pairTexts join text' (ρ.pairs items) = pairTexts join text items := by
  induction items with
  | nil => rfl
  | cons item items ih =>
      show pairTexts join text' (ρ.pair item :: ρ.pairs items) = _
      obtain ⟨key, v⟩ := item
      rw [pair, pairTexts, pairTexts, same, same, ih]

theorem samePairs_pairs {same same' : Value → Value → Except Limit Bool}
    (alike : ∀ v w, same' (ρ.value v) (ρ.value w) = same v w) (items items' : Pairs) :
    samePairs same' (ρ.pairs items) (ρ.pairs items') = samePairs same items items' := by
  induction items generalizing items' with
  | nil => rfl
  | cons item items ih =>
      cases items' with
      | nil => rfl
      | cons item' items' =>
          show samePairs same' (ρ.pair item :: ρ.pairs items) (ρ.pair item' :: ρ.pairs items') = _
          obtain ⟨key, v⟩ := item
          obtain ⟨key', v'⟩ := item'
          rw [pair, pair, samePairs, samePairs, alike, alike, ih]

section Carries

variable {h h' : Heap} (carries : ρ.Carries h h')
include carries

theorem Carries.exists_depth : ∃ more, h'.depth = h.depth + more := by
  obtain ⟨more, size⟩ := Nat.exists_eq_add_of_le carries.size
  refine ⟨more, ?_⟩
  rw [depth, depth, size]
  omega

theorem Carries.displayWithin (depth : Nat) (v : Value) :
    h'.displayWithin depth (ρ.value v) = h.displayWithin depth v := by
  induction depth generalizing v with
  | zero => cases v <;> rfl
  | succ depth ih =>
      cases v with
      | array ref =>
          rw [value, displayWithin_array_succ, displayWithin_array_succ, carries.read,
            pairTexts_pairs ih]
      | nothing | number | text | boolean | function => rfl

theorem Carries.display (v : Value) : h'.display (ρ.value v) = h.display v := by
  obtain ⟨more, depth⟩ := carries.exists_depth
  rw [Heap.display, depth, carries.displayWithin, displayWithin_depth_add]

theorem Carries.mapM_display (args : List Value) :
    (args.map ρ.value).mapM h'.display = args.mapM h.display := by
  rw [List.mapM_map]
  congr 1
  funext v
  exact carries.display v

/-! ## Comparisons -/

theorem Carries.sameWithin (depth : Nat) (v w : Value) :
    h'.sameWithin depth (ρ.value v) (ρ.value w) = h.sameWithin depth v w := by
  induction depth generalizing v w with
  | zero =>
      cases v with
      | array r =>
          cases w with
          | array s => simp [value, Heap.sameWithin, ρ.ref_injective.eq_iff]
          | nothing | number | text | boolean | function => rfl
      | function f =>
          cases w with
          | function g => simp [value, function, Heap.sameWithin, ρ.literal_injective.eq_iff]
          | nothing | number | text | boolean | array => rfl
      | nothing | number | text | boolean => cases w <;> rfl
  | succ depth ih =>
      cases v with
      | array r =>
          cases w with
          | array s =>
              have lengths :
                  ∀ ref, (h'.read (ρ.ref ref)).length = (h.read ref).length := fun ref => by
                rw [carries.read, pairs, List.length_map]
              rw [value, value, sameWithin_array, sameWithin_array, lengths, lengths, carries.read,
                carries.read, samePairs_pairs ih]
              simp only [ρ.ref_injective.eq_iff]
          | nothing | number | text | boolean | function => rfl
      | function f =>
          cases w with
          | function g => simp [value, function, Heap.sameWithin, ρ.literal_injective.eq_iff]
          | nothing | number | text | boolean | array => rfl
      | nothing | number | text | boolean => cases w <;> rfl

theorem Carries.same (v w : Value) : h'.same (ρ.value v) (ρ.value w) = h.same v w := by
  obtain ⟨more, depth⟩ := carries.exists_depth
  rw [Heap.same, depth, carries.sameWithin, sameWithin_depth_add]

/-! ## Keys -/

theorem Carries.lookup (items : Pairs) (key : Value) :
    h'.lookup (ρ.pairs items) (ρ.value key) = (h.lookup items key).map ρ.value := by
  induction items with
  | nil => rfl
  | cons item items ih =>
      show h'.lookup (ρ.pair item :: ρ.pairs items) _ = _
      obtain ⟨k, v⟩ := item
      rw [pair, Heap.lookup, Heap.lookup, carries.same, ih]
      cases h.same k key with
      | error limit => rfl
      | ok b => cases b <;> rfl

theorem Carries.store (items : Pairs) (key v : Value) :
    h'.store (ρ.pairs items) (ρ.value key) (ρ.value v) = (h.store items key v).map ρ.pairs := by
  induction items with
  | nil => rfl
  | cons item items ih =>
      show h'.store (ρ.pair item :: ρ.pairs items) _ _ = _
      obtain ⟨k, w⟩ := item
      rw [pair, Heap.store, Heap.store, carries.same, ih]
      cases h.same k key with
      | error limit => rfl
      | ok b =>
          cases b with
          | true => rfl
          | false => cases h.store items key v <;> rfl

end Carries

end Mini.Relabelling
