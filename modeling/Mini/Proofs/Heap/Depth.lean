import Mathlib.Data.Nat.Order.Lemmas
import Mini.Proofs.Heap.Contents

/-!
# How deep a display goes

A value is displayed up to a depth, the number of arrays in the heap and one. A greater depth
changes nothing: a path that goes deeper comes back to some array, and then no depth is enough.
So the display of a value does not depend on arrays that have nothing to do with it.
-/

namespace Mini.Heap

variable {h : Heap}

/-! ## Displays -/

section Texts

variable {join : String → String → String} {text text' : Value → Except Limit String}

theorem pairTexts_congr {pairs : Pairs}
    (same : ∀ pair ∈ pairs, text' pair.1 = text pair.1 ∧ text' pair.2 = text pair.2) :
    pairTexts join text' pairs = pairTexts join text pairs := by
  induction pairs with
  | nil => rfl
  | cons pair pairs ih =>
      obtain ⟨key, value⟩ := pair
      obtain ⟨keys, values⟩ := same _ List.mem_cons_self
      have others := ih fun pair mem => same pair (List.mem_cons_of_mem _ mem)
      rw [pairTexts, pairTexts, keys, values, others]

/-- Only texts that come before the first one that is missing matter. -/
theorem pairTexts_stable {missing : Limit}
    (stable : ∀ v, text v ≠ .error missing → text' v = text v) {pairs : Pairs}
    (there : pairTexts join text pairs ≠ .error missing) :
    pairTexts join text' pairs = pairTexts join text pairs := by
  induction pairs with
  | nil => rfl
  | cons pair pairs ih =>
      obtain ⟨key, value⟩ := pair
      rw [pairTexts] at there
      rw [pairTexts, pairTexts, stable key (fun none => there (by rw [none]; rfl))]
      cases keys : text key with
      | error limit => rfl
      | ok k =>
          rw [keys] at there
          rw [stable value (fun none => there (by rw [none]; rfl))]
          cases values : text value with
          | error limit => rfl
          | ok v =>
              rw [values] at there
              rw [ih fun none => there (by rw [none]; rfl)]

end Texts

/-- More depth changes a display only where the depth has not been enough. -/
theorem displayWithin_succ {depth : Nat} {v : Value}
    (enough : h.displayWithin depth v ≠ .error .nesting) :
    h.displayWithin (depth + 1) v = h.displayWithin depth v := by
  induction depth generalizing v with
  | zero =>
      cases v with
      | array ref => exact absurd rfl enough
      | nothing | number | text | boolean | function => rfl
  | succ depth ih =>
      cases v with
      | array ref =>
          rw [displayWithin_array_succ] at enough
          rw [displayWithin_array_succ, displayWithin_array_succ,
            pairTexts_stable (fun v => ih) fun none => enough (by rw [none])]
      | nothing | number | text | boolean | function => rfl

theorem displayWithin_of_le {depth depth' : Nat} (le : depth ≤ depth') {v : Value}
    (enough : h.displayWithin depth v ≠ .error .nesting) :
    h.displayWithin depth' v = h.displayWithin depth v := by
  induction le with
  | refl => rfl
  | step _ ih => rw [displayWithin_succ (ih ▸ enough), ih]

/-- A part for which a depth is not enough although another one is. -/
theorem exists_part {depth enough : Nat} {ref : Ref}
    (short : h.displayWithin (depth + 1) (.array ref) = .error .nesting)
    (long : h.displayWithin (enough + 1) (.array ref) ≠ .error .nesting) (le : depth ≤ enough) :
    ∃ v, h.Holds (.array ref) v ∧ h.displayWithin depth v = .error .nesting ∧
      h.displayWithin enough v ≠ .error .nesting := by
  by_contra none
  push Not at none
  have same : ∀ {v}, h.Holds (.array ref) v →
      h.displayWithin enough v = h.displayWithin depth v := by
    intro v holds
    by_cases short : h.displayWithin depth v = .error .nesting
    · rw [none v holds short, short]
    · exact displayWithin_of_le le short
  refine long ?_
  rw [displayWithin_array_succ,
    pairTexts_congr fun pair mem => ⟨same (.key mem), same (.value mem)⟩,
    ← displayWithin_array_succ, short]

/-- Where a depth is not enough but another one is, there is a path of that length through arrays
for which less and less is enough, so that none of them comes twice. -/
theorem exists_path {depth enough : Nat} {ref : Ref}
    (short : h.displayWithin depth (.array ref) = .error .nesting)
    (long : h.displayWithin enough (.array ref) ≠ .error .nesting) :
    ∃ path : List Ref, path.length = depth ∧ path.Nodup ∧ ∀ inner ∈ path,
      inner.index < h.arrays.size ∧ h.displayWithin enough (.array inner) ≠ .error .nesting := by
  induction depth generalizing ref enough with
  | zero => exact ⟨[], rfl, .nil, fun _ mem => absurd mem List.not_mem_nil⟩
  | succ depth ih =>
      obtain ⟨least, fails, holds⟩ := Nat.exists_not_and_succ_of_not_zero_of_exists
        (p := fun depth => h.displayWithin depth (.array ref) ≠ .error .nesting)
        (fun differs => differs rfl) ⟨enough, long⟩
      have before : least ≤ enough := by
        by_contra gt
        exact fails (displayWithin_of_le (Nat.le_of_not_le gt) long ▸ long)
      have le : depth ≤ least := by
        by_contra gt
        exact holds (displayWithin_of_le (by omega : least + 1 ≤ depth + 1) holds ▸ short)
      obtain ⟨v, inside, short, v_long⟩ := exists_part short holds le
      obtain ⟨inner, rfl⟩ : ∃ inner, v = .array inner := by
        rcases displayWithin_plain short with ⟨n, rfl⟩ | array
        · rw [displayWithin_number] at short v_long
          exact absurd short v_long
        · exact array
      obtain ⟨path, length, distinct, path_long⟩ := ih short v_long
      refine ⟨ref :: path, congrArg (· + 1) length, ?_, fun outer mem => ?_⟩
      · exact List.nodup_cons.mpr ⟨fun mem => fails (path_long ref mem).2, distinct⟩
      · rcases List.mem_cons.mp mem with rfl | mem
        · exact ⟨inside.index_lt, long⟩
        · obtain ⟨lt, outer_long⟩ := path_long outer mem
          exact ⟨lt, displayWithin_of_le before outer_long ▸ outer_long⟩

/-- **A display is the same at any greater depth.** -/
theorem displayWithin_depth_add (more : Nat) (v : Value) :
    h.displayWithin (h.depth + more) v = h.display v := by
  by_cases short : h.display v = .error .nesting
  · by_contra differs
    rw [short] at differs
    obtain ⟨ref, rfl⟩ : ∃ ref, v = .array ref := by
      rcases displayWithin_plain short with ⟨n, rfl⟩ | array
      · rw [display, displayWithin_number] at short
        rw [displayWithin_number] at differs
        exact absurd short differs
      · exact array
    obtain ⟨path, length, distinct, inside⟩ := exists_path short differs
    have bound := length_le_size distinct fun ref mem => (inside ref mem).1
    rw [length, depth] at bound
    omega
  · exact displayWithin_of_le (Nat.le_add_right _ _) short

end Mini.Heap
