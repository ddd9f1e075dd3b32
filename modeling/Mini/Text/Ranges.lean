/-!
# Sets of characters as ranges of code points

A character class (letters, digits, blanks, …) is a list of inclusive ranges in
increasing order. The order lets a look-up stop at the first range above the
code point, so the ASCII characters, which every program text is made of, are
decided by the first few ranges.
-/

namespace Mini.Text

/-- Inclusive ranges of code points, lowest first. -/
abbrev Ranges := List (Nat × Nat)

namespace Ranges

/-- Whether `n` lies in one of the ranges. The search stops at the first range
that begins above `n`. -/
def contains : Ranges → Nat → Bool
  | [], _ => false
  | (low, high) :: rest, n =>
      if n < low then false else if n ≤ high then true else contains rest n

/-- Each range is nonempty and ends below the next one. -/
def ordered : Ranges → Bool
  | [] => true
  | [(low, high)] => low ≤ high
  | (low, high) :: (low', high') :: rest =>
      low ≤ high && high < low' && ordered ((low', high') :: rest)

/-- In an ordered list nothing below the first range lies in any of them. -/
theorem ordered.lt_of_mem {low high : Nat} {rest : Ranges}
    (h : ordered ((low, high) :: rest) = true) :
    ∀ r ∈ rest, high < r.1 := by
  induction rest generalizing low high with
  | nil => simp
  | cons r rest ih =>
      obtain ⟨low', high'⟩ := r
      simp only [ordered, Bool.and_eq_true, decide_eq_true_eq] at h
      obtain ⟨⟨_, below⟩, ordered'⟩ := h
      intro q hq
      rcases List.mem_cons.mp hq with rfl | later
      · exact below
      · have := ih ordered' q later
        have : low' ≤ high' := by
          cases rest with
          | nil => simpa [ordered] using ordered'
          | cons _ _ =>
              simp only [ordered, Bool.and_eq_true, decide_eq_true_eq] at ordered'
              exact ordered'.1.1
        omega

theorem ordered.tail {r : Nat × Nat} {rest : Ranges}
    (h : ordered (r :: rest) = true) : ordered rest = true := by
  cases rest with
  | nil => rfl
  | cons _ _ =>
      simp only [ordered, Bool.and_eq_true] at h
      exact h.2

/-- Stopping early loses nothing: on ordered ranges `contains` is membership. -/
theorem contains_iff {t : Ranges} (h : ordered t = true) (n : Nat) :
    t.contains n = true ↔ ∃ r ∈ t, r.1 ≤ n ∧ n ≤ r.2 := by
  induction t with
  | nil => simp [contains]
  | cons r rest ih =>
      obtain ⟨low, high⟩ := r
      have below := ordered.lt_of_mem h
      have inRest := ih (ordered.tail h)
      simp only [contains, List.mem_cons, exists_eq_or_imp]
      split
      · rename_i under
        constructor
        · simp
        · rintro (⟨_, _⟩ | ⟨r, hr, _, _⟩)
          · omega
          · have := below r hr
            have : low ≤ high := by
              cases rest with
              | nil => simpa [ordered] using h
              | cons _ _ =>
                  simp only [ordered, Bool.and_eq_true, decide_eq_true_eq] at h
                  exact h.1.1
            omega
      · split
        · rename_i least most
          simp only [true_iff]
          exact Or.inl ⟨by omega, most⟩
        · rename_i least most
          rw [inRest]
          constructor
          · exact Or.inr
          · rintro (⟨_, _⟩ | found)
            · omega
            · exact found

end Ranges

end Mini.Text
