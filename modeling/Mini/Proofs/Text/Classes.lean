import Mathlib.Data.List.TakeWhile
import Mini.Text.Digit
import Mini.Text.Letter
import Mini.Text.Numeric

/-!
# How the character classes lie to each other

A letter is no digit, and a digit has a numeric value. Both are read off the tables, side by
side, and decide how a name is told from a number.
-/

namespace Mini.Text

namespace Ranges

/-- Whether two lists of ranges have no code point in common. They are gone through side by
side: what ends below a range of the first ends below all later ones. -/
def disjoint : Ranges → Ranges → Bool
  | [], _ => true
  | (low, high) :: rest, other =>
      let later := other.dropWhile fun r => r.2.blt low
      later.head?.all (fun r => high.blt r.1) && disjoint rest later

theorem ordered.of_suffix {t u : Ranges} (h : ordered t = true) (suffix : u <:+ t) :
    ordered u = true := by
  obtain ⟨before, rfl⟩ := suffix
  induction before with
  | nil => exact h
  | cons r before ih => exact ih (ordered.tail h)

theorem ordered.low_le_high {low high : Nat} {rest : Ranges}
    (h : ordered ((low, high) :: rest) = true) : low ≤ high := by
  cases rest with
  | nil => simpa [ordered] using h
  | cons _ _ =>
      simp only [ordered, Bool.and_eq_true, decide_eq_true_eq] at h
      exact h.1.1

/-- Of two ranges in disjoint lists, one ends before the other begins. -/
theorem apart_of_disjoint {t other : Ranges} (h : ordered t = true) (h' : ordered other = true)
    (apart : disjoint t other = true) :
    ∀ r ∈ t, ∀ s ∈ other, r.2 < s.1 ∨ s.2 < r.1 := by
  induction t generalizing other with
  | nil => simp
  | cons r rest ih =>
      obtain ⟨low, high⟩ := r
      simp only [disjoint, Bool.and_eq_true] at apart
      obtain ⟨first, others⟩ := apart
      have suffix : other.dropWhile (fun r => r.2.blt low) <:+ other := List.dropWhile_suffix _
      have ordered' := ordered.of_suffix h' suffix
      have below := ordered.lt_of_mem h
      have nonempty := ordered.low_le_high h
      intro r mem s mem'
      -- what is left out ends below `low`, hence below all ranges of the first list
      rw [← List.takeWhile_append_dropWhile (p := fun r => r.2.blt low) (l := other)] at mem'
      rcases List.mem_append.mp mem' with dropped | kept
      · have under : s.2 < low := by simpa [Nat.blt_eq] using List.mem_takeWhile_imp dropped
        rcases List.mem_cons.mp mem with rfl | later
        · exact Or.inr under
        · have := below r later
          exact Or.inr (by omega)
      · rcases List.mem_cons.mp mem with rfl | later
        · cases left : other.dropWhile (fun r => r.2.blt low) with
          | nil => rw [left] at kept; cases kept
          | cons head tail =>
              rw [left] at first kept ordered'
              have above : high < head.1 := by simpa [Nat.blt_eq] using first
              rcases List.mem_cons.mp kept with rfl | further
              · exact Or.inl above
              · have := @ordered.lt_of_mem head.1 head.2 tail ordered' s further
                have := @ordered.low_le_high head.1 head.2 tail ordered'
                exact Or.inl (by dsimp only; omega)
        · exact ih (ordered.tail h) ordered' others r later s kept

end Ranges

/-! ## Letters, digits and numeric characters -/

theorem letters_disjoint_digits : letters.disjoint digits = true := by
  decide +kernel

/-- No letter is a digit. -/
theorem not_isDigit_of_isLetter {c : Char} (letter : isLetter c = true) : isDigit c = false := by
  rw [← Bool.not_eq_true]
  intro digit
  obtain ⟨r, memR, aboveR, belowR⟩ := (Ranges.contains_iff letters_ordered _).mp letter
  obtain ⟨s, memS, aboveS, belowS⟩ := (Ranges.contains_iff digits_ordered _).mp digit
  have apart := Ranges.apart_of_disjoint letters_ordered digits_ordered letters_disjoint_digits
    r memR s memS
  omega

theorem digits_within_numerics :
    digits.all (fun r => numerics.any fun s => s.1.ble r.1 && r.2.ble s.2) = true := by
  decide +kernel

/-- Every digit has a numeric value. -/
theorem isNumeric_of_isDigit {c : Char} (digit : isDigit c = true) : isNumeric c = true := by
  obtain ⟨r, memR, aboveR, belowR⟩ := (Ranges.contains_iff digits_ordered _).mp digit
  have within := List.all_eq_true.mp digits_within_numerics r memR
  obtain ⟨s, memS, bounds⟩ := List.any_eq_true.mp within
  simp only [Bool.and_eq_true, Nat.ble_eq] at bounds
  exact (Ranges.contains_iff numerics_ordered _).mpr ⟨s, memS, by omega, by omega⟩

end Mini.Text
