import Mathlib.Algebra.Order.Group.Unbundled.Int
import Mathlib.Data.Rat.Floor
import Mini.Proofs.Execution.Steps

/-!
# Division of numbers

The quotient is put together from the sizes of both numbers and from a comparison of
their signs that takes zero to be positive. The remainder is what the quotient leaves.
Together they satisfy the division identity that is known from hardware: the quotient
is rounded toward zero, and the remainder never has the other sign than the dividend.
-/

namespace Mini.Operator

/-- What is asked of a quotient and a remainder. -/
structure Truncated (a b q r : Int) : Prop where
  identity : a = b * q + r
  small : |r| < |b|
  sign : r = 0 ∨ r.sign = a.sign

/-- A fraction without the part behind its point. -/
def towardZero (x : ℚ) : Int :=
  if 0 ≤ x then ⌊x⌋ else ⌈x⌉

/-! ## The quotient and the remainder by their sizes -/

/-- Multiplied back, the quotient has the sign of the dividend, whatever the sign of the divisor. -/
theorem mul_quotient (a b : Int) :
    b * quotient a b =
      if a < 0 then -((b.natAbs * (a.natAbs / b.natAbs) : Nat) : Int)
      else (b.natAbs * (a.natAbs / b.natAbs) : Nat) := by
  have size : b = if b < 0 then -(b.natAbs : Int) else b.natAbs := by
    split <;> omega
  unfold quotient
  nth_rewrite 1 [size]
  by_cases ha : a < 0 <;> by_cases hb : b < 0 <;> simp [ha, hb]

/-- The size of a remainder is the remainder of the sizes, and its sign is that of the dividend. -/
theorem remainder_eq (a b : Int) :
    remainder a b =
      if a < 0 then -((a.natAbs % b.natAbs : Nat) : Int) else (a.natAbs % b.natAbs : Nat) := by
  have whole := Nat.div_add_mod a.natAbs b.natAbs
  unfold remainder
  rw [mul_quotient]
  split <;> omega

theorem quotient_mul_add_remainder (a b : Int) : a = b * quotient a b + remainder a b := by
  unfold remainder
  ring

theorem abs_remainder_lt {a b : Int} (nonzero : b ≠ 0) : |remainder a b| < |b| := by
  have less := Nat.mod_lt a.natAbs (Int.natAbs_pos.mpr nonzero)
  rw [remainder_eq, Int.abs_eq_natAbs, Int.abs_eq_natAbs]
  split <;> omega

theorem remainder_sign (a b : Int) : remainder a b = 0 ∨ (remainder a b).sign = a.sign := by
  rw [remainder_eq]
  rcases Nat.eq_zero_or_pos (a.natAbs % b.natAbs) with whole | left
  · left
    simp [whole]
  · right
    have pos : 0 < ((a.natAbs % b.natAbs : Nat) : Int) := by exact_mod_cast left
    by_cases ha : a < 0
    · rw [if_pos ha, Int.sign_neg, Int.sign_eq_one_of_pos pos, Int.sign_eq_neg_one_of_neg ha]
    · have size : a.natAbs ≠ 0 := by
        intro zero
        simp [zero] at left
      rw [if_neg ha, Int.sign_eq_one_of_pos pos, Int.sign_eq_one_of_pos (by omega)]

theorem truncated_quotient_remainder {a b : Int} (nonzero : b ≠ 0) :
    Truncated a b (quotient a b) (remainder a b) :=
  ⟨quotient_mul_add_remainder a b, abs_remainder_lt nonzero, remainder_sign a b⟩

/-! ## No other quotient and remainder -/

/-- Two remainders that are not of opposite signs are closer to each other than the divisor is
long. -/
theorem Truncated.abs_sub_lt {a b q r q' r' : Int} (h : Truncated a b q r)
    (h' : Truncated a b q' r') : |r - r'| < |b| := by
  have small := h.small
  have small' := h'.small
  rw [abs_lt] at *
  rcases h.sign with zero | same
  · omega
  rcases h'.sign with zero' | same'
  · omega
  have signs : r.sign = r'.sign := same.trans same'.symm
  rcases lt_trichotomy r 0 with neg | zero | pos
  · rw [Int.sign_eq_neg_one_of_neg neg] at signs
    have neg' := Int.sign_eq_neg_one_iff_neg.mp signs.symm
    omega
  · omega
  · rw [Int.sign_eq_one_of_pos pos] at signs
    have pos' := Int.sign_eq_one_iff_pos.mp signs.symm
    omega

/-- The difference of two remainders is a multiple of the divisor, and too small to be any but
none. -/
theorem Truncated.unique {a b q r q' r' : Int} (nonzero : b ≠ 0) (h : Truncated a b q r)
    (h' : Truncated a b q' r') : q = q' ∧ r = r' := by
  have multiple : r - r' = b * (q' - q) := by
    linarith [h.identity, h'.identity]
  have divides : |b| ∣ r - r' := (abs_dvd _ _).mpr ⟨_, multiple⟩
  have same : r - r' = 0 := Int.eq_zero_of_abs_lt_dvd divides (h.abs_sub_lt h')
  constructor
  · rw [same] at multiple
    rcases mul_eq_zero.mp multiple.symm with zero | zero
    · exact absurd zero nonzero
    · omega
  · omega

/-! ## Rounding -/

theorem cast_div_nonneg_iff (a b : Int) : 0 ≤ (a : ℚ) / b ↔ 0 ≤ a * b := by
  rw [div_nonneg_iff, mul_nonneg_iff]
  norm_cast

/-- The part behind the point is on the side of the fraction. -/
theorem Truncated.sign_mul {a b q r : Int} (h : Truncated a b q r) :
    r = 0 ∨ (r * b).sign = (a * b).sign := by
  rcases h.sign with zero | same
  · exact Or.inl zero
  · right
    rw [Int.sign_mul, Int.sign_mul, same]

/-- The fraction is the quotient and the part behind its point, which is the remainder by the
divisor and less than one. -/
theorem Truncated.eq_towardZero {a b q r : Int} (nonzero : b ≠ 0) (h : Truncated a b q r) :
    q = towardZero ((a : ℚ) / b) := by
  have nonzero' : (b : ℚ) ≠ 0 := by exact_mod_cast nonzero
  have split : (a : ℚ) / b = q + (r : ℚ) / b := by
    rw [h.identity]
    push_cast
    field_simp
  have less : |(r : ℚ) / b| < 1 := by
    rw [abs_div, div_lt_one (abs_pos.mpr nonzero')]
    exact_mod_cast h.small
  rw [abs_lt] at less
  symm
  unfold towardZero
  by_cases nonneg : 0 ≤ (a : ℚ) / b
  · have part : 0 ≤ (r : ℚ) / b := by
      rw [cast_div_nonneg_iff] at *
      rcases h.sign_mul with zero | same
      · simp [zero]
      · rw [← Int.sign_nonneg_iff, same]
        exact Int.sign_nonneg_iff.mpr nonneg
    rw [if_pos nonneg, Int.floor_eq_iff, split]
    constructor <;> linarith
  · have part : (r : ℚ) / b ≤ 0 := by
      rcases h.sign_mul with zero | same
      · simp [zero]
      · rw [cast_div_nonneg_iff, ← Int.sign_nonneg_iff, ← same, Int.sign_nonneg_iff,
          ← cast_div_nonneg_iff] at nonneg
        exact (not_le.mp nonneg).le
    rw [if_neg nonneg, Int.ceil_eq_iff, split]
    constructor <;> linarith

/-! ## Both operators -/

/-- An operator between two numbers, at a place that is blamed for what goes wrong. -/
def betweenNumbers (op : Token) (location : Location) (a b : Int) : Exec Value :=
  Exec.orBlame (some location) (binary op (.number a) (.number b))

theorem betweenNumbers_apply {op : Token} {a b : Int} {cause : Cause} {v : Value}
    (applied : onNumbers op.kind a b = some (if b = 0 then .error cause else .ok v))
    (location : Location) (s : Session) :
    betweenNumbers op location a b s =
      if b = 0 then .failed ⟨cause, some location⟩ s else .done v s := by
  have binary_eq : binary op (.number a) (.number b) = if b = 0 then .error cause else .ok v := by
    simp [binary, onValues, applied, Value.kind]
  unfold betweenNumbers
  rw [Exec.orBlame_apply, binary_eq]
  by_cases zero : b = 0 <;> simp [zero]

/-- **Division rounds toward zero.** Of two numbers of any size, the second one not zero, `/` and
`%` give the only quotient and remainder that are `Truncated`, and the quotient is the fraction
without the part behind its point. They fail for a divisor that is zero and for no other numbers,
each with a cause of its own that is reported under the operator's name at the given location. -/
theorem slash_percent_truncate (slash percent : Token) (isSlash : slash.kind = .slash)
    (isPercent : percent.kind = .percent) (location : Location) (a b : Int) (s : Session) :
    (b ≠ 0 → ∃ q r : Int,
      betweenNumbers slash location a b s = .done (.number q) s ∧
      betweenNumbers percent location a b s = .done (.number r) s ∧
      Truncated a b q r ∧ (∀ q' r', Truncated a b q' r' → q' = q ∧ r' = r) ∧
      q = towardZero ((a : ℚ) / b)) ∧
    (b = 0 →
      betweenNumbers slash location a b s = .failed ⟨.divideByZero, some location⟩ s ∧
      betweenNumbers percent location a b s = .failed ⟨.remainderByZero, some location⟩ s) ∧
    Cause.divideByZero.rule = slash.kind.name ∧
    Cause.divideByZero.message = "Integer divide by zero" ∧
    Cause.remainderByZero.rule = percent.kind.name ∧
    Cause.remainderByZero.message = "Integer remainder by zero" ∧
    ((∃ fault t, betweenNumbers slash location a b s = .failed fault t) ↔ b = 0) ∧
    ((∃ fault t, betweenNumbers percent location a b s = .failed fault t) ↔ b = 0) := by
  have quotients : onNumbers slash.kind a b =
      some (if b = 0 then .error .divideByZero else .ok (.number (quotient a b))) := by
    rw [isSlash]
    rfl
  have remainders : onNumbers percent.kind a b =
      some (if b = 0 then .error .remainderByZero else .ok (.number (remainder a b))) := by
    rw [isPercent]
    rfl
  rw [betweenNumbers_apply quotients, betweenNumbers_apply remainders, isSlash, isPercent]
  refine ⟨?_, ?_, rfl, rfl, rfl, rfl, ?_, ?_⟩
  · intro nonzero
    have truncated := truncated_quotient_remainder (a := a) nonzero
    refine ⟨quotient a b, remainder a b, if_neg nonzero, if_neg nonzero, truncated, ?_,
      truncated.eq_towardZero nonzero⟩
    intro q' r' other
    exact other.unique nonzero truncated
  · intro zero
    exact ⟨if_pos zero, if_pos zero⟩
  · by_cases zero : b = 0 <;> simp [zero]
  · by_cases zero : b = 0 <;> simp [zero]

/-- Minus seven by two: the quotient is rounded up, and what is left is below zero. -/
theorem truncated_minus_seven_two :
    betweenNumbers ⟨.slash, "/", .start⟩ default (-7) 2 (Session.initial false) =
        .done (.number (-3)) (Session.initial false) ∧
      betweenNumbers ⟨.percent, "%", .start⟩ default (-7) 2 (Session.initial false) =
        .done (.number (-1)) (Session.initial false) := by
  obtain ⟨nonzero, -⟩ :=
    slash_percent_truncate ⟨.slash, "/", .start⟩ ⟨.percent, "%", .start⟩ rfl rfl default (-7) 2
      (Session.initial false)
  obtain ⟨q, r, quotient_eq, remainder_eq, -, unique, -⟩ := nonzero (by decide)
  have truncated : Truncated (-7) 2 (-3) (-1) := by
    constructor <;> decide
  obtain ⟨rfl, rfl⟩ := unique _ _ truncated
  exact ⟨quotient_eq, remainder_eq⟩

end Mini.Operator
