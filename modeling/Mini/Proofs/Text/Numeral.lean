import Mathlib.Data.List.TakeWhile
import Mini.Text.Numeral

/-!
# Reading back a number that was written

The text of a natural number is made of ASCII digits only, so nothing about it depends on
blanks, signs or underscores, and it stays within the limit exactly if the number does.
-/

namespace Mini.Text

/-! ## ASCII digits -/

/-- What holds of each of the ten ASCII digits holds of every character that is one. -/
theorem forall_isDigit {p : Char → Bool}
    (h : ((List.range 10).map fun d => Char.ofNat ('0'.toNat + d)).all p = true) {c : Char}
    (digit : c.isDigit = true) : p c = true := by
  simp only [Char.isDigit, Bool.and_eq_true, decide_eq_true_eq, ge_iff_le,
    UInt32.le_iff_toNat_le] at digit
  obtain ⟨least, most⟩ := digit
  have least : 48 ≤ c.toNat := least
  have most : c.toNat ≤ 57 := most
  refine List.all_eq_true.mp h c (List.mem_map.mpr ⟨c.toNat - 48, ?_, ?_⟩)
  · exact List.mem_range.mpr (by omega)
  · have whole : '0'.toNat + (c.toNat - 48) = c.toNat := by
      show 48 + (c.toNat - 48) = c.toNat
      omega
    show Char.ofNat ('0'.toNat + (c.toNat - 48)) = c
    rw [whole, Char.ofNat_toNat]

theorem decimalDigit?_of_isDigit {c : Char} (digit : c.isDigit = true) :
    decimalDigit? c = some (c.toNat - '0'.toNat) := by
  have h := forall_isDigit (p := fun c => decimalDigit? c = some (c.toNat - '0'.toNat))
    (by decide) digit
  exact of_decide_eq_true h

theorem isDigit_of_mem_digitsOf {n : Nat} {c : Char} (mem : c ∈ digitsOf n) : c.isDigit = true :=
  Nat.isDigit_of_mem_toDigits (by decide) (by decide) mem

theorem digitsOf_ne_nil (n : Nat) : digitsOf n ≠ [] :=
  Nat.toDigits_ne_nil

theorem natText_chars (n : Nat) :
    ∃ c cs, (natText n).toList = c :: cs ∧ ∀ d ∈ c :: cs, d.isDigit = true := by
  rw [natText, String.toList_ofList]
  cases digits : digitsOf n with
  | nil => exact absurd digits (digitsOf_ne_nil n)
  | cons c cs => exact ⟨c, cs, rfl, fun d mem => isDigit_of_mem_digitsOf (digits ▸ mem)⟩

/-! ## Reading digits -/

theorem filterMap_decimalDigit? {digits : List Char} (all : ∀ c ∈ digits, c.isDigit = true) :
    digits.filterMap decimalDigit? = digits.map fun c => c.toNat - '0'.toNat := by
  induction digits with
  | nil => rfl
  | cons c digits ih =>
      have first := decimalDigit?_of_isDigit (all c List.mem_cons_self)
      rw [List.filterMap_cons_some first, ih fun d mem => all d (List.mem_cons_of_mem _ mem)]
      rfl

theorem ofDigits_digitsOf (n : Nat) :
    ofDigits ((digitsOf n).map fun c => c.toNat - '0'.toNat) = n := by
  rw [ofDigits, List.foldl_map]
  exact Nat.ofDigitChars_ten_toDigits

/-- Zeros in front of the digits do not count, so a number can be read off its filled-up text. -/
theorem ofDigits_padded (zeros n : Nat) :
    ofDigits ((List.replicate zeros '0' ++ digitsOf n).map fun c => c.toNat - '0'.toNat) = n := by
  rw [List.map_append, List.map_replicate, ofDigits, List.foldl_append]
  have nothing :
      (List.replicate zeros ('0'.toNat - '0'.toNat)).foldl (fun n d => 10 * n + d) 0 = 0 := by
    induction zeros with
    | zero => rfl
    | succ zeros ih => exact ih
  rw [nothing]
  exact ofDigits_digitsOf n

/-- Different numbers have different texts, also where the digits are more than the width. -/
theorem paddedText_injective (width : Nat) : Function.Injective (paddedText width) := by
  intro m n same
  have digits := String.ofList_injective same
  have values := congrArg (fun cs => ofDigits (cs.map fun c => c.toNat - '0'.toNat)) digits
  simpa only [ofDigits_padded] using values

theorem groupsWell_of_isDigit {digits : List Char} (all : ∀ c ∈ digits, c.isDigit = true)
    (afterDigit : Bool) (some : digits ≠ [] ∨ afterDigit = true) :
    groupsWell afterDigit digits = true := by
  induction digits generalizing afterDigit with
  | nil =>
      rcases some with none | digit
      · exact absurd rfl none
      · exact digit
  | cons c digits ih =>
      have digit := all c List.mem_cons_self
      have notUnderscore : c ≠ '_' := by
        rintro rfl
        cases digit
      rw [groupsWell.eq_3 _ _ _ notUnderscore]
      exact ih (fun d mem => all d (List.mem_cons_of_mem _ mem)) true (Or.inr rfl)

/-- Digits stay within a limit if the number is below that power of ten. -/
theorem length_digitsOf_le {n limit : Nat} (positive : 0 < limit) (lt : n < Nat.pow 10 limit) :
    (digitsOf n).length ≤ limit :=
  (Nat.length_toDigits_le_iff (by decide) positive).mpr lt

theorem length_digitsOf_of_writable {n : Int} (h : writable n = true) :
    (digitsOf n.natAbs).length ≤ digitLimit :=
  length_digitsOf_le (Nat.succ_pos _) (of_decide_eq_true h)

/-- Behind blanks and a sign, digits are read as their number unless they are too many. -/
theorem readInteger_eq {text : String} {negative : Bool} {digits : List Char}
    (split : splitSign (text.toList.dropWhile isNumeralBlank) = (negative, digits))
    (some : digits ≠ []) (all : ∀ c ∈ digits, c.isDigit = true) :
    readInteger text =
      if digitLimit < digits.length then .error (.tooLong digits.length)
      else .ok (if negative then -(ofDigits (digits.map fun c => c.toNat - '0'.toNat) : Int)
        else ofDigits (digits.map fun c => c.toNat - '0'.toNat)) := by
  cases digits with
  | nil => exact absurd rfl some
  | cons c cs =>
      have body : ∀ d ∈ c :: cs, ((decimalDigit? d).isSome || d = '_') = true := by
        intro d mem
        rw [decimalDigit?_of_isDigit (all d mem)]
        rfl
      have whole := List.takeWhile_eq_self_iff.mpr body
      have nothing := List.dropWhile_eq_nil_iff.mpr body
      rw [readInteger]
      simp only [split, whole, nothing, filterMap_decimalDigit? all,
        groupsWell_of_isDigit all false (Or.inl some), List.length_map]
      rfl

theorem readInteger_of_digits {text : String} {negative : Bool} {digits : List Char}
    (split : splitSign (text.toList.dropWhile isNumeralBlank) = (negative, digits))
    (some : digits ≠ []) (all : ∀ c ∈ digits, c.isDigit = true)
    (short : digits.length ≤ digitLimit) :
    readInteger text =
      .ok (if negative then -(ofDigits (digits.map fun c => c.toNat - '0'.toNat) : Int)
        else ofDigits (digits.map fun c => c.toNat - '0'.toNat)) := by
  rw [readInteger_eq split some all, if_neg (Nat.not_lt_of_le short)]

theorem digit_ne_sign {c : Char} (digit : c.isDigit = true) : c ≠ '-' ∧ c ≠ '+' := by
  constructor
  · rintro rfl
    cases digit
  · rintro rfl
    cases digit

/-- Digits have neither blanks nor a sign in front of them. -/
theorem splitSign_of_isDigit {c : Char} {cs : List Char} (digit : c.isDigit = true) :
    splitSign ((c :: cs).dropWhile isNumeralBlank) = (false, c :: cs) := by
  have notBlank : isNumeralBlank c = false := by
    have h := forall_isDigit (p := fun c => !isNumeralBlank c) (by decide) digit
    simpa using h
  obtain ⟨minus, plus⟩ := digit_ne_sign digit
  rw [List.dropWhile_cons_of_neg (ne_true_of_eq_false notBlank)]
  refine splitSign.eq_3 _ ?_ ?_
  · rintro _ ⟨⟩
    exact minus rfl
  · rintro _ ⟨⟩
    exact plus rfl

/-- All that can be wrong with digits is that there are too many. -/
theorem tooLong_of_readInteger {text : String} {c : Char} {cs : List Char} {fault : NumeralFault}
    (chars : text.toList = c :: cs) (all : ∀ d ∈ c :: cs, d.isDigit = true)
    (faulty : readInteger text = .error fault) :
    fault = .tooLong text.toList.length ∧ digitLimit < text.toList.length := by
  have split : splitSign (text.toList.dropWhile isNumeralBlank) = (false, c :: cs) := by
    rw [chars]
    exact splitSign_of_isDigit (all c List.mem_cons_self)
  rw [readInteger_eq split (List.cons_ne_nil c cs) all] at faulty
  rw [chars]
  split at faulty
  · rename_i long
    cases faulty
    exact ⟨rfl, long⟩
  · cases faulty

/-- The text of a number that is not too long is read as the number. -/
theorem readInteger_natText {n : Nat} (short : (digitsOf n).length ≤ digitLimit) :
    readInteger (natText n) = .ok n := by
  have all : ∀ c ∈ digitsOf n, c.isDigit = true := fun c mem => isDigit_of_mem_digitsOf mem
  have split : splitSign ((natText n).toList.dropWhile isNumeralBlank) = (false, digitsOf n) := by
    rw [natText, String.toList_ofList]
    cases digits : digitsOf n with
    | nil => exact absurd digits (digitsOf_ne_nil n)
    | cons c cs =>
        rw [digits] at all
        exact splitSign_of_isDigit (all c List.mem_cons_self)
  rw [readInteger_of_digits split (digitsOf_ne_nil n) all short, ofDigits_digitsOf]
  rfl

theorem readInteger_integerText {n : Int} (short : (digitsOf n.natAbs).length ≤ digitLimit) :
    readInteger (integerText n) = .ok n := by
  by_cases negative : n < 0
  · have split : splitSign ((integerText n).toList.dropWhile isNumeralBlank) =
        (true, digitsOf n.natAbs) := by
      have minus : isNumeralBlank '-' = false := by decide
      rw [integerText, if_pos negative, natText]
      simp only [String.toList_append, String.toList_ofList]
      show splitSign (('-' :: digitsOf n.natAbs).dropWhile isNumeralBlank) = _
      rw [List.dropWhile_cons_of_neg (ne_true_of_eq_false minus)]
      rfl
    have all : ∀ c ∈ digitsOf n.natAbs, c.isDigit = true := fun c mem => isDigit_of_mem_digitsOf mem
    rw [readInteger_of_digits split (digitsOf_ne_nil _) all short, ofDigits_digitsOf]
    exact congrArg _ (by show -(n.natAbs : Int) = n; omega)
  · rw [integerText, if_neg negative, readInteger_natText short]
    exact congrArg _ (by omega)

/-! ## How long a number is that was read -/

theorem foldl_digits_lt {digits : List Nat} (small : ∀ d ∈ digits, d < 10) (n : Nat) :
    digits.foldl (fun n d => 10 * n + d) n < (n + 1) * Nat.pow 10 digits.length := by
  induction digits generalizing n with
  | nil =>
      show n < (n + 1) * 1
      omega
  | cons d digits ih =>
      have first := small d List.mem_cons_self
      have later := ih (fun e mem => small e (List.mem_cons_of_mem _ mem)) (10 * n + d)
      rw [List.foldl_cons, List.length_cons]
      calc digits.foldl (fun n d => 10 * n + d) (10 * n + d)
          < (10 * n + d + 1) * Nat.pow 10 digits.length := later
        _ ≤ (n + 1) * 10 * Nat.pow 10 digits.length := Nat.mul_le_mul_right _ (by omega)
        _ = (n + 1) * (10 * Nat.pow 10 digits.length) := Nat.mul_assoc _ _ _
        _ = (n + 1) * Nat.pow 10 (digits.length + 1) := congrArg _ Nat.pow_succ'.symm

theorem ofDigits_lt {digits : List Nat} (small : ∀ d ∈ digits, d < 10) :
    ofDigits digits < Nat.pow 10 digits.length := by
  have whole := foldl_digits_lt small 0
  rwa [Nat.zero_add, Nat.one_mul] at whole

/-- The number of some digits is written with no more digits. -/
theorem length_digitsOf_ofDigits {digits : List Nat} {limit : Nat}
    (small : ∀ d ∈ digits, d < 10) (positive : 0 < limit) (few : digits.length ≤ limit) :
    (digitsOf (ofDigits digits)).length ≤ limit :=
  length_digitsOf_le positive
    (Nat.lt_of_lt_of_le (ofDigits_lt small) (Nat.pow_le_pow_right (by decide) few))

/-- A number that was read is not too long to be read again, however it was written. -/
theorem length_digitsOf_of_readInteger {text : String} {n : Int}
    (read : readInteger text = .ok n) : (digitsOf n.natAbs).length ≤ digitLimit := by
  unfold readInteger at read
  simp only at read
  split at read
  · cases read
  · split at read
    · cases read
    · rename_i few
      split at read
      · cases read
      · generalize digits : List.filterMap decimalDigit? _ = ds at few read
        have small : ∀ d ∈ ds, d < 10 := by
          intro d mem
          rw [← digits] at mem
          obtain ⟨c, -, value⟩ := List.mem_filterMap.mp mem
          exact digitIn_lt value
        have abs : n.natAbs = ofDigits ds := by
          cases read
          split <;> omega
        rw [abs]
        exact length_digitsOf_ofDigits small (Nat.succ_pos _) (Nat.not_lt.mp few)

theorem nonneg_of_readInteger {text : String} {n : Int}
    (unsigned : (splitSign (text.toList.dropWhile isNumeralBlank)).1 = false)
    (read : readInteger text = .ok n) : 0 ≤ n := by
  unfold readInteger at read
  simp only [unsigned] at read
  split at read
  · cases read
  · split at read
    · cases read
    · split at read
      · cases read
      · cases read
        exact Int.natCast_nonneg _

end Mini.Text
