import Mini.Proofs.Syntax.Canonical

/-!
# Literals say their values again

A literal printed from a value is a word of its kind, and it is read as the value. A number can
always be printed when it came from a numeral: leading zeros aside, no numeral has fewer digits.
-/

namespace Mini

open Text Lexical

/-! ## Strings -/

namespace StringLiteral

theorem resolve_escape (c : Char) (rest : List Char) :
    resolve (escape c ++ rest) = c :: resolve rest := by
  unfold escape
  split
  · subst c
    rfl
  · rename_i backslash
    split
    · subst c
      rfl
    · split
      · subst c
        rfl
      · exact resolve.eq_3 _ _ fun _ _ same _ => backslash same

theorem resolve_flatMap_escape (value : List Char) : resolve (value.flatMap escape) = value := by
  induction value with
  | nil => rfl
  | cons c value ih => rw [List.flatMap_cons, resolve_escape, ih]

/-- **Decoding undoes encoding.** -/
theorem decode_encode (value : String) : decode (encode value) = value := by
  rw [decode, encode, String.toList_ofList, List.drop_one, List.tail_cons, List.dropLast_concat,
    resolve_flatMap_escape, String.ofList_toList]

theorem isBody_escape (c : Char) {cs : List Char} (later : IsBody cs) :
    IsBody (escape c ++ cs) := by
  unfold escape
  split
  · exact .escape rfl later
  · rename_i backslash
    split
    · exact .escape rfl later
    · rename_i quote
      split
      · exact .escape rfl later
      · rename_i lineFeed
        exact .plain quote backslash lineFeed later

theorem isBody_flatMap_escape (value : List Char) : IsBody (value.flatMap escape) := by
  induction value with
  | nil => exact .nil
  | cons c value ih =>
      rw [List.flatMap_cons]
      exact isBody_escape c ih

theorem isText_encode (value : String) : IsText .string (encode value) :=
  .string String.toList_ofList (isBody_flatMap_escape value.toList)

end StringLiteral

/-! ## Numbers -/

namespace Lexical

theorem symbols_not_literals :
    ∀ entry ∈ TokenKind.symbols, entry.2 ≠ .number ∧ entry.2 ≠ .string := by
  decide

theorem keywords_not_literals :
    ∀ entry ∈ TokenKind.keywords, entry.2 ≠ .number ∧ entry.2 ≠ .string := by
  decide

/-- A number token is made of digits, so it has no sign. -/
theorem IsText.nonneg {text : String} {n : Int} (h : IsText .number text)
    (read : readInteger text = .ok n) : 0 ≤ n := by
  generalize kind : TokenKind.number = other at h
  cases h with
  | symbol mem => exact absurd kind.symm (symbols_not_literals _ mem).1
  | keyword mem => exact absurd kind.symm (keywords_not_literals _ mem).1
  | @number _ c cs chars digits =>
      refine nonneg_of_readInteger ?_ read
      rw [chars, splitSign_of_isDigit (digits c List.mem_cons_self)]
  | name => cases kind
  | string => cases kind

theorem IsText.integerText {text : String} {n : Int} (h : IsText .number text)
    (read : readInteger text = .ok n) : IsText .number (integerText n) := by
  have nonneg := h.nonneg read
  rw [Text.integerText, if_neg (Int.not_lt.mpr nonneg)]
  exact isText_natText _

end Lexical

end Mini
