import Mini.Proofs.Token.Heads

/-!
# The kinds of pieces

A text of some kind has just this kind, and a scrap has none. Symbols and keywords are looked
up first, so what has to be shown of the other texts is mostly that they are not among these.
-/

namespace Mini.Lexical

open Text Lexeme

/-! ## The tables -/

theorem symbols_kinds :
    ∀ entry ∈ TokenKind.symbols, TokenKind.ofText? entry.1 = some entry.2 := by
  decide

theorem keywords_kinds :
    ∀ entry ∈ TokenKind.keywords, TokenKind.ofText? entry.1 = some entry.2 := by
  decide

/-- A text with a character of a class that no text of a table has is not in the table. -/
theorem lookup_of_class {table : List (String × TokenKind)} {p : Char → Bool}
    (free : table.all (fun entry => !entry.1.toList.any p) = true) {text : String} {c : Char}
    (mem : c ∈ text.toList) (h : p c = true) : table.lookup text = none := by
  refine List.lookup_eq_none_iff.mpr ?_
  intro entry inTable
  have none := List.all_eq_true.mp free entry inTable
  rw [bne_iff_ne]
  rintro rfl
  rw [List.any_eq_true.mpr ⟨c, mem, h⟩] at none
  cases none

theorem lookup_of_not_mem {table : List (String × TokenKind)} {text : String}
    (other : ∀ kind, (text, kind) ∉ table) : table.lookup text = none := by
  refine List.lookup_eq_none_iff.mpr ?_
  rintro ⟨entry, kind⟩ inTable
  rw [bne_iff_ne]
  rintro rfl
  exact other kind inTable

/-- The kind of a text that is neither a symbol nor a keyword. -/
theorem ofText?_of_chars {text : String} {c : Char} {cs : List Char} (chars : text.toList = c :: cs)
    (noSymbol : TokenKind.symbols.lookup text = none)
    (noKeyword : TokenKind.keywords.lookup text = none) :
    TokenKind.ofText? text =
      if (c :: cs).all Char.isDigit then some .number
      else if c = '\"' then some .string
      else if isLetter c then some .ident
      else none := by
  rw [TokenKind.ofText?, noSymbol, noKeyword, chars]
  rfl

theorem not_all_isDigit {c : Char} {cs : List Char} (other : ∃ d ∈ c :: cs, d.isDigit = false) :
    ¬(c :: cs).all Char.isDigit = true := by
  obtain ⟨d, mem, noDigit⟩ := other
  intro all
  have digit := List.all_eq_true.mp all d mem
  rw [noDigit] at digit
  cases digit

/-- What is no digit of any script is no ASCII digit. -/
theorem not_isDigit_ascii {c : Char} (h : isDigit c = false) : c.isDigit = false := by
  rw [← Bool.not_eq_true]
  intro ascii
  rw [isDigit_of_isDigit ascii] at h
  cases h

/-! ## Kinds -/

theorem IsText.kind {kind : TokenKind} {text : String} (h : IsText kind text) :
    TokenKind.ofText? text = some kind := by
  cases h with
  | symbol mem => exact symbols_kinds _ mem
  | keyword mem => exact keywords_kinds _ mem
  | @number _ c cs chars digits =>
      have mem : c ∈ text.toList := by rw [chars]; exact List.mem_cons_self
      have digit := digits c List.mem_cons_self
      rw [ofText?_of_chars chars (lookup_of_class (p := Char.isDigit) (by decide) mem digit)
        (lookup_of_class (p := Char.isDigit) (by decide) mem digit),
        if_pos (List.all_eq_true.mpr digits)]
  | @name _ c cs chars letter _ noKeyword =>
      have mem : c ∈ text.toList := by rw [chars]; exact List.mem_cons_self
      have noDigit := not_isDigit_ascii (not_isDigit_of_isLetter letter)
      have noQuote : c ≠ '\"' := ne_of_class letter (by decide)
      rw [ofText?_of_chars chars (lookup_of_class (p := isLetter) (by decide) mem letter)
        (lookup_of_not_mem noKeyword), if_neg (not_all_isDigit ⟨c, List.mem_cons_self, noDigit⟩),
        if_neg noQuote, if_pos letter]
  | @string _ body chars _ =>
      have mem : '\"' ∈ text.toList := by rw [chars]; exact List.mem_cons_self
      have noDigit : ∃ d ∈ '\"' :: (body ++ ['\"']), d.isDigit = false :=
        ⟨'\"', List.mem_cons_self, rfl⟩
      rw [ofText?_of_chars chars
        (lookup_of_class (p := (· = '\"')) (by decide) mem (decide_eq_true rfl))
        (lookup_of_class (p := (· = '\"')) (by decide) mem (decide_eq_true rfl)),
        if_neg (not_all_isDigit noDigit), if_pos rfl]

theorem isText_natText (n : Nat) : IsText .number (natText n) := by
  obtain ⟨c, cs, chars, digits⟩ := natText_chars n
  exact .number chars digits

/-- Somewhere in a numeral there is a digit, though it need not be the first character. -/
theorem numeral_head {c : Char} {cs : List Char} (first : beginsNumber c cs = true) :
    (∃ d ∈ c :: cs, isDigit d = true) ∧ c ≠ '\"' ∧ isLetter c = false := by
  rcases Bool.or_eq_true_iff.mp first with digit | point
  · refine ⟨⟨c, List.mem_cons_self, digit⟩, ne_of_class digit (by decide), ?_⟩
    rw [← Bool.not_eq_true]
    intro letter
    rw [not_isDigit_of_isLetter letter] at digit
    cases digit
  · obtain ⟨isPoint, behind⟩ := Bool.and_eq_true_iff.mp point
    obtain rfl := of_decide_eq_true isPoint
    cases cs with
    | nil => cases behind
    | cons d cs => exact ⟨⟨d, List.mem_cons_of_mem _ List.mem_cons_self, behind⟩, by decide, by decide⟩

theorem IsScrap.kind {text : String} {following : List Char} (h : IsScrap text.toList following) :
    TokenKind.ofText? text = none := by
  generalize chars : text.toList = word at h
  cases h with
  | @numeral c cs _ isNumeral first other =>
      obtain ⟨⟨d, inWord, digit⟩, noQuote, noLetter⟩ := numeral_head first
      have mem : d ∈ text.toList := by rw [chars]; exact inWord
      rw [ofText?_of_chars chars (lookup_of_class (p := isDigit) (by decide) mem digit)
        (lookup_of_class (p := isDigit) (by decide) mem digit), if_neg (not_all_isDigit other),
        if_neg noQuote, noLetter]
      rfl
  | @word cs _ run =>
      have mem : '_' ∈ text.toList := by rw [chars]; exact List.mem_cons_self
      have noDigit : ∃ d ∈ '_' :: cs, d.isDigit = false := ⟨'_', List.mem_cons_self, rfl⟩
      have noLetter : isLetter '_' = false := by decide
      rw [ofText?_of_chars chars
        (lookup_of_class (p := (· = '_')) (by decide) mem (decide_eq_true rfl))
        (lookup_of_class (p := (· = '_')) (by decide) mem (decide_eq_true rfl)),
        if_neg (not_all_isDigit noDigit), noLetter]
      rfl
  | @character c _ gap quote digit word noSymbol _ =>
      have mem : c ∈ text.toList := by rw [chars]; exact List.mem_cons_self
      obtain rfl : text = String.ofList [c] := by rw [← chars, String.ofList_toList]
      have noLetter : isLetter c = false := (Bool.or_eq_false_iff.mp word).1
      have noDigit : ∃ d ∈ [c], d.isDigit = false :=
        ⟨c, List.mem_cons_self, not_isDigit_ascii digit⟩
      rw [ofText?_of_chars chars (lookup_of_not_mem noSymbol)
        (lookup_of_class (p := (!isLetter ·)) (by decide) mem (by rw [noLetter]; rfl)),
        if_neg (not_all_isDigit noDigit), if_neg quote, noLetter]
      rfl

end Mini.Lexical
