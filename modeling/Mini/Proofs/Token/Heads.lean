import Mini.Proofs.Text.Classes
import Mini.Proofs.Text.Numeral
import Mini.Proofs.Token.Division
import Mini.Proofs.Token.Words

/-!
# Pieces at the head of a text

The lexer measures gaps, bodies of string literals and numerals by counting characters. Each
count is exactly the length of the piece that the rules put there, and where it succeeds there
is such a piece. So a piece at the head of a text is skipped or is the next lexeme.
-/

namespace Mini.Lexical

open Text Lexeme

/-! ## Runs -/

theorem Stops.takeWhile {p : Char → Bool} {following : List Char} (h : Stops p following) :
    following.takeWhile p = [] := by
  cases following with
  | nil => rfl
  | cons c cs => exact List.takeWhile_cons_of_neg (ne_true_of_eq_false h)

theorem IsRun.takeWhile {p : Char → Bool} {run following : List Char}
    (h : IsRun p run following) : (run ++ following).takeWhile p = run := by
  rw [List.takeWhile_append_of_pos h.all, h.stops.takeWhile, List.append_nil]

/-- Every text begins with a run, though it may be empty. -/
theorem exists_isRun (p : Char → Bool) (cs : List Char) :
    ∃ run following, cs = run ++ following ∧ IsRun p run following := by
  refine ⟨cs.takeWhile p, cs.dropWhile p, List.takeWhile_append_dropWhile.symm, ?_, ?_⟩
  · exact fun c mem => List.mem_takeWhile_imp mem
  · cases left : cs.dropWhile p with
    | nil => trivial
    | cons c rest =>
        have head := List.head?_dropWhile_not p cs
        rw [left] at head
        simpa [Stops] using head

/-! ## Gaps -/

theorem closing?_of_not_infix {cs : List Char} (inside : ¬['*', '/'] <:+: cs)
    (following : List Char) : closing? (cs ++ '*' :: '/' :: following) = some (cs.length + 2) := by
  induction cs with
  | nil => rfl
  | cons c cs ih =>
      have later : ¬['*', '/'] <:+: cs := fun h => inside (h.trans (List.suffix_cons c cs).isInfix)
      rw [List.cons_append, closing?.eq_3, ih later]
      · rfl
      · -- an asterisk and a slash here would stand inside the comment
        rintro tail rfl same
        cases cs with
        | nil => cases same
        | cons d cs =>
            cases same
            exact inside ⟨[], cs, rfl⟩

theorem exists_of_closing? {cs : List Char} {n : Nat} (h : closing? cs = some n) :
    ∃ inside following, cs = inside ++ '*' :: '/' :: following ∧ n = inside.length + 2 ∧
      ¬['*', '/'] <:+: inside := by
  fun_induction closing? cs generalizing n with
  | case1 => cases h
  | case2 following =>
      cases h
      exact ⟨[], following, rfl, rfl, by simp⟩
  | case3 c cs open' ih =>
      obtain ⟨m, closed, rfl⟩ := Option.map_eq_some_iff.mp h
      obtain ⟨inside, following, rfl, rfl, free⟩ := ih closed
      refine ⟨c :: inside, following, rfl, rfl, fun found => ?_⟩
      rcases List.infix_cons_iff.mp found with first | later
      · obtain ⟨tail, same⟩ := first
        cases same
        exact open' _ rfl rfl
      · exact free later

/-- A text begins with a stretch that leaves no fragment. -/
def Skips (gap following : List Char) : Prop :=
  ∃ c cs, gap = c :: cs ∧ ofChars c (cs ++ following) = ⟨cs.length + 1, false, []⟩

theorem IsGap.skips {gap following : List Char} (h : IsGap gap following) :
    Skips gap following := by
  cases h with
  | @blank c _ blank => exact ⟨c, [], rfl, by simp [ofChars, blank]⟩
  | @lineComment cs _ run =>
      refine ⟨'/', '/' :: cs, rfl, ?_⟩
      have taken : (cs ++ following).takeWhile (fun c => !decide (c = '\n')) = cs := by
        simpa using run.takeWhile
      simp [ofChars, isGap, taken]
  | @blockComment cs _ inside =>
      refine ⟨'/', '*' :: (cs ++ ['*', '/']), rfl, ?_⟩
      have closed := closing?_of_not_infix inside following
      simp [ofChars, isGap, Lexeme.blockComment, closed]

/-! ## String literals -/

theorem IsBody.rest {body : List Char} (h : IsBody body) (following : List Char) :
    StringLiteral.rest (body ++ '\"' :: following) = ⟨body.length + 1, true, []⟩ := by
  induction h with
  | nil => rfl
  | @plain c cs quote backslash lineFeed _ ih =>
      rw [List.cons_append, StringLiteral.rest.eq_6 _ _ quote lineFeed
        (fun same _ => backslash same) fun _ _ same _ => backslash same, ih]
      rfl
  | escape allowed _ ih =>
      rw [List.cons_append, List.cons_append, StringLiteral.rest, ih, if_pos allowed]
      rfl

/-- A literal that is closed and has only allowed escapes has a body of them. -/
theorem exists_of_rest {cs : List Char} (closed : (StringLiteral.rest cs).closed = true)
    (escapes : (StringLiteral.rest cs).badEscapes = []) :
    ∃ body following, cs = body ++ '\"' :: following ∧ IsBody body ∧
      StringLiteral.rest cs = ⟨body.length + 1, true, []⟩ := by
  fun_induction StringLiteral.rest cs with
  | case1 => cases closed
  | case2 following => exact ⟨[], following, rfl, .nil, rfl⟩
  | case3 => cases closed
  | case4 => cases closed
  | case5 c cs ih =>
      obtain ⟨here, later⟩ := List.append_eq_nil_iff.mp escapes
      obtain ⟨body, following, rfl, isBody, rest⟩ := ih closed (List.map_eq_nil_iff.mp later)
      have allowed : (StringLiteral.escapeValue? c).isSome = true := by
        by_contra other
        rw [if_neg other] at here
        cases here
      refine ⟨'\\' :: c :: body, following, rfl, .escape allowed isBody, ?_⟩
      rw [rest, here]
      rfl
  | case6 c cs quote lineFeed single pair ih =>
      obtain ⟨body, following, rfl, isBody, rest⟩ := ih closed (List.map_eq_nil_iff.mp escapes)
      have backslash : c ≠ '\\' := by
        rintro rfl
        cases body with
        | nil => exact pair _ _ rfl rfl
        | cons d body => exact pair _ _ rfl rfl
      refine ⟨c :: body, following, rfl, .plain quote backslash lineFeed isBody, ?_⟩
      rw [rest]
      rfl

/-! ## Numerals -/

theorem IsFraction.eq {part following : List Char} (h : IsFraction part following) :
    fraction (part ++ following) = part := by
  cases h with
  | absent stops =>
      cases following with
      | nil => rfl
      | cons c cs =>
          have point : c ≠ '.' := by simpa [Stops] using stops
          rw [List.nil_append, fraction]
          rintro _ ⟨⟩
          exact point rfl
  | present run => rw [List.cons_append, fraction, run.takeWhile]

theorem exists_isFraction (cs : List Char) :
    ∃ part following, cs = part ++ following ∧ IsFraction part following := by
  by_cases point : cs.head? = some '.'
  · obtain ⟨rest, rfl⟩ := List.head?_eq_some_iff.mp point
    obtain ⟨digits, following, rfl, run⟩ := exists_isRun isDigit rest
    exact ⟨'.' :: digits, following, rfl, .present run⟩
  · refine ⟨[], cs, rfl, .absent ?_⟩
    cases cs with
    | nil => trivial
    | cons c cs => simpa [Stops] using point

theorem IsExponent.eq {part following : List Char} (h : IsExponent part following) :
    exponent (part ++ following) = part := by
  cases h with
  | absent stops =>
      cases following with
      | nil => rfl
      | cons c cs =>
          have other : ¬(c = 'e' ∨ c = 'E') := by simpa [Stops] using stops
          rw [List.nil_append, exponent, if_neg other]
  | @unsigned c digits _ letter run stops =>
      have none : sign (digits ++ following) = [] := by
        rw [sign]
        · rintro _ same
          rw [same] at stops
          simp [Stops] at stops
        · rintro _ same
          rw [same] at stops
          simp [Stops] at stops
      rw [List.cons_append, exponent, if_pos letter]
      simp [none, run.takeWhile]
  | @signed c mark digits _ letter isSign run =>
      have single : sign (mark :: (digits ++ following)) = [mark] := by
        rcases isSign with rfl | rfl <;> rfl
      rw [List.cons_append, List.cons_append, exponent, if_pos letter]
      simp [single, run.takeWhile]

theorem exists_isExponent (cs : List Char) :
    ∃ part following, cs = part ++ following ∧ IsExponent part following := by
  cases cs with
  | nil => exact ⟨[], [], rfl, .absent trivial⟩
  | cons c cs =>
      by_cases letter : c = 'e' ∨ c = 'E'
      · by_cases signed : ∃ sign rest, cs = sign :: rest ∧ (sign = '+' ∨ sign = '-')
        · obtain ⟨sign, rest, rfl, isSign⟩ := signed
          obtain ⟨digits, following, rfl, run⟩ := exists_isRun isDigit rest
          exact ⟨c :: sign :: digits, following, rfl, .signed letter isSign run⟩
        · have unsigned : Stops (fun c => c = '+' || c = '-') cs := by
            cases cs with
            | nil => trivial
            | cons d rest => simpa [Stops] using signed
          obtain ⟨digits, following, rfl, run⟩ := exists_isRun isDigit cs
          exact ⟨c :: digits, following, rfl, .unsigned letter run unsigned⟩
      · exact ⟨[], c :: cs, rfl, .absent (by simpa [Stops] using letter)⟩

theorem IsNumeral.eq {word following : List Char} (h : IsNumeral word following) :
    numeral (word ++ following) = word := by
  cases h with
  | @parts whole fraction exponent tail _ isWhole isFraction isExponent isTail =>
      rw [numeral]
      simp only [List.append_assoc, isWhole.takeWhile, List.drop_left, isFraction.eq,
        isExponent.eq, isTail.takeWhile]

/-! ## Pieces -/

theorem Stops.mono {p q : Char → Bool} {following : List Char} (h : Stops p following)
    (weaker : ∀ c, q c = true → p c = true) : Stops q following := by
  cases following with
  | nil => trivial
  | cons c cs =>
      show q c = false
      rw [← Bool.not_eq_true]
      intro holds
      have both := (weaker c holds).symm.trans h
      cases both

/-- Characters that a class tells apart are different. -/
theorem ne_of_class {p : Char → Bool} {c d : Char} (h : p c = true) (h' : p d = false) :
    c ≠ d := by
  rintro rfl
  rw [h] at h'
  cases h'

theorem not_isGap {c : Char} (space : c ≠ ' ') (tab : c ≠ '\t') (ret : c ≠ '\r')
    (lineFeed : c ≠ '\n') : isGap c = false := by
  simp [isGap, space, tab, ret, lineFeed]

theorem isGap_of_isDigit {c : Char} (digit : isDigit c = true) : isGap c = false := by
  refine not_isGap ?_ ?_ ?_ ?_ <;> exact ne_of_class digit (by decide)

theorem isGap_of_isLetter {c : Char} (letter : isLetter c = true) : isGap c = false := by
  refine not_isGap ?_ ?_ ?_ ?_ <;> exact ne_of_class letter (by decide)

theorem continuesWord_of_isDigit {c : Char} (digit : isDigit c = true) :
    continuesWord c = true := by
  simp [continuesWord, isNumeric_of_isDigit digit]

theorem begins_of_run {c : Char} {cs following : List Char} (first : beginsName c = true)
    (run : IsRun continuesWord cs following) : Begins (c :: cs) following := by
  refine ⟨c, cs, rfl, ?_⟩
  simp only [beginsName, Bool.and_eq_true, Bool.not_eq_true', decide_eq_true_eq] at first
  obtain ⟨⟨⟨⟨⟨gap, slash⟩, quote⟩, point⟩, digit⟩, word⟩ := first
  simp [ofChars, beginsNumber, gap, slash, quote, point, digit, word, run.takeWhile]

theorem beginsName_of_isLetter {c : Char} (letter : isLetter c = true) : beginsName c = true := by
  have slash : c ≠ '/' := ne_of_class letter (by decide)
  have quote : c ≠ '\"' := ne_of_class letter (by decide)
  have point : c ≠ '.' := ne_of_class letter (by decide)
  simp [beginsName, isGap_of_isLetter letter, slash, quote, point, not_isDigit_of_isLetter letter,
    beginsWord, letter]

theorem begins_of_numeral {c : Char} {cs following : List Char}
    (numeral : IsNumeral (c :: cs) following) (first : beginsNumber c cs = true) :
    Begins (c :: cs) following := by
  have chars := numeral.eq
  rw [List.cons_append] at chars
  refine ⟨c, cs, rfl, ?_⟩
  rcases Bool.or_eq_true_iff.mp first with digit | point
  · have slash : c ≠ '/' := ne_of_class digit (by decide)
    have quote : c ≠ '\"' := ne_of_class digit (by decide)
    simp [ofChars, isGap_of_isDigit digit, slash, quote, beginsNumber, digit, chars]
  · obtain ⟨isPoint, behind⟩ := Bool.and_eq_true_iff.mp point
    obtain rfl := of_decide_eq_true isPoint
    cases cs with
    | nil => cases behind
    | cons d cs =>
        have digit : isDigit d = true := behind
        rw [List.cons_append] at chars
        simp [ofChars, isGap, beginsNumber, digit, chars]

theorem stops_continuesWord {following : List Char} (stops : Stops (continues .number) following) :
    Stops continuesWord following :=
  stops.mono fun c h => by simp [continues, h]

/-- Digits are a numeral of their own where nothing carries a number on. -/
theorem isNumeral_of_digits {digits following : List Char} (all : ∀ d ∈ digits, d.isDigit = true)
    (stops : Stops (continues .number) following) : IsNumeral digits following := by
  have word := stops_continuesWord stops
  have numeral : IsNumeral (digits ++ ([] ++ ([] ++ []))) following := by
    refine .parts ⟨fun d mem => isDigit_of_isDigit (all d mem), ?_⟩ (.absent ?_) (.absent ?_)
      ⟨by simp, word⟩
    · exact word.mono fun c h => continuesWord_of_isDigit h
    · exact stops.mono fun c h => by simp_all [continues]
    · refine word.mono fun c letter => ?_
      have letter : c = 'e' ∨ c = 'E' := by simpa using letter
      rcases letter with rfl | rfl <;> decide
  simpa using numeral

theorem begins_of_digits {c : Char} {cs following : List Char}
    (digits : ∀ d ∈ c :: cs, d.isDigit = true) (stops : Stops (continues .number) following) :
    Begins (c :: cs) following := by
  have digit := isDigit_of_isDigit (digits c List.mem_cons_self)
  have first : beginsNumber c cs = true := by rw [beginsNumber, digit]; rfl
  exact begins_of_numeral (isNumeral_of_digits digits stops) first

/-- What separates words carries on neither a number nor a name. -/
theorem stops_of_separated {following : List Char} (separated : Separated following) :
    Stops (continues .number) following := by
  cases following with
  | nil => trivial
  | cons c cs =>
      simp only [Separated, separates, Bool.and_eq_true, Bool.not_eq_true',
        decide_eq_true_eq] at separated
      obtain ⟨⟨⟨⟨word, -⟩, point⟩, -⟩, -⟩ := separated
      simp [Stops, continues, word, point]

theorem begins_of_name {c : Char} {cs following : List Char} (first : beginsName c = true)
    (others : cs.all continuesWord = true) (separated : Separated following) :
    Begins (c :: cs) following :=
  begins_of_run first
    ⟨List.all_eq_true.mp others, stops_continuesWord (stops_of_separated separated)⟩

theorem begins_of_body {body : List Char} (h : IsBody body) (following : List Char) :
    Begins ('\"' :: (body ++ ['\"'])) following := by
  refine ⟨'\"', body ++ ['\"'], rfl, ?_⟩
  have rest := h.rest following
  simp [ofChars, isGap, stringLiteral, rest]

theorem begins_slash {following : List Char}
    (stops : Stops (fun c => c = '/' || c = '*') following) : Begins ['/'] following := by
  refine ⟨'/', [], rfl, ?_⟩
  have slash : following.head? ≠ some '/' := by
    rintro same
    obtain ⟨rest, rfl⟩ := List.head?_eq_some_iff.mp same
    cases stops
  have asterisk : following.head? ≠ some '*' := by
    rintro same
    obtain ⟨rest, rfl⟩ := List.head?_eq_some_iff.mp same
    cases stops
  have digit : isDigit '/' = false := by decide
  have word : beginsWord '/' = false := by decide
  simp [ofChars, isGap, slash, asterisk, beginsNumber, digit, word]

theorem begins_point {following : List Char} (stops : Stops isDigit following) :
    Begins ['.'] following := by
  refine ⟨'.', [], rfl, ?_⟩
  have behind : (following.head?.map isDigit).getD false = false := by
    cases following with
    | nil => rfl
    | cons c cs => exact stops
  have digit : isDigit '.' = false := by decide
  have word : beginsWord '.' = false := by decide
  simp [ofChars, isGap, beginsNumber, digit, behind, word]

end Mini.Lexical
