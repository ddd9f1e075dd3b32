import Mini.Program
import Mini.Proofs.Grammar.Acceptance
import Mini.Proofs.Grammar.FirstFault
import Mini.Proofs.Grammar.Rejections
import Mini.Proofs.Text.Numeral
import Mini.Proofs.Token.Spaced

/-!
# Reading comes to an end

Every list of tokens is a program or is rejected. Where the list has an end of the text, the
rejection is about a token: one that is not what is expected, or a number that cannot be read. What
stands behind the first end of the text is not looked at, so a list can be cut off there, and is
then still long enough. The lexer puts such an end behind every text, and the only numbers of a
text that cannot be read are those that are too long.
-/

namespace Mini

open Grammar Text

variable {locate : Position → Location}

/-- A rejection of a list that goes on with more tokens. -/
def Rejection.extend (more : List Token) : Rejection → Rejection
  | .unexpected expected found rest => .unexpected expected found (rest ++ more)
  | e => e

/-- What stands behind a rejected token is no matter of the message. -/
theorem Rejection.message_extend (file : String) (more : List Token) (e : Rejection) :
    (e.extend more).message file = e.message file := by
  cases e <;> rfl

/-! ## Lists with an end of the text -/

/-- A list with an end of the text is a program, or is rejected at a token: one that has no end of
the text before it and is not what is expected, or a number that cannot be read. -/
theorem Program.ofTokens_cases (locate : Position → Location) {tokens : List Token}
    (ends : ∃ t ∈ tokens, t.kind = .endOfText) :
    (∃ p, ofTokens locate tokens = .ok p) ∨
      (∃ expected before found rest, tokens = before ++ found :: rest ∧
        (∀ t ∈ before, t.kind ≠ .endOfText) ∧
        ofTokens locate tokens = .error (.unexpected expected found rest)) ∨
      ∃ t ∈ tokens, ∃ fault, t.kind = .number ∧ readInteger t.text = .error fault ∧
        ofTokens locate tokens = .error (.badNumeral fault) := by
  cases read : ofTokens locate tokens with
  | ok p => exact .inl ⟨p, rfl⟩
  | error e =>
      have isIn := rejection_isIn read
      cases e with
      | unexpected expected found rest =>
          obtain ⟨⟨before, same, inText⟩, -⟩ := isIn
          exact .inr (.inl ⟨expected, before, found, rest, same, inText, rfl⟩)
      | badNumeral fault =>
          obtain ⟨t, mem, kind, faulty⟩ := isIn
          exact .inr (.inr ⟨t, mem, fault, kind, faulty, rfl⟩)
      | outOfTokens =>
          -- all tokens have been taken, and the end of the text never is
          obtain ⟨before, same, inText⟩ := isIn
          obtain ⟨t, mem, kind⟩ := ends
          rw [same, List.append_nil] at mem
          exact absurd kind (inText t mem)
      | outOfFuel => exact absurd read (ofTokens_enough tokens)

/-- A list with an end of the text is read in the same way when more tokens come behind it. -/
theorem Program.ofTokens_append (locate : Position → Location) {tokens : List Token}
    (ends : ∃ t ∈ tokens, t.kind = .endOfText) (more : List Token) :
    ofTokens locate (tokens ++ more) = (ofTokens locate tokens).mapError (.extend more) := by
  -- one budget for both lists
  have fewer : 5 * tokens.length + 5 ≤ 5 * (tokens ++ more).length + 5 := by
    rw [List.length_append]
    omega
  have same := steady (improves_same locate · false tokens) fewer (statements_enough false tokens)
  have alike := ((alikeAt locate (5 * (tokens ++ more).length + 5)).statements false tokens more).same
  rw [same] at alike
  rcases alike with extended | ⟨out, -⟩
  · rw [ofTokens, ofTokens, extended]
    cases Grammar.statements locate (5 * tokens.length + 5) false tokens with
    | ok result => rfl
    | error e => cases e <;> rfl
  · have rejected := (ofTokens_eq_error (Nat.le_refl _)).mpr out
    rcases ofTokens_cases locate ends with
      ⟨p, accepted⟩ | ⟨_, _, _, _, _, _, other⟩ | ⟨_, _, _, _, _, other⟩
    · rw [accepted] at rejected
      cases rejected
    · rw [other] at rejected
      cases rejected
    · rw [other] at rejected
      cases rejected

/-- A program has an end of the text. -/
theorem Program.exists_endOfText {tokens : List Token} {p : Program}
    (accepted : ofTokens locate tokens = .ok p) : ∃ t ∈ tokens, t.kind = .endOfText := by
  obtain ⟨t, us, derives, kind⟩ := derivation_of_ofTokens accepted
  exact ⟨t, derives.suffix.subset List.mem_cons_self, kind⟩

/-! ## Numbers -/

/-- The text of a token is digits, at least one and no more than are read. -/
def Token.IsShortDecimal (t : Token) : Prop :=
  t.text.toList ≠ [] ∧ (∀ c ∈ t.text.toList, c.isDigit = true) ∧
    t.text.toList.length ≤ digitLimit

instance (t : Token) : Decidable t.IsShortDecimal :=
  let _ := List.decidableBAll (fun c : Char => c.isDigit = true) t.text.toList
  inferInstanceAs (Decidable (_ ∧ _ ∧ _))

theorem Token.IsShortDecimal.readable {t : Token} (h : t.IsShortDecimal) (fault : NumeralFault) :
    readInteger t.text ≠ .error fault := by
  intro faulty
  obtain ⟨nonempty, digits, short⟩ := h
  obtain ⟨c, cs, chars⟩ := List.exists_cons_of_ne_nil nonempty
  rw [chars] at digits
  obtain ⟨-, long⟩ := tooLong_of_readInteger chars digits faulty
  omega

/-- The text of a number is digits: no symbol and no keyword is one. -/
theorem Lexical.digits_of_isText {text : String} (h : IsText .number text) :
    ∃ c cs, text.toList = c :: cs ∧ ∀ d ∈ c :: cs, d.isDigit = true := by
  cases h with
  | symbol table =>
      have other : ∀ entry ∈ TokenKind.symbols, entry.2 ≠ .number := by decide
      exact absurd rfl (other _ table)
  | keyword table =>
      have other : ∀ entry ∈ TokenKind.keywords, entry.2 ≠ .number := by decide
      exact absurd rfl (other _ table)
  | number chars digits => exact ⟨_, _, chars, digits⟩

/-! ## Sources -/

/-- Behind a lexical rejection there is a fault. -/
theorem Token.faults_ne_nil {source : String} {faults : List LexicalFault}
    (rejected : ofSource source = .error faults) : faults ≠ [] := by
  unfold ofSource at rejected
  dsimp only at rejected
  split at rejected
  · rename_i some
    cases rejected
    exact some
  · split at rejected
    · rename_i some
      cases rejected
      exact some
    · cases rejected

/-- A source is rejected by the grammar at a token that is not what is expected, or at a number that
is too long. Its tokens do not run out, and neither does the budget. -/
theorem Program.rejection_cases {source : String} {locate : Position → Location}
    {tokens : List Token} {rejection : Rejection} (lexed : Token.ofSource source = .ok tokens)
    (rejected : ofTokens locate tokens = .error rejection) :
    (∃ expected found rest, rejection = .unexpected expected found rest) ∨
      ∃ t ∈ tokens, t.kind = .number ∧ digitLimit < t.text.toList.length ∧
        rejection = .badNumeral (.tooLong t.text.toList.length) := by
  obtain ⟨body, finish, rfl, texts⟩ := Token.isText_of_ofSource lexed
  have ends : ∃ t ∈ body ++ [⟨.endOfText, "", finish⟩], t.kind = .endOfText :=
    ⟨_, List.mem_append_right body List.mem_cons_self, rfl⟩
  rcases ofTokens_cases locate ends with
    ⟨p, accepted⟩ | ⟨expected, _, found, rest, _, _, other⟩ | ⟨t, mem, fault, kind, faulty, other⟩
  · rw [accepted] at rejected
    cases rejected
  · rw [other] at rejected
    cases rejected
    exact .inl ⟨expected, found, rest, rfl⟩
  · rw [other] at rejected
    cases rejected
    rcases List.mem_append.mp mem with inBody | last
    · obtain ⟨c, cs, chars, digits⟩ := Lexical.digits_of_isText (kind ▸ texts t inBody)
      obtain ⟨rfl, long⟩ := tooLong_of_readInteger chars digits faulty
      exact .inr ⟨t, mem, kind, long, rfl⟩
    · rw [List.mem_singleton.mp last] at kind
      cases kind

/-- How a source is rejected: by the lexer, at an unexpected token, or at a number that is too
long. -/
inductive Source.Rejected (source : Source) : SourceFault → Prop
  | lexical {faults : List LexicalFault} :
      Token.ofSource source.text = .error faults → faults ≠ [] → Rejected source (.lexical faults)
  | unexpected {tokens before rest : List Token} {expected : Expected} {found : Token} :
      Token.ofSource source.text = .ok tokens → tokens = before ++ found :: rest →
      Rejected source (.grammar (.unexpected expected found rest))
  | numeral {tokens : List Token} {t : Token} :
      Token.ofSource source.text = .ok tokens → t ∈ tokens → t.kind = .number →
      digitLimit < t.text.toList.length →
      Rejected source (.grammar (.badNumeral (.tooLong t.text.toList.length)))

/-- **Reading is total.** A list of tokens with an end of the text, whose numbers are digits and not
too many, is a program or is rejected at a token; no token behind its first end of the text is
asked for, so that it may be cut off there, and whatever comes behind changes neither the program
nor the message. A list without an end of the text is never a program. So every source is a program
or is rejected: by the lexer, at a token that is not what is expected, or at a number that has too
many digits, if it has one. -/
theorem Program.reading_total (locate : Position → Location) :
    (∀ tokens : List Token, (∃ t ∈ tokens, t.kind = .endOfText) →
      (∀ t ∈ tokens, t.kind = .number → t.IsShortDecimal) →
      (∃ p, ofTokens locate tokens = .ok p) ∨
        ∃ expected before found rest, tokens = before ++ found :: rest ∧
          (∀ t ∈ before, t.kind ≠ .endOfText) ∧
          ofTokens locate tokens = .error (.unexpected expected found rest)) ∧
    (∀ tokens more : List Token, (∃ t ∈ tokens, t.kind = .endOfText) →
      ofTokens locate (tokens ++ more) = (ofTokens locate tokens).mapError (.extend more) ∧
      ∀ file, (ofTokens locate (tokens ++ more)).mapError (·.message file) =
        (ofTokens locate tokens).mapError (·.message file)) ∧
    (∀ tokens : List Token, (∀ t ∈ tokens, t.kind ≠ .endOfText) →
      ∃ e, e ≠ .outOfFuel ∧ ofTokens locate tokens = .error e) ∧
    ∀ source : Source, (∃ p, ofSource source = .ok p) ∨
      ∃ fault, source.Rejected fault ∧ ofSource source = .error fault := by
  refine ⟨?_, ?_, ?_, ?_⟩
  · intro tokens ends decimals
    rcases ofTokens_cases locate ends with
      accepted | rejected | ⟨t, mem, fault, kind, faulty, -⟩
    · exact .inl accepted
    · exact .inr rejected
    · exact absurd faulty ((decimals t mem kind).readable fault)
  · intro tokens more ends
    have extended := ofTokens_append locate ends more
    refine ⟨extended, fun file => ?_⟩
    rw [extended]
    cases ofTokens locate tokens with
    | ok p => rfl
    | error e => exact congrArg Except.error (e.message_extend file more)
  · intro tokens inText
    cases read : ofTokens locate tokens with
    | ok p =>
        obtain ⟨t, mem, kind⟩ := exists_endOfText read
        exact absurd kind (inText t mem)
    | error e =>
        refine ⟨e, ?_, rfl⟩
        rintro rfl
        exact ofTokens_enough tokens read
  · intro source
    unfold ofSource
    cases lexed : Token.ofSource source.text with
    | error faults => exact .inr ⟨_, .lexical lexed (Token.faults_ne_nil lexed), rfl⟩
    | ok tokens =>
        cases read : ofTokens source.listing.locate tokens with
        | ok p => exact .inl ⟨p, by simp only [read]⟩
        | error rejection =>
            refine .inr ⟨.grammar rejection, ?_, by simp only [read]⟩
            rcases rejection_cases lexed read with
              ⟨expected, found, rest, rfl⟩ | ⟨t, mem, kind, long, rfl⟩
            · obtain ⟨⟨before, same, -⟩, -⟩ := rejection_isIn read
              exact .unexpected lexed same
            · exact .numeral lexed mem kind long

/-- A list that is rejected before its end, with a list behind it that has no end of the text. -/
theorem Program.reading_total_trailing :
    let locate : Position → Location := fun _ => default
    (∃ t ∈ unclosed, t.kind = .endOfText) ∧
      (∀ t ∈ unclosed, t.kind = .number → t.IsShortDecimal) ∧
      (∀ t ∈ callWithoutComma, t.kind ≠ .endOfText) ∧
      ((∃ p, ofTokens locate unclosed = .ok p) ∨
        ∃ expected before found rest, unclosed = before ++ found :: rest ∧
          (∀ t ∈ before, t.kind ≠ .endOfText) ∧
          ofTokens locate unclosed = .error (.unexpected expected found rest)) ∧
      ofTokens locate (unclosed ++ callWithoutComma) =
        (ofTokens locate unclosed).mapError (.extend callWithoutComma) ∧
      ∃ e, e ≠ .outOfFuel ∧ ofTokens locate callWithoutComma = .error e := by
  have ends : ∃ t ∈ unclosed, t.kind = .endOfText := by decide
  have decimals : ∀ t ∈ unclosed, t.kind = .number → t.IsShortDecimal := by decide
  have inText : ∀ t ∈ callWithoutComma, t.kind ≠ .endOfText := by decide
  obtain ⟨ended, cut, endless, -⟩ := reading_total fun _ => default
  exact ⟨ends, decimals, inText, ended _ ends decimals, (cut _ _ ends).1, endless _ inText⟩

end Mini
