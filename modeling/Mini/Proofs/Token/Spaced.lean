import Mini.Proofs.Token.Lexing

/-!
# Words with spaces between them

A space carries no word on, so a text of words with a space between each two of them divides
into these words. The lexer finds them again, whatever they are: two symbols that would make an
operator, a comment opener or a fraction if they touched stay apart, and what stands between
the quotes of a string literal belongs to it.
-/

namespace Mini.Lexical

open Text Lexeme

/-- The words with one space between each two of them. -/
def spaced (words : List Word) : String :=
  " ".intercalate (words.map Prod.snd)

/-- No kind of token goes on with a space. -/
theorem stops_space (kind : TokenKind) (following : List Char) :
    Stops (continues kind) (' ' :: following) := by
  have word : continuesWord ' ' = false := by decide
  show continues kind ' ' = false
  cases kind with
  | ident | ifWord | elseWord | funcWord | returnWord | whileWord => exact word
  | number => exact Bool.or_eq_false_iff.mpr ⟨rfl, word⟩
  | period => exact (by decide : isDigit ' ' = false)
  | _ => rfl

theorem toList_spaced (w v : Word) (words : List Word) :
    (spaced (w :: v :: words)).toList = w.2.toList ++ ' ' :: (spaced (v :: words)).toList := by
  simp only [spaced, List.map_cons, String.intercalate_cons_cons, String.toList_append,
    List.append_assoc]
  rfl

theorem divided_spaced (p : Position) {words : List Word}
    (valid : ∀ w ∈ words, IsText w.1 w.2) :
    ∃ body : List Token,
      Divided p (spaced words).toList (body.map .token) ∧ body.map Token.word = words := by
  induction words generalizing p with
  | nil => exact ⟨[], .nil, rfl⟩
  | cons w words ih =>
      have isText := valid w List.mem_cons_self
      cases words with
      | nil =>
          have alone : Divided p (w.2.toList ++ []) [.token ⟨w.1, w.2, p⟩] :=
            .token isText trivial .nil
          rw [List.append_nil] at alone
          exact ⟨[⟨w.1, w.2, p⟩], by simpa [spaced] using alone, rfl⟩
      | cons v words =>
          obtain ⟨body, later, found⟩ :=
            ih ((p.advance w.2.toList).advance [' ']) fun u mem =>
              valid u (List.mem_cons_of_mem _ mem)
          refine ⟨⟨w.1, w.2, p⟩ :: body, ?_, ?_⟩
          · rw [toList_spaced]
            exact .token isText (stops_space w.1 _) (.gap (.blank rfl) later)
          · rw [List.map_cons, found]
            rfl

/-- The tokens of a divided text are words of their kinds. -/
theorem Divided.isText {p : Position} {cs : List Char} {pieces : List Piece}
    (h : Divided p cs pieces) : ∀ t ∈ tokens pieces, IsText t.kind t.text := by
  induction h with
  | nil => intro t mem; cases mem
  | gap _ _ ih => exact ih
  | @token p kind text _ _ isText _ _ ih => exact List.forall_mem_cons.mpr ⟨isText, ih⟩
  | scrap _ _ ih => exact ih

end Mini.Lexical

namespace Mini.Token

open Lexical

/-- The lexer finds spaced words again. -/
theorem exists_of_spaced {words : List Word} (valid : ∀ w ∈ words, IsText w.1 w.2) :
    ∃ body finish, ofSource (spaced words) = .ok (body ++ [⟨.endOfText, "", finish⟩]) ∧
      body.map word = words := by
  obtain ⟨body, divided, found⟩ := divided_spaced .start valid
  exact ⟨body, _, accepted_iff.mpr ⟨body, divided, rfl⟩, found⟩

/-- The tokens of a source text are words of their kinds, followed by the mark of the end. -/
theorem isText_of_ofSource {source : String} {result : List Token}
    (accepted : ofSource source = .ok result) :
    ∃ body finish, result = body ++ [⟨.endOfText, "", finish⟩] ∧
      ∀ t ∈ body, IsText t.kind t.text := by
  obtain ⟨body, divided, rfl⟩ := accepted_iff.mp accepted
  have texts := divided.isText
  rw [tokens_tokens] at texts
  exact ⟨body, _, rfl, texts⟩

/-- **Lexing undoes printing.** Words of any kinds with spaces between them are found again, in
order and nothing else; so the tokens of any source text are found again when their texts are
written with spaces between them. -/
theorem ofSource_spaced :
    (∀ words : List Word, (∀ w ∈ words, IsText w.1 w.2) →
      ∃ body finish, ofSource (spaced words) = .ok (body ++ [⟨.endOfText, "", finish⟩]) ∧
        body.map word = words) ∧
    ∀ source result, ofSource source = .ok result →
      ∃ body finish again finish', result = body ++ [⟨.endOfText, "", finish⟩] ∧
        ofSource (spaced (body.map word)) = .ok (again ++ [⟨.endOfText, "", finish'⟩]) ∧
        again.map word = body.map word := by
  refine ⟨fun words valid => exists_of_spaced valid, fun source result accepted => ?_⟩
  obtain ⟨body, finish, same, texts⟩ := isText_of_ofSource accepted
  have valid : ∀ w ∈ body.map word, IsText w.1 w.2 := by
    intro w mem
    obtain ⟨t, inBody, rfl⟩ := List.mem_map.mp mem
    exact texts t inBody
  obtain ⟨again, finish', lexed, found⟩ := exists_of_spaced valid
  exact ⟨body, finish, again, finish', same, lexed, found⟩

/-- Words that would be read as others if they touched. -/
def touching : List Word :=
  [(.assign, "="), (.assign, "="), (.slash, "/"), (.slash, "/"), (.period, "."), (.number, "5"),
    (.ident, "e2"), (.string, "\"/* \\\" //\"")]

theorem touching_isText : ∀ w ∈ touching, IsText w.1 w.2 := by
  have body : IsBody "/* \\\" //".toList := by
    refine .plain ?_ ?_ ?_ (.plain ?_ ?_ ?_ (.plain ?_ ?_ ?_ (.escape rfl
      (.plain ?_ ?_ ?_ (.plain ?_ ?_ ?_ (.plain ?_ ?_ ?_ .nil)))))) <;> decide
  simp only [touching, List.forall_mem_cons]
  refine ⟨.symbol (by decide), .symbol (by decide), .symbol (by decide), .symbol (by decide),
    .symbol (by decide), .number rfl (List.all_eq_true.mp rfl), ?_, .string rfl body, by simp⟩
  exact .name rfl (by decide) (List.all_eq_true.mp rfl) fun kind => by simp [TokenKind.keywords]

theorem ofSource_spaced_touching :
    ((∀ w ∈ touching, IsText w.1 w.2) ∧
      ∃ body finish, ofSource (spaced touching) = .ok (body ++ [⟨.endOfText, "", finish⟩]) ∧
        body.map word = touching) ∧
    ∃ result, ofSource "a==b" = .ok result ∧
      ∃ body finish again finish', result = body ++ [⟨.endOfText, "", finish⟩] ∧
        ofSource (spaced (body.map word)) = .ok (again ++ [⟨.endOfText, "", finish'⟩]) ∧
        again.map word = body.map word := by
  have accepted : ofSource "a==b" = .ok [⟨.ident, "a", ⟨1, 1, 0⟩⟩, ⟨.equal, "==", ⟨1, 2, 1⟩⟩,
      ⟨.ident, "b", ⟨1, 4, 3⟩⟩, ⟨.endOfText, "", ⟨1, 5, 4⟩⟩] := by
    decide +kernel
  exact ⟨⟨touching_isText, ofSource_spaced.1 touching touching_isText⟩, _, accepted,
    ofSource_spaced.2 _ _ accepted⟩

end Mini.Token
