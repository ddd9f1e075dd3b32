import Mini.Program
import Mini.Proofs.Syntax.Places

/-!
# From a program to its text and back

A program that was read from a source is read again from its canonical text: the words of the
tree are words, so the lexer finds them where spaces stand between them; they derive as the tree;
and where they stand shows in places only.
-/

namespace Mini

open Grammar Lexical

theorem words_printed (words : List Word) (rest : List Token) :
    (printed words rest).map Token.word = words ++ rest.map Token.word := by
  rw [printed, List.map_append, List.map_map]
  exact congrArg (· ++ _) (List.map_id _)

theorem proper_of_ofSource {source : String} {tokens : List Token}
    (accepted : Token.ofSource source = .ok tokens) : Proper tokens := by
  obtain ⟨body, finish, rfl, texts⟩ := Token.isText_of_ofSource accepted
  intro t mem other
  rcases List.mem_append.mp mem with inBody | last
  · exact texts t inBody
  · obtain rfl := List.mem_singleton.mp last
    exact absurd rfl other

/-- The words of a program that was read are a program again, and an end of the text behind
them. -/
theorem Program.ofTokens_printed {locate : Position → Location} {ts : List Token} {p : Program}
    (accepted : Program.ofTokens locate ts = .ok p) :
    Program.ofTokens nowhere (printed p.words [Word.token (.endOfText, "")]) = .ok p.bare := by
  obtain ⟨t, us, derives, -⟩ := Program.derivation_of_ofTokens accepted
  have closes : ClosesStmts false [Word.token (.endOfText, "")] := rfl
  exact Program.ofTokens_of_derivation (derives.printed fun _ => ⟨rfl, rfl⟩) closes

theorem Program.spelled_words {source : Source} {p : Program}
    (accepted : Program.ofSource source = .ok p) : Spelled p.words := by
  obtain ⟨tokens, lexed, parsed⟩ := Program.ofSource_eq_ok_iff.mp accepted
  obtain ⟨t, us, derives, -⟩ := Program.derivation_of_ofTokens parsed
  exact derives.spelled (proper_of_ofSource lexed)

/-- **A program is read again from its canonical text**, under any name: the text is accepted,
and the program is the same up to places. -/
theorem Program.exists_ofSource_text {source : Source} {p : Program}
    (accepted : Program.ofSource source = .ok p) (file : String) :
    ∃ p', Program.ofSource ⟨file, p.text⟩ = .ok p' ∧ p'.bare = p.bare := by
  obtain ⟨tokens, -, parsed⟩ := Program.ofSource_eq_ok_iff.mp accepted
  obtain ⟨body, finish, lexed, words⟩ := Token.exists_of_spaced (Program.spelled_words accepted)
  let eof : Token := ⟨.endOfText, "", finish⟩
  have lexed : Token.ofSource p.text = .ok (body ++ [eof]) := lexed
  -- the tokens of the text are the words of the tree, which are the tree again
  have same : (body ++ [eof]).map Token.word =
      (printed p.words [Word.token (.endOfText, "")]).map Token.word := by
    rw [List.map_append, words, words_printed]
    rfl
  obtain ⟨p', parsed', bare⟩ := Program.exists_ofTokens_of_words (Program.ofTokens_printed parsed)
    same (Source.mk file p.text).listing.locate
  refine ⟨p', ?_, ?_⟩
  · exact Program.ofSource_eq_ok_iff.mpr ⟨_, lexed, parsed'⟩
  · rw [bare, Program.bare, Program.bare, Stmt.listBare_listBare]

/-- A source whose literals, lists and gaps are not as they are printed. -/
def sprawling : Source :=
  ⟨"sprawling", "x=[007 \"a\\tb\\'\":-y,];// list\nif x[0]==1\x7bf(1 2)(3)\x7delse\x7b\x7d;g while !z\x7b\x7d"⟩

theorem Program.exists_ofSource_text_sprawling :
    ∃ p, Program.ofSource sprawling = .ok p ∧
      p.text = "x = [ 7 , \"a\tb'\" : - y ] ; if x [ 0 ] == 1 \x7b f ( 1 , 2 ) ( 3 ) \x7d " ++
        "else \x7b \x7d ; g while ! z \x7b \x7d" ∧
      ∃ p', Program.ofSource ⟨"printed", p.text⟩ = .ok p' ∧ p'.bare = p.bare := by
  have read : (Program.ofSource sprawling).map Program.text =
      .ok ("x = [ 7 , \"a\tb'\" : - y ] ; if x [ 0 ] == 1 \x7b f ( 1 , 2 ) ( 3 ) \x7d " ++
        "else \x7b \x7d ; g while ! z \x7b \x7d") := by
    decide +kernel
  cases accepted : Program.ofSource sprawling with
  | error fault =>
      rw [accepted] at read
      cases read
  | ok p =>
      rw [accepted] at read
      exact ⟨p, rfl, Except.ok.inj read, exists_ofSource_text accepted "printed"⟩

end Mini
