import Mathlib.Data.List.Chain
import Mini.Token.Lexer

/-!
# Texts that are cut into given words

When a text is written from words, the lexer finds the same words again if each of them is
the longest lexeme where it stands and no two of them make an operator together.
-/

namespace Mini

open Text

/-- What a token says, apart from where it stands. -/
abbrev Word := TokenKind × String

def Token.word (t : Token) : Word :=
  (t.kind, t.text)

namespace Lexeme

/-- The lexeme at the head of a text is a given word, whatever its kind. -/
def Begins (word following : List Char) : Prop :=
  ∃ c cs, word = c :: cs ∧ ofChars c (cs ++ following) = ⟨cs.length + 1, true, []⟩

/-- A text consists of these words, with spaces between some of them. -/
inductive Cut : List Char → List String → Prop
  | nil : Cut [] []
  | gap {cs : List Char} {words : List String} : Cut cs words → Cut (' ' :: cs) words
  | word {word : String} {following : List Char} {words : List String} :
      Begins word.toList following → Cut following words →
      Cut (word.toList ++ following) (word :: words)

/-! ## Words of one character -/

/-- A character that is a lexeme of its own, whatever follows. -/
def standsAlone (c : Char) : Bool :=
  !isGap c && c ≠ '/' && c ≠ '\"' && c ≠ '.' && !isDigit c && !beginsWord c

/-- A character that ends a name or a number before it. -/
def separates (c : Char) : Bool :=
  !continuesWord c && !isDigit c && c ≠ '.' && c ≠ 'e' && c ≠ 'E'

/-- The text behind a word does not carry it on. -/
def Separated : List Char → Prop
  | [] => True
  | c :: _ => separates c = true

theorem begins_of_standsAlone {c : Char} (h : standsAlone c = true) (following : List Char) :
    Begins [c] following := by
  refine ⟨c, [], rfl, ?_⟩
  simp only [standsAlone, Bool.and_eq_true, Bool.not_eq_true', decide_eq_true_eq] at h
  obtain ⟨⟨⟨⟨⟨gap, slash⟩, quote⟩, point⟩, digit⟩, word⟩ := h
  simp [ofChars, beginsNumber, gap, slash, quote, point, digit, word]

/-- A symbol of one character is cut off a text. -/
theorem Cut.symbol (symbol : String) {c : Char} (single : symbol.toList = [c])
    (alone : standsAlone c = true) {following : List Char} {words : List String}
    (later : Cut following words) : Cut (symbol.toList ++ following) (symbol :: words) := by
  refine .word ?_ later
  rw [single]
  exact begins_of_standsAlone alone following

theorem separated_symbol (symbol : String) {c : Char} (single : symbol.toList = [c])
    (separates : separates c = true) (following : List Char) :
    Separated (symbol.toList ++ following) := by
  rw [single]
  exact separates

/-- The characters with which a name begins and none of the other kinds of lexemes. -/
def beginsName (c : Char) : Bool :=
  !isGap c && c ≠ '/' && c ≠ '\"' && c ≠ '.' && !isDigit c && beginsWord c

end Lexeme

/-! ## From words to fragments -/

namespace Scan

open Lexeme

theorem fromPosition_of_begins {word following : List Char} (h : Begins word following)
    (p : Position) :
    fromPosition 0 p (word ++ following) =
      ⟨⟨String.ofList word, p⟩ :: (fromPosition 0 (p.advance word) following).fragments,
        (fromPosition 0 (p.advance word) following).faults,
        (fromPosition 0 (p.advance word) following).finish⟩ := by
  obtain ⟨c, cs, rfl, lexeme⟩ := h
  have behind := fromPosition_length (p.next c) cs following
  rw [← Position.advance_cons] at behind
  -- the first character notes the lexeme, and the others only move the position
  show prepend p (c :: (cs ++ following)) (ofChars c (cs ++ following))
    (fromPosition ((ofChars c (cs ++ following)).length - 1) (p.next c) (cs ++ following)) = _
  rw [lexeme]
  show prepend p _ _ (fromPosition cs.length (p.next c) (cs ++ following)) = _
  rw [behind]
  simp [prepend]

/-- A text that is cut into words leaves these fragments and no faults. -/
theorem fromPosition_of_cut {cs : List Char} {words : List String} (h : Cut cs words)
    (p : Position) :
    (fromPosition 0 p cs).fragments.map Fragment.text = words ∧
      (fromPosition 0 p cs).faults = [] := by
  induction h generalizing p with
  | nil => exact ⟨rfl, rfl⟩
  | gap _ ih => exact ih (p.next ' ')
  | word begins _ ih =>
      rw [fromPosition_of_begins begins]
      obtain ⟨fragments, faults⟩ := ih (p.advance _)
      refine ⟨?_, faults⟩
      rw [List.map_cons, fragments, String.ofList_toList]

end Scan

/-- The first of two words does not begin an operator that the second one ends. -/
def Fragment.Apart (first second : String) : Prop :=
  partner? first ≠ some second

/-- Where no fragment is completed by its neighbour, all of them are left as they are. -/
theorem Fragment.merge_of_isChain {fragments : List Fragment}
    (apart : fragments.IsChain fun a b => a.joins b = false) : merge fragments = fragments := by
  fun_induction merge fragments with
  | case1 => rfl
  | case2 => rfl
  | case3 a b rest joined _ =>
      have single := (List.isChain_cons_cons.mp apart).1
      rw [joined] at single
      cases single
  | case4 a b rest _ ih => rw [ih (List.isChain_cons_cons.mp apart).2]

theorem Fragment.merge_of_apart {fragments : List Fragment}
    (apart : (fragments.map Fragment.text).IsChain Apart) : merge fragments = fragments := by
  apply merge_of_isChain
  rw [List.isChain_map] at apart
  apply apart.imp
  intro a b differ
  rw [joins, decide_eq_false differ, Bool.false_and]

/-! ## From fragments to tokens -/

namespace Token

theorem ofFragments_of_kinds {fragments : List Fragment} {words : List Word}
    (texts : fragments.map Fragment.text = words.map Prod.snd)
    (kinds : ∀ word ∈ words, TokenKind.ofText? word.2 = some word.1) :
    (ofFragments fragments).map word = words ∧ invalid fragments = [] := by
  induction fragments generalizing words with
  | nil =>
      cases words with
      | nil => exact ⟨rfl, rfl⟩
      | cons => cases texts
  | cons fragment fragments ih =>
      cases words with
      | nil => cases texts
      | cons first words =>
          obtain ⟨text, texts⟩ := List.cons.inj texts
          have text : fragment.text = first.2 := text
          have kind := kinds first List.mem_cons_self
          obtain ⟨tokens, valid⟩ := ih texts fun word mem => kinds word (List.mem_cons_of_mem _ mem)
          rw [← text] at kind
          constructor
          · rw [ofFragments, List.filterMap_cons, kind]
            show word ⟨first.1, fragment.text, fragment.start⟩ :: (ofFragments fragments).map word = _
            rw [tokens, word, text]
          · rw [invalid, List.filterMap_cons, kind]
            exact valid

/-- **A text that is cut into words has these words for its tokens.** -/
theorem ofSource_of_cut {source : String} {words : List Word}
    (cut : Lexeme.Cut source.toList (words.map Prod.snd))
    (apart : (words.map Prod.snd).IsChain Fragment.Apart)
    (kinds : ∀ word ∈ words, TokenKind.ofText? word.2 = some word.1) :
    ∃ tokens finish, ofSource source = .ok (tokens ++ [⟨.endOfText, "", finish⟩]) ∧
      tokens.map word = words := by
  obtain ⟨texts, faults⟩ := Scan.fromPosition_of_cut cut .start
  have separate := Fragment.merge_of_apart (texts ▸ apart)
  obtain ⟨tokens, valid⟩ := ofFragments_of_kinds texts kinds
  refine ⟨_, (Scan.ofText source).finish, ?_, tokens⟩
  have faults : (Scan.ofText source).faults = [] := faults
  have separate : Fragment.merge (Scan.ofText source).fragments = (Scan.ofText source).fragments :=
    separate
  have valid : invalid (Scan.ofText source).fragments = [] := valid
  rw [ofSource]
  simp only [faults, separate, valid, ne_eq, not_true_eq_false, if_false]
  rfl

end Token

end Mini
