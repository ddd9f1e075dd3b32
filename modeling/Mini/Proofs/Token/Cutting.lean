import Mini.Proofs.Token.Kinds

/-!
# The scanner divides a text

Scanning a text and joining its fragments gives the pieces of its division, and a text that is
scanned without a fault has a division. Most pieces are one lexeme, and no lexeme behind them
completes them to an operator; an operator of two characters is two lexemes that touch.
-/

namespace Mini.Lexical

open Text Lexeme Scan

/-! ## Positions of fragments -/

theorem finish_fromPosition (owed : Nat) (p : Position) (cs : List Char) :
    (fromPosition owed p cs).finish = p.advance cs := by
  induction cs generalizing owed p with
  | nil => rfl
  | cons c cs ih =>
      cases owed with
      | zero => exact ih _ _
      | succ owed => exact ih _ _

theorem offset_next (p : Position) (c : Char) : (p.next c).offset = p.offset + 1 := by
  simpa using Position.offset_advance p [c]

/-- A fragment that stands where the scan begins is at the head of the text. -/
theorem fragment_place {cs : List Char} {owed : Nat} {p : Position} :
    ∀ f ∈ (fromPosition owed p cs).fragments,
      p.offset ≤ f.start.offset ∧ (f.start.offset = p.offset → f.text.toList <+: cs) := by
  induction cs generalizing owed p with
  | nil => intro f mem; cases mem
  | cons c cs ih =>
      have later : ∀ owed, ∀ f ∈ (fromPosition owed (p.next c) cs).fragments,
          p.offset < f.start.offset := by
        intro owed f mem
        have behind := (ih f mem).1
        rw [offset_next] at behind
        omega
      intro f mem
      cases owed with
      | succ owed =>
          have behind := later owed f mem
          exact ⟨by omega, fun same => by omega⟩
      | zero =>
          rw [fromPosition, prepend] at mem
          split at mem
          · rcases List.mem_cons.mp mem with rfl | mem
            · refine ⟨Int.le_refl _, fun _ => ?_⟩
              rw [String.toList_ofList]
              exact List.take_prefix _ _
            · have behind := later _ f mem
              exact ⟨by omega, fun same => by omega⟩
          · have behind := later _ f mem
            exact ⟨by omega, fun same => by omega⟩

/-! ## Operators -/

theorem partner?_cases {text s : String} (h : Fragment.partner? text = some s) :
    (text = "=" ∨ text = "!" ∨ text = "<" ∨ text = ">") ∧ s = "=" ∨
      text = "&" ∧ s = "&" ∨ text = "|" ∧ s = "|" := by
  unfold Fragment.partner? at h
  split at h
  · cases h
    exact .inl ⟨‹_›, rfl⟩
  · split at h
    · cases h
      exact .inr (.inl ⟨‹_›, rfl⟩)
    · split at h
      · cases h
        exact .inr (.inr ⟨‹_›, rfl⟩)
      · cases h

theorem partner?_eq_some {text s : String} (h : Fragment.partner? text = some s) :
    ∃ c, text.toList = [c] ∧ standsAlone c = true ∧
      ∃ kind, (text ++ s, kind) ∈ TokenKind.symbols := by
  rcases partner?_cases h with ⟨rfl | rfl | rfl | rfl, rfl⟩ | ⟨rfl, rfl⟩ | ⟨rfl, rfl⟩
  · exact ⟨'=', rfl, rfl, .equal, by decide⟩
  · exact ⟨'!', rfl, rfl, .notEqual, by decide⟩
  · exact ⟨'<', rfl, rfl, .atMost, by decide⟩
  · exact ⟨'>', rfl, rfl, .atLeast, by decide⟩
  · exact ⟨'&', rfl, rfl, .and, by decide⟩
  · exact ⟨'|', rfl, rfl, .or, by decide⟩

/-- Nothing but a character that is always a lexeme of its own begins an operator. -/
theorem partner?_eq_none {text : String} {c : Char} {cs : List Char} (chars : text.toList = c :: cs)
    (other : standsAlone c = false) : Fragment.partner? text = none := by
  cases h : Fragment.partner? text with
  | none => rfl
  | some s =>
      obtain ⟨d, single, alone, -⟩ := partner?_eq_some h
      rw [chars] at single
      cases single
      rw [other] at alone
      cases alone

/-! ## One piece after another -/

theorem fromPosition_of_skips {gap following : List Char} (h : Skips gap following)
    (p : Position) :
    fromPosition 0 p (gap ++ following) = fromPosition 0 (p.advance gap) following := by
  obtain ⟨c, cs, rfl, lexeme⟩ := h
  have behind := fromPosition_length (p.next c) cs following
  rw [← Position.advance_cons] at behind
  show prepend p (c :: (cs ++ following)) (ofChars c (cs ++ following))
    (fromPosition ((ofChars c (cs ++ following)).length - 1) (p.next c) (cs ++ following)) = _
  rw [lexeme]
  exact behind

/-- A text is one fragment when fragments have been joined: a lexeme that nothing completes to
an operator, or an operator of two characters. -/
inductive Whole : String → List Char → Prop
  | lexeme {text : String} {following : List Char} : Begins text.toList following →
      (∀ s, Fragment.partner? text = some s → ¬s.toList <+: following) → Whole text following
  | operator {text : String} {following : List Char} (a b : Char) : text.toList = [a, b] →
      standsAlone a = true → standsAlone b = true →
      Fragment.partner? (String.ofList [a]) = some (String.ofList [b]) → Whole text following

theorem merge_cons {a : Fragment} {fragments : List Fragment}
    (apart : ∀ b ∈ fragments.head?, a.joins b = false) :
    Fragment.merge (a :: fragments) = a :: Fragment.merge fragments := by
  cases fragments with
  | nil => rfl
  | cons b fragments =>
      have single := apart b rfl
      rw [Fragment.merge, single]
      rfl

theorem joins_eq_false {text : String} {p : Position} {following : List Char}
    (apart : ∀ s, Fragment.partner? text = some s → ¬s.toList <+: following) {b : Fragment}
    (mem : b ∈ (fromPosition 0 (p.advance text.toList) following).fragments) :
    Fragment.joins ⟨text, p⟩ b = false := by
  rw [← Bool.not_eq_true]
  intro joined
  rw [Fragment.joins, Bool.and_eq_true, decide_eq_true_eq, decide_eq_true_eq] at joined
  obtain ⟨partner, touches⟩ := joined
  obtain ⟨c, single, -⟩ := partner?_eq_some partner
  -- it touches the first one, so it stands where the scan of the rest begins
  have place : b.start.offset = (p.advance text.toList).offset := by
    rw [touches, Position.offset_advance, single]
    rfl
  exact apart b.text partner ((fragment_place b mem).2 place)

theorem scan_whole {text : String} {following : List Char} (h : Whole text following)
    (p : Position) :
    (fromPosition 0 p (text.toList ++ following)).faults =
        (fromPosition 0 (p.advance text.toList) following).faults ∧
      Fragment.merge (fromPosition 0 p (text.toList ++ following)).fragments =
        ⟨text, p⟩ :: Fragment.merge (fromPosition 0 (p.advance text.toList) following).fragments := by
  cases h with
  | lexeme begins apart =>
      rw [fromPosition_of_begins begins, String.ofList_toList]
      refine ⟨rfl, merge_cons fun b head => ?_⟩
      exact joins_eq_false apart (List.mem_of_mem_head? head)
  | operator a b chars first second partner =>
      have begins := begins_of_standsAlone first (b :: following)
      have begins' := begins_of_standsAlone second following
      have text' : text = String.ofList [a] ++ String.ofList [b] := by
        rw [← String.ofList_append, ← String.ofList_toList (s := text), chars]
        rfl
      have joins : Fragment.joins ⟨String.ofList [a], p⟩ ⟨String.ofList [b], p.next a⟩ = true := by
        rw [Fragment.joins, decide_eq_true partner, Bool.true_and]
        exact decide_eq_true (offset_next p a)
      have scan := fromPosition_of_begins begins p
      have scan' := fromPosition_of_begins begins' (p.next a)
      rw [chars]
      show (fromPosition 0 p ([a] ++ b :: following)).faults = _ ∧
        Fragment.merge (fromPosition 0 p ([a] ++ b :: following)).fragments = _
      rw [scan]
      show (fromPosition 0 (p.next a) ([b] ++ following)).faults = _ ∧
        Fragment.merge (_ :: (fromPosition 0 (p.next a) ([b] ++ following)).fragments) = _
      rw [scan', Fragment.merge, joins, text']
      exact ⟨rfl, rfl⟩

/-! ## Tokens and scraps are whole -/

theorem Whole.of_other {text : String} {c : Char} {cs following : List Char}
    (chars : text.toList = c :: cs) (other : standsAlone c = false)
    (begins : Begins (c :: cs) following) : Whole text following := by
  rw [← chars] at begins
  refine .lexeme begins fun s partner => ?_
  rw [partner?_eq_none chars other] at partner
  cases partner

theorem standsAlone_of_beginsWord {c : Char} (word : beginsWord c = true) :
    standsAlone c = false := by
  simp [standsAlone, word]

theorem not_standsAlone_of_isDigit {c : Char} (digit : isDigit c = true) :
    standsAlone c = false := by
  simp [standsAlone, digit]

theorem Whole.of_letter {text : String} {c : Char} {cs following : List Char}
    (chars : text.toList = c :: cs) (letter : isLetter c = true)
    (run : IsRun continuesWord cs following) : Whole text following := by
  have word : beginsWord c = true := by rw [beginsWord, letter]; rfl
  exact .of_other chars (standsAlone_of_beginsWord word)
    (begins_of_run (beginsName_of_isLetter letter) run)

/-- A symbol is one character that stands alone, a slash, a point, or two characters that stand
alone and of which the first is completed by the second. -/
theorem symbols_table : ∀ entry ∈ TokenKind.symbols,
    (entry.1.length = 1 ∧ entry.1.toList.all standsAlone = true ∧
      (Fragment.partner? entry.1 = none ∨ Fragment.partner? entry.1 = some "=" ∧
        entry.2 ∈ [TokenKind.assign, .not, .less, .greater])) ∨
    entry = ("/", .slash) ∨ entry = (".", .period) ∨
    entry.1.length = 2 ∧ entry.1.toList.all standsAlone = true ∧
      Fragment.partner? (String.ofList (entry.1.toList.take 1)) =
        some (String.ofList (entry.1.toList.drop 1)) := by
  decide

theorem symbols_chars {entry : String × TokenKind} (mem : entry ∈ TokenKind.symbols) :
    (∃ c, entry.1.toList = [c] ∧ standsAlone c = true ∧
      (Fragment.partner? entry.1 = none ∨ Fragment.partner? entry.1 = some "=" ∧
        entry.2 ∈ [TokenKind.assign, .not, .less, .greater])) ∨
    entry = ("/", .slash) ∨ entry = (".", .period) ∨
    ∃ a b, entry.1.toList = [a, b] ∧ standsAlone a = true ∧ standsAlone b = true ∧
      Fragment.partner? (String.ofList [a]) = some (String.ofList [b]) := by
  rcases symbols_table entry mem with ⟨one, alone, partner⟩ | slash | period | ⟨two, alone, partner⟩
  · rw [← String.length_toList] at one
    obtain ⟨c, chars⟩ := List.length_eq_one_iff.mp one
    rw [chars, List.all_cons, List.all_nil, Bool.and_true] at alone
    exact .inl ⟨c, chars, alone, partner⟩
  · exact .inr (.inl slash)
  · exact .inr (.inr (.inl period))
  · rw [← String.length_toList] at two
    obtain ⟨a, b, chars⟩ : ∃ a b, entry.1.toList = [a, b] := by
      match chars : entry.1.toList with
      | [a, b] => exact ⟨a, b, rfl⟩
      | [] | [_] | _ :: _ :: _ :: _ => simp [chars] at two
    rw [chars] at alone partner
    simp only [List.all_cons, List.all_nil, Bool.and_true, Bool.and_eq_true] at alone
    exact .inr (.inr (.inr ⟨a, b, chars, alone.1, alone.2, partner⟩))

theorem keywords_chars {entry : String × TokenKind} (mem : entry ∈ TokenKind.keywords) :
    ∃ c cs, entry.1.toList = c :: cs ∧ isLetter c = true ∧ cs.all continuesWord = true := by
  simp only [TokenKind.keywords, List.mem_cons, List.not_mem_nil, or_false] at mem
  rcases mem with rfl | rfl | rfl | rfl | rfl <;> exact ⟨_, _, rfl, by decide, by decide⟩

theorem continues_keyword {text : String} {kind : TokenKind}
    (mem : (text, kind) ∈ TokenKind.keywords) : continues kind = continuesWord := by
  simp only [TokenKind.keywords, List.mem_cons, Prod.mk.injEq, List.not_mem_nil, or_false] at mem
  rcases mem with ⟨-, rfl⟩ | ⟨-, rfl⟩ | ⟨-, rfl⟩ | ⟨-, rfl⟩ | ⟨-, rfl⟩ <;> rfl

theorem IsText.whole {kind : TokenKind} {text : String} {following : List Char}
    (h : IsText kind text) (stops : Stops (continues kind) following) : Whole text following := by
  cases h with
  | symbol mem =>
      rcases symbols_chars mem with ⟨c, chars, alone, none | ⟨some, kinds⟩⟩ | same | same |
        ⟨a, b, chars, first, second, partner⟩
      · refine .lexeme ?_ fun s partner => ?_
        · rw [chars]
          exact begins_of_standsAlone alone following
        · rw [none] at partner
          cases partner
      · have stops : Stops (· = '=') following := by
          rcases kinds with _ | ⟨_, _ | ⟨_, _ | ⟨_, _ | ⟨_, ⟨⟩⟩⟩⟩⟩ <;> exact stops
        refine .lexeme ?_ fun s partner found => ?_
        · rw [chars]
          exact begins_of_standsAlone alone following
        · rw [some] at partner
          cases partner
          obtain ⟨rest, rfl⟩ := found
          cases stops
      · cases same
        exact .of_other rfl (by decide) (begins_slash stops)
      · cases same
        exact .of_other rfl (by decide) (begins_point stops)
      · exact .operator a b chars first second partner
  | keyword mem =>
      rw [continues_keyword mem] at stops
      obtain ⟨c, cs, chars, letter, others⟩ := keywords_chars mem
      exact .of_letter chars letter ⟨List.all_eq_true.mp others, stops⟩
  | @number _ c cs chars digits =>
      have digit := isDigit_of_isDigit (digits c List.mem_cons_self)
      exact .of_other chars (not_standsAlone_of_isDigit digit) (begins_of_digits digits stops)
  | @name _ c cs chars letter others _ => exact .of_letter chars letter ⟨others, stops⟩
  | @string _ body chars isBody =>
      exact .of_other chars (by decide) (begins_of_body isBody following)

/-- A character that is no symbol is completed to an operator only by itself. -/
theorem partner?_of_not_symbol {c : Char} {s : String}
    (other : ∀ kind, (String.ofList [c], kind) ∉ TokenKind.symbols)
    (h : Fragment.partner? (String.ofList [c]) = some s) :
    (c = '&' ∨ c = '|') ∧ s.toList = [c] := by
  have single : ∀ {text : String} {d : Char}, text.toList = [d] → String.ofList [c] = text → c = d := by
    rintro _ d chars rfl
    rw [String.toList_ofList] at chars
    cases chars
    rfl
  have symbol : ∀ {text : String} {kind : TokenKind},
      (text, kind) ∈ TokenKind.symbols → String.ofList [c] ≠ text := by
    rintro _ kind mem rfl
    exact other kind mem
  rcases partner?_cases h with ⟨same | same | same | same, rfl⟩ | ⟨same, rfl⟩ | ⟨same, rfl⟩
  · exact absurd same (@symbol _ .assign (by decide))
  · exact absurd same (@symbol _ .not (by decide))
  · exact absurd same (@symbol _ .less (by decide))
  · exact absurd same (@symbol _ .greater (by decide))
  · obtain rfl := single (d := '&') rfl same
    exact ⟨.inl rfl, rfl⟩
  · obtain rfl := single (d := '|') rfl same
    exact ⟨.inr rfl, rfl⟩

theorem IsScrap.whole {text : String} {following : List Char}
    (h : IsScrap text.toList following) : Whole text following := by
  generalize chars : text.toList = word at h
  cases h with
  | @numeral c cs _ isNumeral first _ =>
      have other : standsAlone c = false := by
        rcases Bool.or_eq_true_iff.mp first with digit | point
        · exact not_standsAlone_of_isDigit digit
        · obtain rfl := of_decide_eq_true (Bool.and_eq_true_iff.mp point).1
          rfl
      exact .of_other chars other (begins_of_numeral isNumeral first)
  | word run => exact .of_other chars rfl (begins_of_run (by decide) run)
  | @character c _ gap quote digit word noSymbol pair =>
      obtain rfl : text = String.ofList [c] := by rw [← chars, String.ofList_toList]
      have slash : c ≠ '/' := by
        rintro rfl
        exact noSymbol .slash (by decide)
      have point : c ≠ '.' := by
        rintro rfl
        exact noSymbol .period (by decide)
      have alone : standsAlone c = true := by
        simp [standsAlone, gap, quote, digit, word, slash, point]
      refine .lexeme ?_ fun s partner found => ?_
      · rw [chars]
        exact begins_of_standsAlone alone following
      · obtain ⟨isPair, same⟩ := partner?_of_not_symbol noSymbol partner
        obtain ⟨rest, rfl⟩ := found
        have stops := pair isPair
        rw [same] at stops
        exact absurd rfl (of_decide_eq_false stops)

/-! ## Divided texts -/

/-- A piece as the scanner finds it. -/
def Piece.fragment : Piece → Fragment
  | .token t => ⟨t.text, t.start⟩
  | .scrap f => f

/-- **Scanning a text and joining its fragments gives the pieces of its division.** -/
theorem Divided.scan {p : Position} {cs : List Char} {pieces : List Piece}
    (h : Divided p cs pieces) :
    (fromPosition 0 p cs).faults = [] ∧
      Fragment.merge (fromPosition 0 p cs).fragments = pieces.map Piece.fragment := by
  induction h with
  | nil => exact ⟨rfl, rfl⟩
  | @gap p gap following pieces isGap _ ih =>
      rw [fromPosition_of_skips isGap.skips]
      exact ih
  | @token p kind text following pieces isText stops _ ih =>
      obtain ⟨faults, fragments⟩ := scan_whole (isText.whole stops) p
      rw [faults, fragments, ih.2]
      exact ⟨ih.1, rfl⟩
  | @scrap p text following pieces isScrap _ ih =>
      obtain ⟨faults, fragments⟩ := scan_whole isScrap.whole p
      rw [faults, fragments, ih.2]
      exact ⟨ih.1, rfl⟩

end Mini.Lexical
