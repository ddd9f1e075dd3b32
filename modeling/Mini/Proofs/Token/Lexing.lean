import Mini.Proofs.Token.Cutting

/-!
# What the lexer accepts

A text that is scanned without a fault begins with a gap, a token or a scrap, and the text
behind that is scanned without a fault as well. So it has a division; and since scanning a
divided text gives back the pieces, the division says everything about the result of the
lexer: the tokens when there are no scraps, and the faults otherwise.
-/

namespace Mini.Lexical

open Text Lexeme Scan

/-! ## What a text begins with -/

/-- What a text that is scanned without a fault can begin with. -/
inductive Leads : List Char → List Char → Prop
  | gap {gap following : List Char} : IsGap gap following → Leads gap following
  | token {kind : TokenKind} {text : String} {following : List Char} :
      IsText kind text → Stops (continues kind) following → Leads text.toList following
  | scrap {text : String} {following : List Char} :
      IsScrap text.toList following → Leads text.toList following

theorem Leads.of_scrap {word following : List Char} (h : IsScrap word following) :
    Leads word following := by
  rw [← String.toList_ofList (l := word)] at h ⊢
  exact .scrap h

theorem Leads.of_text {kind : TokenKind} {word following : List Char}
    (h : IsText kind (String.ofList word)) (stops : Stops (continues kind) following) :
    Leads word following := by
  rw [← String.toList_ofList (l := word)]
  exact .token h stops

/-! ### Numerals -/

/-- Where a number begins, there is a numeral that begins a number. -/
theorem exists_isNumeral {c : Char} {cs : List Char} (first : beginsNumber c cs = true) :
    ∃ word following, cs = word ++ following ∧ IsNumeral (c :: word) following ∧
      beginsNumber c word = true := by
  rcases Bool.or_eq_true_iff.mp first with digit | point
  · obtain ⟨digits, behind, rfl, isDigits⟩ := exists_isRun isDigit cs
    obtain ⟨fraction, behind, rfl, isFraction⟩ := exists_isFraction behind
    obtain ⟨exponent, behind, rfl, isExponent⟩ := exists_isExponent behind
    obtain ⟨tail, following, rfl, isTail⟩ := exists_isRun continuesWord behind
    have whole : IsRun isDigit (c :: digits) (fraction ++ (exponent ++ (tail ++ following))) :=
      ⟨List.forall_mem_cons.mpr ⟨digit, isDigits.all⟩, isDigits.stops⟩
    refine ⟨digits ++ (fraction ++ (exponent ++ tail)), following, by simp, ?_, ?_⟩
    · exact .parts whole isFraction isExponent isTail
    · rw [beginsNumber, digit]
      rfl
  · obtain ⟨isPoint, second⟩ := Bool.and_eq_true_iff.mp point
    obtain rfl := of_decide_eq_true isPoint
    cases cs with
    | nil => cases second
    | cons d cs =>
        have digit : isDigit d = true := second
        obtain ⟨digits, behind, rfl, isDigits⟩ := exists_isRun isDigit cs
        obtain ⟨exponent, behind, rfl, isExponent⟩ := exists_isExponent behind
        obtain ⟨tail, following, rfl, isTail⟩ := exists_isRun continuesWord behind
        have isFraction : IsFraction ('.' :: d :: digits) (exponent ++ (tail ++ following)) :=
          .present ⟨List.forall_mem_cons.mpr ⟨digit, isDigits.all⟩, isDigits.stops⟩
        refine ⟨d :: digits ++ (exponent ++ tail), following, by simp, ?_, ?_⟩
        · have whole : IsRun isDigit []
              ('.' :: d :: digits ++ (exponent ++ (tail ++ following))) :=
            ⟨by simp, show isDigit '.' = false by decide⟩
          exact .parts whole isFraction isExponent isTail
        · simp [beginsNumber, digit]

/-- A numeral of ASCII digits has no fraction, no exponent and no other end, and nothing behind
it would carry a number on. -/
theorem IsNumeral.stops {word following : List Char} (h : IsNumeral word following)
    (ascii : ∀ d ∈ word, d.isDigit = true) : Stops (continues .number) following := by
  cases h with
  | @parts whole fraction exponent tail _ isWhole isFraction isExponent isTail =>
      cases isFraction with
      | present => exact absurd (ascii '.' (by simp)) (by decide)
      | absent point =>
          cases isExponent with
          | @unsigned e _ _ letter =>
              have digit : e.isDigit = true := ascii e (by simp)
              rcases letter with rfl | rfl <;> cases digit
          | @signed e _ _ _ letter =>
              have digit : e.isDigit = true := ascii e (by simp)
              rcases letter with rfl | rfl <;> cases digit
          | absent =>
              cases tail with
              | cons d tail =>
                  -- a further digit would belong to the first run
                  have digit := isDigit_of_isDigit (ascii d (by simp))
                  have other : isDigit d = false := isWhole.stops
                  rw [digit] at other
                  cases other
              | nil =>
                  cases following with
                  | nil => trivial
                  | cons c cs =>
                      have noPoint : decide (c = '.') = false := point
                      have noWord : continuesWord c = false := isTail.stops
                      show (decide (c = '.') || continuesWord c) = false
                      rw [noPoint, noWord]
                      rfl

theorem leads_of_beginsNumber {c : Char} {cs : List Char} (first : beginsNumber c cs = true) :
    ∃ piece following, c :: cs = piece ++ following ∧ Leads piece following := by
  obtain ⟨word, following, rfl, isNumeral, first⟩ := exists_isNumeral first
  refine ⟨c :: word, following, rfl, ?_⟩
  by_cases other : ∃ d ∈ c :: word, d.isDigit = false
  · exact .of_scrap (.numeral isNumeral first other)
  · have ascii : ∀ d ∈ c :: word, d.isDigit = true := fun d mem =>
      Bool.of_not_eq_false fun noDigit => other ⟨d, mem, noDigit⟩
    exact .of_text (.number String.toList_ofList ascii) (isNumeral.stops ascii)

/-! ### Words -/

theorem leads_of_beginsWord {c : Char} (first : beginsWord c = true) (cs : List Char) :
    ∃ piece following, c :: cs = piece ++ following ∧ Leads piece following := by
  obtain ⟨others, following, rfl, run⟩ := exists_isRun continuesWord cs
  refine ⟨c :: others, following, rfl, ?_⟩
  by_cases letter : isLetter c = true
  · by_cases keyword : ∃ kind, (String.ofList (c :: others), kind) ∈ TokenKind.keywords
    · obtain ⟨kind, mem⟩ := keyword
      refine .of_text (.keyword mem) ?_
      rw [continues_keyword mem]
      exact run.stops
    · have noKeyword := not_exists.mp keyword
      exact .of_text (.name String.toList_ofList letter run.all noKeyword) run.stops
  · have underscore : c = '_' := by
      rcases Bool.or_eq_true_iff.mp first with isLetter | underscore
      · exact absurd isLetter letter
      · exact of_decide_eq_true underscore
    rw [underscore]
    exact .of_scrap (.word run)

/-! ### String literals -/

theorem leads_of_quote {cs : List Char} (clean : (stringLiteral cs).causes = []) :
    ∃ piece following, '\"' :: cs = piece ++ following ∧ Leads piece following := by
  by_cases closed : (StringLiteral.rest cs).closed = true
  · rw [stringLiteral, if_pos closed] at clean
    obtain ⟨body, following, rfl, isBody, -⟩ :=
      exists_of_rest closed (List.map_eq_nil_iff.mp clean)
    refine ⟨'\"' :: (body ++ ['\"']), following, by simp, ?_⟩
    refine .of_text (.string String.toList_ofList isBody) ?_
    cases following <;> trivial
  · rw [stringLiteral, if_neg closed] at clean
    exact absurd (List.append_eq_nil_iff.mp clean).2 (List.cons_ne_nil _ _)

/-! ### Symbols and other characters -/

/-- The kinds that some character carries on. -/
def carried : List TokenKind :=
  [.assign, .not, .less, .greater, .slash, .period, .ident, .ifWord, .elseWord, .funcWord,
    .returnWord, .whileWord, .number]

theorem continues_of_not_carried {kind : TokenKind} (other : kind ∉ carried) (c : Char) :
    continues kind c = false := by
  cases kind with
  | assign | not | less | greater | slash | period | ident | ifWord | elseWord | funcWord
  | returnWord | whileWord | number => exact absurd (by decide) other
  | _ => rfl

theorem symbols_carried : ∀ entry ∈ TokenKind.symbols,
    entry.2 ∈ [TokenKind.assign, .not, .less, .greater] ∧
      Fragment.partner? entry.1 = some "=" ∨
    entry = ("/", .slash) ∨ entry = (".", .period) ∨ entry.2 ∉ carried := by
  decide

/-- A symbol is carried on by its partner only, unless it is a slash or a point. -/
theorem stops_of_symbol {text : String} {kind : TokenKind} {following : List Char}
    (mem : (text, kind) ∈ TokenKind.symbols)
    (alone : ∀ s, Fragment.partner? text = some s → ¬s.toList <+: following)
    (slash : text = "/" → Stops (continues .slash) following)
    (point : text = "." → Stops (continues .period) following) :
    Stops (continues kind) following := by
  cases following with
  | nil => trivial
  | cons c cs =>
      rcases symbols_carried _ mem with ⟨kinds, partner⟩ | same | same | other
      · have noAssign : c ≠ '=' := by
          rintro rfl
          exact alone "=" partner ⟨cs, rfl⟩
        have stops : Stops (· = '=') (c :: cs) := decide_eq_false noAssign
        rcases kinds with _ | ⟨_, _ | ⟨_, _ | ⟨_, _ | ⟨_, ⟨⟩⟩⟩⟩⟩ <;> exact stops
      · cases same
        exact slash rfl
      · cases same
        exact point rfl
      · exact continues_of_not_carried other c

theorem operators_not_carried : ∀ entry ∈ TokenKind.symbols,
    entry.1.toList.length = 2 → entry.2 ∉ carried := by
  decide

theorem leads_of_partner {c : Char} {cs : List Char} {s : String}
    (partner : Fragment.partner? (String.ofList [c]) = some s) (found : s.toList <+: cs) :
    ∃ piece following, c :: cs = piece ++ following ∧ Leads piece following := by
  obtain ⟨following, rfl⟩ := found
  obtain ⟨-, -, -, kind, mem⟩ := partner?_eq_some partner
  have chars : (String.ofList [c] ++ s).toList = c :: s.toList := by
    rw [String.toList_append, String.toList_ofList]
    rfl
  have two : (String.ofList [c] ++ s).toList.length = 2 := by
    rw [chars]
    rcases partner?_cases partner with ⟨-, rfl⟩ | ⟨-, rfl⟩ | ⟨-, rfl⟩ <;> rfl
  have nothing := continues_of_not_carried (operators_not_carried _ mem two)
  refine ⟨(String.ofList [c] ++ s).toList, following, by rw [chars]; rfl, .token (.symbol mem) ?_⟩
  cases following with
  | nil => trivial
  | cons d following => exact nothing d

/-- A character with which nothing else begins is a symbol or a scrap. -/
theorem leads_of_character {c : Char} {cs : List Char} (gap : isGap c = false)
    (comment : c = '/' → Stops (continues .slash) cs) (quote : c ≠ '\"')
    (noNumber : beginsNumber c cs = false) (word : beginsWord c = false) :
    ∃ piece following, c :: cs = piece ++ following ∧ Leads piece following := by
  by_cases paired : ∃ s, Fragment.partner? (String.ofList [c]) = some s ∧ s.toList <+: cs
  · obtain ⟨s, partner, found⟩ := paired
    exact leads_of_partner partner found
  · have alone : ∀ s, Fragment.partner? (String.ofList [c]) = some s → ¬s.toList <+: cs :=
      fun s partner found => paired ⟨s, partner, found⟩
    have first : ∀ {d : Char}, String.ofList [c] = String.ofList [d] → c = d := by
      intro d same
      have chars := String.ofList_injective same
      cases chars
      rfl
    refine ⟨[c], cs, rfl, ?_⟩
    obtain ⟨digit, point⟩ := Bool.or_eq_false_iff.mp noNumber
    by_cases symbol : ∃ kind, (String.ofList [c], kind) ∈ TokenKind.symbols
    · obtain ⟨kind, mem⟩ := symbol
      refine .of_text (.symbol mem) (stops_of_symbol mem alone ?_ ?_)
      · intro same
        exact comment (first (d := '/') same)
      · intro same
        obtain rfl := first (d := '.') same
        cases cs with
        | nil => trivial
        | cons d cs => exact point
    · refine .of_scrap (.character gap quote digit word (not_exists.mp symbol) ?_)
      rintro (rfl | rfl)
      · cases cs with
        | nil => trivial
        | cons d cs =>
            refine decide_eq_false ?_
            rintro rfl
            exact alone "&" rfl ⟨cs, rfl⟩
      · cases cs with
        | nil => trivial
        | cons d cs =>
            refine decide_eq_false ?_
            rintro rfl
            exact alone "|" rfl ⟨cs, rfl⟩

/-! ### All of them -/

/-- **A text that is scanned without a fault begins with a gap, a token or a scrap.** -/
theorem exists_leads {c : Char} {cs : List Char} (clean : (ofChars c cs).causes = []) :
    ∃ piece following, c :: cs = piece ++ following ∧ Leads piece following := by
  unfold ofChars at clean
  split at clean
  · exact ⟨[c], cs, rfl, .gap (.blank ‹_›)⟩
  · rename_i gap
    split at clean
    · rename_i opened
      obtain ⟨rfl, second⟩ := opened
      obtain ⟨rest, rfl⟩ := List.head?_eq_some_iff.mp second
      obtain ⟨inside, following, rfl, run⟩ := exists_isRun (· ≠ '\n') rest
      exact ⟨'/' :: '/' :: inside, following, rfl, .gap (.lineComment run)⟩
    · rename_i noLine
      split at clean
      · rename_i opened
        obtain ⟨rfl, second⟩ := opened
        obtain ⟨rest, rfl⟩ := List.head?_eq_some_iff.mp second
        rw [List.tail_cons, blockComment] at clean
        split at clean
        · rename_i closed
          obtain ⟨inside, following, rfl, -, free⟩ := exists_of_closing? closed
          exact ⟨'/' :: '*' :: (inside ++ ['*', '/']), following, by simp, .gap (.blockComment free)⟩
        · cases clean
      · rename_i noBlock
        split at clean
        · rename_i quote
          subst quote
          exact leads_of_quote clean
        · rename_i noQuote
          split at clean
          · exact leads_of_beginsNumber ‹_›
          · rename_i noNumber
            split at clean
            · exact leads_of_beginsWord ‹_› cs
            · rename_i noWord
              refine leads_of_character (Bool.of_not_eq_true gap) ?_ noQuote
                (Bool.of_not_eq_true noNumber) (Bool.of_not_eq_true noWord)
              rintro rfl
              cases cs with
              | nil => trivial
              | cons d cs =>
                  refine Bool.or_eq_false_iff.mpr ⟨decide_eq_false ?_, decide_eq_false ?_⟩
                  · rintro rfl
                    exact noLine ⟨rfl, rfl⟩
                  · rintro rfl
                    exact noBlock ⟨rfl, rfl⟩

/-! ## Divisions -/

theorem Whole.ne_nil {text : String} {following : List Char} (h : Whole text following) :
    text.toList ≠ [] := by
  cases h with
  | lexeme begins =>
      obtain ⟨c, cs, chars, -⟩ := begins
      rw [chars]
      exact List.cons_ne_nil c cs
  | operator a b chars =>
      rw [chars]
      exact List.cons_ne_nil a [b]

theorem Leads.ne_nil {piece following : List Char} (h : Leads piece following) : piece ≠ [] := by
  cases h with
  | gap isGap =>
      obtain ⟨c, cs, rfl, -⟩ := isGap.skips
      exact List.cons_ne_nil c cs
  | token isText stops => exact (isText.whole stops).ne_nil
  | scrap isScrap => exact isScrap.whole.ne_nil

theorem Leads.faults {piece following : List Char} (h : Leads piece following) (p : Position) :
    (fromPosition 0 p (piece ++ following)).faults =
      (fromPosition 0 (p.advance piece) following).faults := by
  cases h with
  | gap isGap => rw [fromPosition_of_skips isGap.skips]
  | token isText stops => exact (scan_whole (isText.whole stops) p).1
  | scrap isScrap => exact (scan_whole isScrap.whole p).1

theorem Leads.divided {p : Position} {piece following : List Char} {pieces : List Piece}
    (h : Leads piece following) (later : Divided (p.advance piece) following pieces) :
    ∃ pieces, Divided p (piece ++ following) pieces := by
  cases h with
  | gap isGap => exact ⟨pieces, .gap isGap later⟩
  | token isText stops => exact ⟨_, .token isText stops later⟩
  | scrap isScrap => exact ⟨_, .scrap isScrap later⟩

/-- **A text that is scanned without a fault has a division.** -/
theorem exists_divided {p : Position} {cs : List Char}
    (clean : (fromPosition 0 p cs).faults = []) : ∃ pieces, Divided p cs pieces := by
  match cs with
  | [] => exact ⟨[], .nil⟩
  | c :: rest =>
      have causes : (ofChars c rest).causes = [] :=
        List.map_eq_nil_iff.mp (List.append_eq_nil_iff.mp clean).1
      obtain ⟨piece, following, same, leads⟩ := exists_leads causes
      have shorter : following.length < (c :: rest).length := by
        have positive := List.length_pos_iff.mpr leads.ne_nil
        rw [same, List.length_append]
        omega
      rw [same] at clean ⊢
      rw [leads.faults] at clean
      obtain ⟨pieces, later⟩ := exists_divided clean
      exact leads.divided later
termination_by cs.length
decreasing_by exact shorter

theorem scan_clean_iff (source : String) :
    (Scan.ofText source).faults = [] ↔ ∃ pieces, Divided .start source.toList pieces :=
  ⟨exists_divided, fun ⟨_, divided⟩ => divided.scan.1⟩

/-! ## The result of the lexer -/

theorem Divided.classify {p : Position} {cs : List Char} {pieces : List Piece}
    (h : Divided p cs pieces) :
    Token.invalid (pieces.map Piece.fragment) = (scraps pieces).map fault ∧
      Token.ofFragments (pieces.map Piece.fragment) = tokens pieces := by
  induction h with
  | nil => exact ⟨rfl, rfl⟩
  | gap _ _ ih => exact ih
  | @token p kind text following pieces isText _ _ ih =>
      obtain ⟨faults, found⟩ := ih
      constructor
      · simp only [Token.invalid, List.map_cons, Piece.fragment, List.filterMap_cons, isText.kind]
        exact faults
      · simp only [Token.ofFragments, List.map_cons, Piece.fragment, List.filterMap_cons,
          isText.kind]
        exact congrArg (_ :: ·) found
  | @scrap p text following pieces isScrap _ ih =>
      obtain ⟨faults, found⟩ := ih
      constructor
      · simp only [Token.invalid, List.map_cons, Piece.fragment, List.filterMap_cons, isScrap.kind]
        exact congrArg (_ :: ·) faults
      · simp only [Token.ofFragments, List.map_cons, Piece.fragment, List.filterMap_cons,
          isScrap.kind]
        exact found

theorem tokens_of_scraps {pieces : List Piece} (none : scraps pieces = []) :
    pieces = (tokens pieces).map .token := by
  induction pieces with
  | nil => rfl
  | cons piece pieces ih =>
      cases piece with
      | token t => exact congrArg (_ :: ·) (ih none)
      | scrap f => cases none

theorem scraps_tokens (body : List Token) : scraps (body.map .token) = [] := by
  induction body with
  | nil => rfl
  | cons t body ih => exact ih

theorem tokens_tokens (body : List Token) : tokens (body.map .token) = body := by
  induction body with
  | nil => rfl
  | cons t body ih => exact congrArg (t :: ·) ih

/-- The lexer's result for a text that has a division. -/
theorem Divided.ofSource {source : String} {pieces : List Piece}
    (h : Divided .start source.toList pieces) :
    Token.ofSource source =
      if scraps pieces = [] then
        .ok (tokens pieces ++ [⟨.endOfText, "", Position.start.advance source.toList⟩])
      else .error ((scraps pieces).map fault) := by
  obtain ⟨faults, fragments⟩ := h.scan
  obtain ⟨invalid, found⟩ := h.classify
  have faults : (Scan.ofText source).faults = [] := faults
  have fragments : Fragment.merge (Scan.ofText source).fragments = pieces.map Piece.fragment :=
    fragments
  have finish : (Scan.ofText source).finish = Position.start.advance source.toList :=
    finish_fromPosition 0 .start source.toList
  rw [Token.ofSource]
  simp only [faults, fragments, invalid, found, finish, ne_eq, not_true_eq_false, if_false,
    List.map_eq_nil_iff, ite_not]

end Mini.Lexical

namespace Mini.Token

open Lexical

theorem accepted_iff {source : String} {result : List Token} :
    ofSource source = .ok result ↔
      ∃ body, Divided .start source.toList (body.map .token) ∧
        result = body ++ [⟨.endOfText, "", Position.start.advance source.toList⟩] := by
  constructor
  · intro accepted
    have clean : (Scan.ofText source).faults = [] := by
      by_contra faulty
      rw [ofSource] at accepted
      simp [faulty] at accepted
    obtain ⟨pieces, divided⟩ := (scan_clean_iff source).mp clean
    rw [divided.ofSource] at accepted
    split at accepted
    · rename_i none
      cases accepted
      exact ⟨tokens pieces, tokens_of_scraps none ▸ divided, rfl⟩
    · cases accepted
  · rintro ⟨body, divided, rfl⟩
    rw [divided.ofSource, if_pos (scraps_tokens body), tokens_tokens]

theorem rejected_iff {source : String} {faults : List LexicalFault} :
    (Scan.ofText source).faults = [] ∧ ofSource source = .error faults ↔
      ∃ pieces, Divided .start source.toList pieces ∧ scraps pieces ≠ [] ∧
        faults = (scraps pieces).map fault := by
  constructor
  · rintro ⟨clean, rejected⟩
    obtain ⟨pieces, divided⟩ := (scan_clean_iff source).mp clean
    rw [divided.ofSource] at rejected
    split at rejected
    · cases rejected
    · rename_i some
      cases rejected
      exact ⟨pieces, divided, some, rfl⟩
  · rintro ⟨pieces, divided, some, rfl⟩
    refine ⟨divided.scan.1, ?_⟩
    rw [divided.ofSource, if_neg some]

/-- **The lexer loses nothing and accepts exactly its lexical grammar.** It gives tokens if and
only if the text can be divided into gaps and these tokens; the scan finds no fault if and only
if the text can be divided at all; and then there is one fault for each scrap. -/
theorem ofSource_iff (source : String) :
    (∀ result, ofSource source = .ok result ↔
      ∃ body, Divided .start source.toList (body.map .token) ∧
        result = body ++ [⟨.endOfText, "", Position.start.advance source.toList⟩]) ∧
    ((Scan.ofText source).faults = [] ↔ ∃ pieces, Divided .start source.toList pieces) ∧
    ∀ faults, (Scan.ofText source).faults = [] ∧ ofSource source = .error faults ↔
      ∃ pieces, Divided .start source.toList pieces ∧ scraps pieces ≠ [] ∧
        faults = (scraps pieces).map fault :=
  ⟨fun _ => accepted_iff, scan_clean_iff source, fun _ => rejected_iff⟩

example : (ofSource "a/*\"*/!==\"//\"").toOption.map (·.map Token.word) =
    some [(.ident, "a"), (.notEqual, "!="), (.assign, "="), (.string, "\"//\""), (.endOfText, "")] := by
  decide +kernel

end Mini.Token
