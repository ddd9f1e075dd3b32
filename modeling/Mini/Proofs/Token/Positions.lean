import Mini.Proofs.Token.Lexing

/-!
# Positions are exact

A position is a summary of the text in front of it, kept up to date character by character. That
it says where a fragment stands needs one fact about every lexeme: it takes at least one
character and no more than there are, however malformed the text is. Then the scan of a text is
compared with the text in front of it and the text that is left, and each fragment stands
between the two. Joining two fragments that touch keeps this, because only a fragment of one
character has a partner.
-/

namespace Mini

/-! ## What a position says -/

namespace Position

/-- The position behind a text: one more than its line feeds, one more than the characters behind
the last of them, and its length. -/
def behind (before : List Char) : Position where
  line := 1 + before.count '\n'
  column := 1 + (before.reverse.takeWhile (· ≠ '\n')).length
  offset := before.length

theorem next_behind (before : List Char) (c : Char) :
    (behind before).next c = behind (before ++ [c]) := by
  unfold next behind
  by_cases feed : c = '\n'
  · simp [feed, List.count_append]
    omega
  · simp [feed, List.count_append]
    omega

theorem advance_start (cs : List Char) : start.advance cs = behind cs := by
  induction cs using List.reverseRecOn with
  | nil => rfl
  | append_singleton cs c ih =>
      rw [advance_append, ih, ← next_behind]
      rfl

end Position

/-! ## Lexemes take what there is -/

namespace Lexical

open Text Lexeme Scan

theorem closing?_le {cs : List Char} {n : Nat} (h : closing? cs = some n) : n ≤ cs.length := by
  obtain ⟨inside, following, rfl, rfl, -⟩ := exists_of_closing? h
  simp

theorem length_blockComment (cs : List Char) : (blockComment cs).length ≤ cs.length + 2 := by
  unfold blockComment
  split
  · rename_i n closed
    have short := closing?_le closed
    simpa using short
  · simp

theorem length_stringLiteral (cs : List Char) :
    (stringLiteral cs).length = (StringLiteral.rest cs).length + 1 := by
  by_cases closed : (StringLiteral.rest cs).closed = true
  · simp [stringLiteral, closed]
  · simp [stringLiteral, closed]

theorem length_numeral {c : Char} {cs : List Char} (first : beginsNumber c cs = true) :
    0 < (numeral (c :: cs)).length ∧ (numeral (c :: cs)).length ≤ cs.length + 1 := by
  obtain ⟨word, following, rfl, isNumeral, -⟩ := exists_isNumeral first
  have whole : numeral (c :: (word ++ following)) = c :: word := isNumeral.eq
  rw [whole]
  simp

/-- **A lexeme takes at least one character and no more than there are.** -/
theorem length_ofChars (c : Char) (cs : List Char) :
    0 < (ofChars c cs).length ∧ (ofChars c cs).length ≤ cs.length + 1 := by
  have run (p : Char → Bool) : (cs.takeWhile p).length ≤ cs.length :=
    (List.takeWhile_prefix p).length_le
  unfold ofChars
  split
  · simp
  · split
    · simpa using run (· ≠ '\n')
    · split
      · rename_i opening
        obtain ⟨rest, rfl⟩ := List.head?_eq_some_iff.mp opening.2
        refine ⟨?_, length_blockComment rest⟩
        unfold blockComment
        split <;> simp
      · split
        · rw [length_stringLiteral]
          have short := StringLiteral.length_rest_le cs
          omega
        · split
          · exact length_numeral ‹_›
          · split
            · simpa using run continuesWord
            · simp

end Lexical

/-! ## Fragments stand where they say -/

namespace Fragment

/-- The fragment is the slice of the text that its offset and its length cut out, and its start is
the position behind what is in front of the slice. -/
def StandsIn (source : List Char) (f : Fragment) : Prop :=
  (source.drop f.start.offset.toNat).take f.text.length = f.text.toList ∧
    f.start = .behind (source.take f.start.offset.toNat)

/-- The fragment ends before the other one begins. -/
def Before (a b : Fragment) : Prop :=
  a.start.offset + a.text.length ≤ b.start.offset

/-- The fragments are stretches of the text, none of them empty and each behind the one before. -/
structure Laid (source : List Char) (fragments : List Fragment) : Prop where
  stands : ∀ f ∈ fragments, f.StandsIn source
  nonempty : ∀ f ∈ fragments, f.text ≠ ""
  ordered : fragments.Pairwise Before

/-- A text is split by what stands in it. -/
theorem standsIn_iff {source : List Char} {f : Fragment} :
    f.StandsIn source ↔
      ∃ before after, source = before ++ f.text.toList ++ after ∧ f.start = .behind before := by
  constructor
  · rintro ⟨slice, start⟩
    refine ⟨_, (source.drop f.start.offset.toNat).drop f.text.length, ?_, start⟩
    rw [← slice, List.append_assoc, List.take_append_drop, List.take_append_drop]
  · rintro ⟨before, after, rfl, start⟩
    have offset : f.start.offset.toNat = before.length := by
      rw [start]
      rfl
    unfold StandsIn
    rw [offset, List.append_assoc, List.drop_left, List.take_left, ← String.length_toList,
      List.take_left]
    exact ⟨rfl, start⟩

theorem Laid.nil (source : List Char) : Laid source [] :=
  ⟨by simp, by simp, .nil⟩

theorem Laid.cons {source : List Char} {f : Fragment} {fragments : List Fragment}
    (stands : f.StandsIn source) (nonempty : f.text ≠ "") (first : ∀ g ∈ fragments, f.Before g)
    (h : Laid source fragments) : Laid source (f :: fragments) where
  stands := List.forall_mem_cons.mpr ⟨stands, h.stands⟩
  nonempty := List.forall_mem_cons.mpr ⟨nonempty, h.nonempty⟩
  ordered := List.pairwise_cons.mpr ⟨first, h.ordered⟩

theorem Laid.sublist {source : List Char} {some all : List Fragment} (h : Laid source all)
    (sub : some.Sublist all) : Laid source some where
  stands := fun f mem => h.stands f (sub.subset mem)
  nonempty := fun f mem => h.nonempty f (sub.subset mem)
  ordered := h.ordered.sublist sub

end Fragment

namespace Lexical

open Fragment Lexeme Scan

/-- The scan of what is left of a text: its fragments are laid in the text, and begin behind the
characters that belong to a lexeme already noted. -/
theorem laid_fromPosition {source : List Char} (before : List Char) {cs : List Char}
    (whole : source = before ++ cs) (owed : Nat) :
    Laid source (fromPosition owed (.behind before) cs).fragments ∧
      ∀ f ∈ (fromPosition owed (.behind before) cs).fragments,
        (before.length + owed : Int) ≤ f.start.offset := by
  induction cs generalizing before owed with
  | nil => exact ⟨.nil source, by simp [fromPosition]⟩
  | cons c cs ih =>
      have whole' : source = before ++ [c] ++ cs := by simp [whole]
      cases owed with
      | succ owed =>
          obtain ⟨laid, later⟩ := ih _ whole' owed
          rw [fromPosition, Position.next_behind]
          refine ⟨laid, fun f mem => ?_⟩
          have bound := later f mem
          simp at bound ⊢
          omega
      | zero =>
          obtain ⟨some, enough⟩ := length_ofChars c cs
          obtain ⟨laid, later⟩ := ih _ whole' ((ofChars c cs).length - 1)
          have behind : ∀ f ∈ (fromPosition ((ofChars c cs).length - 1) (.behind (before ++ [c]))
              cs).fragments, (before.length + (ofChars c cs).length : Int) ≤ f.start.offset := by
            intro f mem
            have bound := later f mem
            simp at bound
            omega
          rw [fromPosition, prepend, Position.next_behind]
          split
          · have taken : ((c :: cs).take (ofChars c cs).length).length = (ofChars c cs).length := by
              simp only [List.length_take, List.length_cons]
              omega
            refine ⟨.cons ?_ ?_ ?_ laid, ?_⟩
            · refine standsIn_iff.mpr ⟨before, (c :: cs).drop (ofChars c cs).length, ?_, rfl⟩
              rw [String.toList_ofList, List.append_assoc, List.take_append_drop, whole]
            · intro empty
              rw [← String.toList_inj, String.toList_ofList] at empty
              simp [empty] at taken
              omega
            · intro f mem
              have bound := behind f mem
              simp only [Before, Position.behind, String.length_ofList, taken]
              exact bound
            · intro f mem
              rcases List.mem_cons.mp mem with rfl | mem
              · simp [Position.behind]
              · have bound := behind f mem
                simp
                omega
          · refine ⟨laid, fun f mem => ?_⟩
            have bound := behind f mem
            simp
            omega

theorem laid_scan (source : String) : Laid source.toList (Scan.ofText source).fragments :=
  (laid_fromPosition [] rfl 0).1

/-! ## Joined fragments -/

/-- Fragments are joined if the first has one character and the second stands right behind it. -/
theorem of_joins {a b : Fragment} (joined : a.joins b = true) :
    a.text.length = 1 ∧ b.start.offset = a.start.offset + 1 := by
  rw [joins, Bool.and_eq_true, decide_eq_true_eq, decide_eq_true_eq] at joined
  obtain ⟨partner, touches⟩ := joined
  obtain ⟨c, single, -⟩ := partner?_eq_some partner
  rw [← String.length_toList, single]
  exact ⟨rfl, touches⟩

/-- A fragment that two others were joined to stands where both of them stood. -/
theorem standsIn_join {source : List Char} {a b : Fragment} (joined : a.joins b = true)
    (first : a.StandsIn source) (second : b.StandsIn source) : (a.join b).StandsIn source := by
  obtain ⟨single, touches⟩ := of_joins joined
  obtain ⟨before, after, whole, start⟩ := standsIn_iff.mp first
  obtain ⟨before', after', whole', start'⟩ := standsIn_iff.mp second
  have length : before'.length = (before ++ a.text.toList).length := by
    rw [start, start'] at touches
    simp only [Position.behind] at touches
    rw [List.length_append, String.length_toList, single]
    omega
  -- two splits of one text with fronts of one length are the same split
  rw [whole, List.append_assoc before' _ after'] at whole'
  obtain ⟨front, rest⟩ := List.append_inj whole' length.symm
  refine standsIn_iff.mpr ⟨before, after', ?_, start⟩
  rw [whole, join, String.toList_append, rest]
  simp

theorem before_join {a b f : Fragment} (joined : a.joins b = true) (later : b.Before f) :
    (a.join b).Before f := by
  obtain ⟨single, touches⟩ := of_joins joined
  simp only [Before, join, String.length_append] at later ⊢
  omega

/-- Joining moves no fragment: each begins where one of the fragments began. -/
theorem exists_start_of_mem_merge {fragments : List Fragment} :
    ∀ f ∈ merge fragments, ∃ g ∈ fragments, f.start = g.start := by
  fun_induction merge fragments with
  | case1 => simp
  | case2 a => simp
  | case3 a b rest joined ih =>
      intro f mem
      rcases List.mem_cons.mp mem with rfl | mem
      · exact ⟨a, by simp, rfl⟩
      · obtain ⟨g, inRest, same⟩ := ih f mem
        exact ⟨g, by simp [inRest], same⟩
  | case4 a b rest apart ih =>
      intro f mem
      rcases List.mem_cons.mp mem with rfl | mem
      · exact ⟨f, by simp, rfl⟩
      · obtain ⟨g, inRest, same⟩ := ih f mem
        exact ⟨g, List.mem_cons_of_mem a inRest, same⟩

/-- What ends before all fragments begin does so when they have been joined. -/
theorem before_merge {a : Fragment} {fragments : List Fragment}
    (first : ∀ g ∈ fragments, a.Before g) : ∀ g ∈ merge fragments, a.Before g := by
  intro f mem
  obtain ⟨g, inside, same⟩ := exists_start_of_mem_merge f mem
  rw [Before, same]
  exact first g inside

/-- **Joining keeps fragments laid.** -/
theorem laid_merge {source : List Char} {fragments : List Fragment}
    (h : Laid source fragments) : Laid source (merge fragments) := by
  fun_induction merge fragments with
  | case1 => exact h
  | case2 a => exact h
  | case3 a b rest joined ih =>
      obtain ⟨stands, nonempty, ordered⟩ := h
      simp only [List.forall_mem_cons, List.pairwise_cons] at stands nonempty ordered
      refine .cons (standsIn_join joined stands.1 stands.2.1) ?_ ?_
        (ih ⟨stands.2.2, nonempty.2.2, ordered.2.2⟩)
      · simp [join, nonempty.1]
      · exact before_merge fun f mem => before_join joined (ordered.2.1 f mem)
  | case4 a b rest apart ih =>
      obtain ⟨stands, nonempty, ordered⟩ := h
      rw [List.forall_mem_cons] at stands nonempty
      rw [List.pairwise_cons] at ordered
      exact .cons stands.1 nonempty.1 (before_merge ordered.1)
        (ih ⟨stands.2, nonempty.2, ordered.2⟩)

end Lexical

/-! ## Tokens -/

namespace Token

open Fragment Lexical

/-- The stretch of text that a token was made from. -/
def fragment (t : Token) : Fragment :=
  ⟨t.text, t.start⟩

theorem fragment_ofFragments (fragments : List Fragment) :
    ((ofFragments fragments).map fragment).Sublist fragments := by
  induction fragments with
  | nil => exact .slnil
  | cons f fragments ih =>
      unfold ofFragments at ih ⊢
      rw [List.filterMap_cons]
      cases kind : TokenKind.ofText? f.text with
      | none => exact ih.cons f
      | some kind => exact ih.cons_cons f

theorem finish_ofText (source : String) :
    (Scan.ofText source).finish = .behind source.toList := by
  rw [Scan.ofText, finish_fromPosition, Position.advance_start]

theorem exists_laid {source : String} {tokens : List Token}
    (accepted : ofSource source = .ok tokens) :
    ∃ body, tokens = body ++ [⟨.endOfText, "", .behind source.toList⟩] ∧
      Laid source.toList (body.map fragment) := by
  simp only [ofSource, finish_ofText] at accepted
  split at accepted
  · cases accepted
  · split at accepted
    · cases accepted
    · cases accepted
      have merged := laid_merge (laid_scan source)
      exact ⟨_, rfl, merged.sublist (fragment_ofFragments _)⟩

/-- Every token stands where it says, the one that marks the end behind all of the text. -/
theorem standsIn_of_ofSource {source : String} {tokens : List Token}
    (accepted : ofSource source = .ok tokens) :
    ∀ t ∈ tokens, t.fragment.StandsIn source.toList := by
  obtain ⟨body, rfl, laid⟩ := exists_laid accepted
  intro t mem
  rcases List.mem_append.mp mem with inBody | last
  · exact laid.stands _ (List.mem_map_of_mem inBody)
  · obtain rfl := List.mem_singleton.mp last
    exact standsIn_iff.mpr ⟨source.toList, [], by simp [fragment], rfl⟩

/-- **Positions are exact.** A lexeme takes at least one character of a text and no more than
there are, so the scan ends where the text does. Its fragments, the joined fragments and the
tokens are stretches of the text, one behind the other, and each position says how many lines,
columns and characters are in front. -/
theorem positions_exact (source : String) :
    (∀ c cs, 0 < (Lexeme.ofChars c cs).length ∧
      (Lexeme.ofChars c cs).length ≤ (c :: cs).length) ∧
    (Scan.ofText source).finish = .behind source.toList ∧
    Laid source.toList (Scan.ofText source).fragments ∧
    Laid source.toList (merge (Scan.ofText source).fragments) ∧
    ∀ tokens, ofSource source = .ok tokens →
      ∃ body, tokens = body ++ [⟨.endOfText, "", .behind source.toList⟩] ∧
        Laid source.toList (body.map fragment) := by
  have scanned := laid_scan source
  exact ⟨length_ofChars, finish_ofText source, scanned, laid_merge scanned, fun _ => exists_laid⟩

/-- The tokens of a text with a comment over two lines and an operator of two characters. -/
def overLines : List Token :=
  [⟨.ident, "a", ⟨1, 1, 0⟩⟩, ⟨.assign, "=", ⟨1, 3, 2⟩⟩, ⟨.number, "1", ⟨3, 4, 10⟩⟩,
    ⟨.atMost, "<=", ⟨3, 6, 12⟩⟩, ⟨.string, "\"\\\"\"", ⟨3, 9, 15⟩⟩, ⟨.semicolon, ";", ⟨3, 13, 19⟩⟩,
    ⟨.endOfText, "", ⟨3, 14, 20⟩⟩]

theorem positions_exact_overLines :
    ofSource "a =\n/*\n*/ 1 <= \"\\\"\";" = .ok overLines ∧
      ∃ body, overLines =
          body ++ [⟨.endOfText, "", .behind "a =\n/*\n*/ 1 <= \"\\\"\";".toList⟩] ∧
        Laid "a =\n/*\n*/ 1 <= \"\\\"\";".toList (body.map fragment) := by
  have accepted : ofSource "a =\n/*\n*/ 1 <= \"\\\"\";" = .ok overLines := by decide +kernel
  exact ⟨accepted, (positions_exact _).2.2.2.2 _ accepted⟩

end Token

end Mini
