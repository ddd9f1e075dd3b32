import Mini.Proofs.Grammar.Acceptance
import Mini.Proofs.Heap.Datum
import Mini.Proofs.Token.Cutting

/-!
# The display of a datum is an expression for it

The words of which a display is made, why the lexer cuts it into just these words, and why
they derive as a literal: a number or its opposite, a name of a truth value, or an array
literal in which each element has a key.
-/

namespace Mini

open Text Lexical

/-! ## Words -/

/-- The comma behind a pair, if there are more. -/
def DatumPairs.separator : DatumPairs → List Word
  | .nil => []
  | .cons _ _ _ => [(.comma, ",")]

mutual

/-- The words of a display. -/
def Datum.words : Datum → List Word
  | .number n => (if n < 0 then [(.minus, "-")] else []) ++ [(.number, natText n.natAbs)]
  | .boolean b => [(.ident, if b then "true" else "false")]
  | .array pairs => (.openBracket, "[") :: pairs.words

def DatumPairs.words : DatumPairs → List Word
  | .nil => [(.closeBracket, "]")]
  | .cons key value rest =>
      key.words ++ (.colon, ":") :: (value.words ++ (rest.separator ++ rest.words))

end

/-- A word that the lexer knows and that is no part of a longer operator. -/
structure Word.Plain (word : Word) : Prop where
  kind : TokenKind.ofText? word.2 = some word.1
  single : Fragment.partner? word.2 = none

theorem plain_natText (n : Nat) : Word.Plain (.number, natText n) := by
  obtain ⟨c, cs, chars, digits⟩ := natText_chars n
  have digit := isDigit_of_isDigit (digits c List.mem_cons_self)
  exact ⟨(isText_natText n).kind, partner?_eq_none chars (not_standsAlone_of_isDigit digit)⟩

mutual

theorem Datum.plain (d : Datum) : ∀ word ∈ d.words, word.Plain := by
  match d with
  | .number n =>
      rw [Datum.words]
      intro word mem
      rcases List.mem_append.mp mem with sign | digits
      · split at sign
        · rw [List.mem_singleton.mp sign]
          exact ⟨by decide, by decide⟩
        · cases sign
      · rw [List.mem_singleton.mp digits]
        exact plain_natText _
  | .boolean b =>
      intro word mem
      rw [List.mem_singleton.mp mem]
      cases b <;> exact ⟨by decide, by decide⟩
  | .array pairs =>
      intro word mem
      rcases List.mem_cons.mp mem with rfl | mem
      · exact ⟨by decide, by decide⟩
      · exact pairs.plain word mem
termination_by structural d

theorem DatumPairs.plain (ds : DatumPairs) : ∀ word ∈ ds.words, word.Plain := by
  match ds with
  | .nil =>
      intro word mem
      rw [List.mem_singleton.mp mem]
      exact ⟨by decide, by decide⟩
  | .cons key value rest =>
      rw [DatumPairs.words]
      intro word mem
      rcases List.mem_append.mp mem with mem | mem
      · exact key.plain word mem
      rcases List.mem_cons.mp mem with rfl | mem
      · exact ⟨by decide, by decide⟩
      rcases List.mem_append.mp mem with mem | mem
      · exact value.plain word mem
      rcases List.mem_append.mp mem with mem | mem
      · cases rest with
        | nil => cases mem
        | cons =>
            rw [List.mem_singleton.mp mem]
            exact ⟨by decide, by decide⟩
      · exact rest.plain word mem
termination_by structural ds

end

/-! ## The display is cut into its words -/

open Lexeme

theorem begins_natText (n : Nat) {following : List Char} (separated : Separated following) :
    Begins (natText n).toList following := by
  obtain ⟨c, cs, chars, digits⟩ := natText_chars n
  rw [chars]
  exact begins_of_digits digits (stops_of_separated separated)

theorem begins_boolean (b : Bool) {following : List Char} (separated : Separated following) :
    Begins (if b then "true" else "false").toList following := by
  cases b
  · show Begins ('f' :: ['a', 'l', 's', 'e']) following
    exact begins_of_name (by decide) (by decide) separated
  · show Begins ('t' :: ['r', 'u', 'e']) following
    exact begins_of_name (by decide) (by decide) separated

mutual

theorem Datum.cut (d : Datum) {following : List Char} {words : List String}
    (separated : Separated following) (later : Cut following words) :
    Cut (d.text.toList ++ following) (d.words.map Prod.snd ++ words) := by
  match d with
  | .number n =>
      have digits := Cut.word (begins_natText n.natAbs separated) later
      rw [Datum.text, integerText, Datum.words]
      by_cases negative : n < 0
      · rw [if_pos negative, if_pos negative, String.toList_append, List.append_assoc]
        exact Cut.symbol "-" rfl (by decide) digits
      · rw [if_neg negative, if_neg negative]
        exact digits
  | .boolean b => exact .word (begins_boolean b separated) later
  | .array pairs =>
      rw [Datum.text, String.toList_append, String.toList_append, List.append_assoc,
        List.append_assoc]
      exact Cut.symbol "[" rfl (by decide) (pairs.cut later)
termination_by structural d

theorem DatumPairs.cut (ds : DatumPairs) {following : List Char} {words : List String}
    (later : Cut following words) :
    Cut ((",".intercalate ds.texts).toList ++ ("]".toList ++ following))
      (ds.words.map Prod.snd ++ words) := by
  match ds with
  | .nil => exact Cut.symbol "]" rfl (by decide) later
  | .cons key value .nil =>
      have close := Cut.symbol "]" rfl (by decide) later
      have second := value.cut (separated_symbol "]" rfl (by decide) _) close
      have colon := Cut.symbol ":" rfl (by decide) second
      have first := key.cut (separated_symbol ":" rfl (by decide) _) colon
      simpa [DatumPairs.texts, DatumPairs.words, DatumPairs.separator] using first
  | .cons key value (.cons key' value' rest) =>
      have others := (DatumPairs.cons key' value' rest).cut later
      have comma := Cut.symbol "," rfl (by decide) others
      have second := value.cut (separated_symbol "," rfl (by decide) _) comma
      have colon := Cut.symbol ":" rfl (by decide) second
      have first := key.cut (separated_symbol ":" rfl (by decide) _) colon
      simpa [DatumPairs.texts, DatumPairs.words, DatumPairs.separator] using first
termination_by structural ds

end

/-! ## The words derive as a literal -/

open Grammar

mutual

/-- An expression is written as a datum: a number or its opposite, a name of a truth value,
or an array literal with keys. -/
inductive Denotes : Expr → Datum → Prop
  | number {location : Location} {n : Nat} : Denotes (.number location n) (.number n)
  | opposite {location location' : Location} {op : Token} {n : Nat} : op.kind = .minus →
      Denotes (.unary location op (.number location' n)) (.number (-n))
  | boolean {location : Location} {b : Bool} :
      Denotes (.ident ⟨location, if b then "true" else "false"⟩) (.boolean b)
  | array {location : Location} {elements : List Element} {pairs : DatumPairs} :
      DenotesElements elements pairs → Denotes (.array location elements) (.array pairs)

inductive DenotesElements : List Element → DatumPairs → Prop
  | nil : DenotesElements [] .nil
  | cons {location : Location} {key value : Expr} {elements : List Element} {k v : Datum}
      {rest : DatumPairs} : Denotes key k → Denotes value v → DenotesElements elements rest →
      DenotesElements (.keyed location key value :: elements) (.cons k v rest)

end

/-- Words behind a datum: they do not carry an expression on. -/
def EndsDatum : List Word → Prop
  | [] => False
  | word :: _ => word.1.beginsSuffix = false ∧ word.1.isBinary = false

theorem EndsDatum.endsExpr {ts : List Token} (h : EndsDatum (ts.map Token.word)) : EndsExpr ts := by
  cases ts with
  | nil => exact h
  | cons t ts => exact h

theorem endsDatum_separator (ds : DatumPairs) (later : List Word) :
    EndsDatum (ds.separator ++ (ds.words ++ later)) := by
  cases ds <;> exact ⟨rfl, rfl⟩

theorem optionalComma_of_separator {ts : List Token} {ds : DatumPairs} {later : List Word}
    (words : ts.map Token.word = ds.separator ++ later) :
    ∃ us, OptionalComma ts us ∧ us.map Token.word = later := by
  cases ds with
  | nil => exact ⟨ts, .absent, words⟩
  | cons =>
      obtain ⟨t, us, rfl, word, words⟩ := List.map_eq_cons_iff.mp words
      exact ⟨us, .present (congrArg Prod.fst word), words⟩

variable (locate : Position → Location)

/-- An operand that nothing carries on is an expression. -/
theorem isExpr_of_prefixed {ts us : List Token} {e : Expr} (h : IsPrefixed locate ts e us)
    (ends : EndsExpr us) : IsExpr locate ts e us :=
  .join h .nil ends

mutual

theorem Datum.derives (d : Datum) (proper : d.Proper) {ts : List Token} {later : List Word}
    (words : ts.map Token.word = d.words ++ later) (ends : EndsDatum later) :
    ∃ e us, IsExpr locate ts e us ∧ us.map Token.word = later ∧ Denotes e d := by
  match d with
  | .number n =>
      cases proper with
      | number writable =>
        have readable := readInteger_natText (length_digitsOf_of_writable writable)
        rw [Datum.words] at words
        -- there are no negative literals, so the sign is an operator of its own
        by_cases negative : n < 0
        · rw [if_pos negative] at words
          obtain ⟨op, ts, rfl, isMinus, words⟩ := List.map_eq_cons_iff.mp words
          obtain ⟨t, us, rfl, isNumber, words⟩ := List.map_eq_cons_iff.mp words
          obtain ⟨minus, -⟩ := Prod.mk.inj isMinus
          obtain ⟨number, text⟩ := Prod.mk.inj isNumber
          rw [← text] at readable
          have unary : op.kind.isUnary = true := by rw [minus]; rfl
          have ends : EndsExpr us := EndsDatum.endsExpr (by rw [words]; exact ends)
          have whole : (-(n.natAbs : Int)) = n := by omega
          refine ⟨_, us, isExpr_of_prefixed locate (.unary unary (.operand (.number number readable)
            .nil)) ends, words, ?_⟩
          have denotes : Denotes (.unary (locate op.start) op (.number (locate t.start) n.natAbs))
              (.number (-(n.natAbs : Int))) := .opposite minus
          rw [whole] at denotes
          exact denotes
        · rw [if_neg negative] at words
          obtain ⟨t, us, rfl, isNumber, words⟩ := List.map_eq_cons_iff.mp words
          obtain ⟨number, text⟩ := Prod.mk.inj isNumber
          rw [← text] at readable
          have ends : EndsExpr us := EndsDatum.endsExpr (by rw [words]; exact ends)
          have whole : (n.natAbs : Int) = n := by omega
          refine ⟨_, us, isExpr_of_prefixed locate (.operand (.number number readable) .nil) ends,
            words, ?_⟩
          have denotes : Denotes (.number (locate t.start) n.natAbs) (.number (n.natAbs : Int)) :=
            .number
          rw [whole] at denotes ⊢
          exact denotes
  | .boolean b =>
      obtain ⟨t, us, rfl, isName, words⟩ := List.map_eq_cons_iff.mp words
      obtain ⟨ident, text⟩ := Prod.mk.inj isName
      have ends : EndsExpr us := EndsDatum.endsExpr (by rw [words]; exact ends)
      refine ⟨_, us, isExpr_of_prefixed locate (.operand (.ident ident) .nil) ends, words, ?_⟩
      rw [text]
      exact .boolean
  | .array pairs =>
      cases proper with
      | array proper =>
        obtain ⟨t, ts, rfl, isOpening, words⟩ := List.map_eq_cons_iff.mp words
        obtain ⟨items, us, elements, words, denotes⟩ := pairs.derives proper words
        have ends : EndsExpr us := EndsDatum.endsExpr (by rw [words]; exact ends)
        have opening : t.kind = .openBracket := congrArg Prod.fst isOpening
        exact ⟨_, us, isExpr_of_prefixed locate (.operand (.array opening elements) .nil) ends,
          words, .array denotes⟩
termination_by structural d

theorem DatumPairs.derives (ds : DatumPairs) (proper : ds.Proper) {ts : List Token}
    {later : List Word} (words : ts.map Token.word = ds.words ++ later) :
    ∃ items us, IsElements locate ts items us ∧ us.map Token.word = later ∧
      DenotesElements items ds := by
  match ds with
  | .nil =>
      obtain ⟨t, us, rfl, isClosing, words⟩ := List.map_eq_cons_iff.mp words
      exact ⟨[], us, .close (congrArg Prod.fst isClosing), words, .nil⟩
  | .cons key value rest =>
      cases proper with
      | cons properKey properValue _ properRest =>
        rw [DatumPairs.words, List.append_assoc, List.cons_append, List.append_assoc,
          List.append_assoc] at words
        obtain ⟨k, us, isKey, words, denotesKey⟩ := key.derives properKey words ⟨rfl, rfl⟩
        obtain ⟨colon, us, rfl, isColon, words⟩ := List.map_eq_cons_iff.mp words
        obtain ⟨v, vs, isValue, words, denotesValue⟩ := value.derives properValue words
          (endsDatum_separator rest later)
        obtain ⟨ws, comma, words⟩ := optionalComma_of_separator words
        obtain ⟨items, rest', isRest, behind, denotesRest⟩ := rest.derives properRest words
        obtain ⟨t, ts', rfl, -⟩ := isKey.begins
        have element := IsElement.keyed isKey (congrArg Prod.fst isColon) isValue
        exact ⟨_, rest', .item element comma isRest, behind,
          .cons denotesKey denotesValue denotesRest⟩
termination_by structural ds

end

end Mini
