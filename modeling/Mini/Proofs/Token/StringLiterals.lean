import Mini.Proofs.Syntax.Literals
import Mini.Proofs.Token.Spaced

/-!
# String literals from both sides

The lexer finds out where a string literal ends, and decoding finds out what it says. Each of them
goes through the body of the literal on its own, and pairs backslashes with the characters behind
them. Here both are compared with one account of a body: it is made of plain characters and of
escapes, and in one way only.
-/

namespace Mini.StringLiteral

open Lexical

/-- The escapes and what they stand for. -/
def escapes : List (Char × Char) :=
  [('n', '\n'), ('t', '\t'), ('r', '\r'), ('0', '\x00'), ('\\', '\\'), ('\"', '\"'), ('\'', '\'')]

/-- A part of a body: a character that stands for itself, or a backslash and the character behind
it. -/
inductive Part
  | plain (c : Char) (free : c ≠ '\"' ∧ c ≠ '\\' ∧ c ≠ '\n')
  | escaped (c value : Char) (listed : (c, value) ∈ escapes)

/-- A part as it is written. -/
def Part.chars : Part → List Char
  | plain c _ => [c]
  | escaped c _ _ => ['\\', c]

/-- The character that a part stands for. -/
def Part.value : Part → Char
  | plain c _ => c
  | escaped _ value _ => value

/-- Decoding that puts what it is told in the place of an escape that stands for nothing, and in the
place of a backslash with nothing behind it. -/
def resolveWith (unknown : Char → List Char) (lone : List Char) : List Char → List Char
  | [] => []
  | ['\\'] => lone
  | '\\' :: c :: rest =>
      ((escapeValue? c).elim (unknown c) fun value => [value]) ++ resolveWith unknown lone rest
  | c :: rest => c :: resolveWith unknown lone rest

/-! ## Escapes -/

theorem escapeValue?_eq_some_iff {c value : Char} :
    escapeValue? c = some value ↔ (c, value) ∈ escapes := by
  constructor
  · intro found
    unfold escapeValue? at found
    split_ifs at found with h h h h h
    all_goals obtain rfl := Option.some.inj found
    · simp [escapes, h]
    · simp [escapes, h]
    · simp [escapes, h]
    · simp [escapes, h]
    · rcases h with rfl | rfl | rfl <;> simp [escapes]
  · intro mem
    simp only [escapes, List.mem_cons, Prod.mk.injEq, List.not_mem_nil, or_false] at mem
    rcases mem with ⟨rfl, rfl⟩ | ⟨rfl, rfl⟩ | ⟨rfl, rfl⟩ | ⟨rfl, rfl⟩ | ⟨rfl, rfl⟩ | ⟨rfl, rfl⟩ |
      ⟨rfl, rfl⟩ <;> rfl

theorem resolveWith_plain (unknown : Char → List Char) (lone : List Char) {c : Char}
    (backslash : c ≠ '\\') (rest : List Char) :
    resolveWith unknown lone (c :: rest) = c :: resolveWith unknown lone rest := by
  cases rest <;> simp [resolveWith, backslash]

/-- Decoding keeps the character of an unknown escape, and a backslash with nothing behind it. -/
theorem resolve_eq_resolveWith (cs : List Char) :
    resolve cs = resolveWith (fun c => [c]) ['\\'] cs := by
  fun_induction resolve cs with
  | case1 => rfl
  | case2 c rest ih =>
      rw [resolveWith, ih]
      cases escapeValue? c <;> rfl
  | case3 c rest single ih =>
      by_cases backslash : c = '\\'
      · cases rest with
        | nil => simp [resolveWith, resolve, backslash]
        | cons d rest => exact (single d rest backslash rfl).elim
      · rw [resolveWith_plain _ _ backslash, ih]

/-! ## Bodies and their parts -/

theorem exists_parts {body : List Char} (h : IsBody body) :
    ∃ parts : List Part, parts.flatMap Part.chars = body := by
  induction h with
  | nil => exact ⟨[], rfl⟩
  | @plain c cs quote backslash lineFeed _ ih =>
      obtain ⟨parts, rfl⟩ := ih
      exact ⟨.plain c ⟨quote, backslash, lineFeed⟩ :: parts, rfl⟩
  | @escape c cs known _ ih =>
      obtain ⟨parts, rfl⟩ := ih
      obtain ⟨value, found⟩ := Option.isSome_iff_exists.mp known
      exact ⟨.escaped c value (escapeValue?_eq_some_iff.mp found) :: parts, rfl⟩

/-- The first character tells whether a plain one or an escape is read, so a body has its parts in
one way only. -/
theorem parts_unique {parts parts' : List Part}
    (same : parts.flatMap Part.chars = parts'.flatMap Part.chars) : parts = parts' := by
  induction parts generalizing parts' with
  | nil =>
      rcases parts' with _ | ⟨_ | _, _⟩
      · rfl
      · simp [Part.chars] at same
      · simp [Part.chars] at same
  | cons part parts ih =>
      rcases part with ⟨c, free⟩ | ⟨c, value, listed⟩ <;>
        rcases parts' with _ | ⟨⟨c', free'⟩ | ⟨c', value', listed'⟩, parts'⟩ <;>
        simp only [List.flatMap_cons, List.flatMap_nil, Part.chars, List.cons_append,
          List.nil_append, List.cons.injEq, reduceCtorEq] at same
      · obtain ⟨rfl, later⟩ := same
        rw [ih later]
      · exact absurd same.1 free.2.1
      · exact absurd same.1.symm free'.2.1
      · obtain ⟨-, rfl, later⟩ := same
        rw [← escapeValue?_eq_some_iff] at listed listed'
        obtain rfl := Option.some.inj (listed.symm.trans listed')
        rw [ih later]

/-- Decoding replaces each part by what it stands for, and what it would do with other escapes does
not matter. -/
theorem resolveWith_flatMap_chars (unknown : Char → List Char) (lone : List Char)
    (parts : List Part) :
    resolveWith unknown lone (parts.flatMap Part.chars) = parts.map Part.value := by
  induction parts with
  | nil => rfl
  | cons part parts ih =>
      rcases part with ⟨c, free⟩ | ⟨c, value, listed⟩
      · simp [Part.chars, Part.value, resolveWith_plain _ _ free.2.1, ih]
      · simp [Part.chars, Part.value, resolveWith, escapeValue?_eq_some_iff.mpr listed, ih]

theorem decode_quoted {literal : String} {body : List Char}
    (quoted : literal.toList = '\"' :: (body ++ ['\"'])) :
    decode literal = String.ofList (resolve body) := by
  simp [decode, quoted]

/-! ## Tokens -/

theorem exists_body {text : String} (h : IsText .string text) :
    ∃ body, text.toList = '\"' :: (body ++ ['\"']) ∧ IsBody body := by
  generalize kind : TokenKind.string = other at h
  cases h with
  | symbol mem => exact absurd kind.symm (symbols_not_literals _ mem).2
  | keyword mem => exact absurd kind.symm (keywords_not_literals _ mem).2
  | number => cases kind
  | name => cases kind
  | string quoted isBody => exact ⟨_, quoted, isBody⟩

/-- A literal on its own is one token, from the first character to the last one. -/
theorem ofSource_encode (s : String) :
    Token.ofSource (encode s) =
      .ok [⟨.string, encode s, .start⟩,
        ⟨.endOfText, "", Position.start.advance (encode s).toList⟩] := by
  have divided : Divided .start ((encode s).toList ++ []) [.token ⟨.string, encode s, .start⟩] :=
    .token (isText_encode s) trivial .nil
  rw [List.append_nil] at divided
  exact Token.accepted_iff.mpr ⟨[⟨.string, encode s, .start⟩], divided, rfl⟩

/-- **The lexer and decoding agree on string literals.** Whatever source text a string token comes
from, what stands between its quotes is made of plain characters and of the seven escapes in one way
only, and its value has one character for each of these parts. So decoding never comes to an escape
that stands for nothing, nor to a backslash with nothing behind it: its value is the same whatever
it would do there. The other way round, the literal that is made from any text by escaping is a
single token, and its value is that text. -/
theorem scanned_as_decoded :
    (∀ (source : String) (result : List Token), Token.ofSource source = .ok result →
      ∀ t ∈ result, t.kind = .string →
        ∃ (body : List Char) (parts : List Part),
          t.text.toList = '\"' :: (body ++ ['\"']) ∧ parts.flatMap Part.chars = body ∧
          (∀ parts' : List Part, parts'.flatMap Part.chars = body → parts' = parts) ∧
          decode t.text = String.ofList (parts.map Part.value) ∧
          ∀ unknown lone, resolveWith unknown lone body = (decode t.text).toList) ∧
    ∀ s : String,
      Token.ofSource (encode s) =
        .ok [⟨.string, encode s, .start⟩,
          ⟨.endOfText, "", Position.start.advance (encode s).toList⟩] ∧
      decode (encode s) = s := by
  constructor
  · intro source result accepted t mem isString
    obtain ⟨tokens, finish, rfl, texts⟩ := Token.isText_of_ofSource accepted
    have isText : IsText .string t.text := by
      rcases List.mem_append.mp mem with inBody | atEnd
      · rw [← isString]
        exact texts t inBody
      · rw [List.mem_singleton.mp atEnd] at isString
        cases isString
    obtain ⟨body, quoted, isBody⟩ := exists_body isText
    obtain ⟨parts, rfl⟩ := exists_parts isBody
    have value : decode t.text = String.ofList (parts.map Part.value) := by
      rw [decode_quoted quoted, resolve_eq_resolveWith, resolveWith_flatMap_chars]
    refine ⟨_, parts, quoted, rfl, fun parts' same => parts_unique same, value, ?_⟩
    intro unknown lone
    rw [value, String.toList_ofList, resolveWith_flatMap_chars]
  · intro s
    exact ⟨ofSource_encode s, decode_encode s⟩

/-- A literal that ends behind two backslashes, and one that does not end behind the first quote. -/
def backslashes : String :=
  "\"\\\\\" + \"\\\"\""

def backslashTokens : List Token :=
  [⟨.string, "\"\\\\\"", ⟨1, 1, 0⟩⟩, ⟨.plus, "+", ⟨1, 6, 5⟩⟩, ⟨.string, "\"\\\"\"", ⟨1, 8, 7⟩⟩,
    ⟨.endOfText, "", ⟨1, 12, 11⟩⟩]

theorem scanned_as_decoded_backslashes :
    Token.ofSource backslashes = .ok backslashTokens ∧
    ∃ first second : List Part,
      first.flatMap Part.chars = ['\\', '\\'] ∧ first.map Part.value = ['\\'] ∧
      second.flatMap Part.chars = ['\\', '\"'] ∧ second.map Part.value = ['\"'] := by
  have lexed : Token.ofSource backslashes = .ok backslashTokens := by decide +kernel
  obtain ⟨body, first, quoted, rfl, -, value, -⟩ :=
    scanned_as_decoded.1 _ _ lexed ⟨.string, "\"\\\\\"", ⟨1, 1, 0⟩⟩ (by decide) rfl
  obtain ⟨body', second, quoted', rfl, -, value', -⟩ :=
    scanned_as_decoded.1 _ _ lexed ⟨.string, "\"\\\"\"", ⟨1, 8, 7⟩⟩ (by decide) rfl
  have chars : ['\\', '\\'] ++ ['\"'] = first.flatMap Part.chars ++ ['\"'] :=
    (List.cons.inj quoted).2
  have chars' : ['\\', '\"'] ++ ['\"'] = second.flatMap Part.chars ++ ['\"'] :=
    (List.cons.inj quoted').2
  refine ⟨lexed, first, second, (List.append_cancel_right chars).symm, ?_,
    (List.append_cancel_right chars').symm, ?_⟩
  · exact String.ofList_injective (value.symm.trans (by decide))
  · exact String.ofList_injective (value'.symm.trans (by decide))

end Mini.StringLiteral
