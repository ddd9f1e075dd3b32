/-!
# String literals

A string literal stands between double quotes on one line. A backslash and the
character after it make an escape; seven of them are allowed in a source text.
Decoding is more lenient than that, because it also has to give a meaning to
literals that no source text holds.
-/

namespace Mini.StringLiteral

/-- The character that an escape stands for. -/
def escapeValue? (c : Char) : Option Char :=
  if c = 'n' then some '\n'
  else if c = 't' then some '\t'
  else if c = 'r' then some '\r'
  else if c = '0' then some '\x00'
  else if c = '\\' ∨ c = '\"' ∨ c = '\'' then some c
  else none

/-- Replaces each escape by its character. An escape that stands for nothing
keeps the character after the backslash; a backslash at the end is kept. -/
def resolve : List Char → List Char
  | [] => []
  | '\\' :: c :: rest => (escapeValue? c).getD c :: resolve rest
  | c :: rest => c :: resolve rest

/-- The value of a literal: its first and last characters are the quotes. -/
def decode (literal : String) : String :=
  String.ofList (resolve (literal.toList.drop 1).dropLast)

/-- What follows the opening quote of a literal: how many characters belong to
it, whether the last of them is the closing quote, and at which of them an escape
begins that is not allowed. -/
structure Rest where
  length : Nat
  closed : Bool
  badEscapes : List Nat
  deriving DecidableEq, Repr

/-- The rest is `n` characters longer. -/
def Rest.after (n : Nat) (bad : List Nat) (r : Rest) : Rest :=
  ⟨r.length + n, r.closed, bad ++ r.badEscapes.map (· + n)⟩

/-- Reads a literal after its opening quote, up to the closing quote. A line feed
or the end of the text leaves it open; the line feed does not belong to it, unless
a backslash stands before it. -/
def rest : List Char → Rest
  | [] => ⟨0, false, []⟩
  | '\"' :: _ => ⟨1, true, []⟩
  | '\n' :: _ => ⟨0, false, []⟩
  | ['\\'] => ⟨1, false, []⟩
  | '\\' :: c :: cs => (rest cs).after 2 (if (escapeValue? c).isSome then [] else [0])
  | _ :: cs => (rest cs).after 1 []

/-- No more characters belong to a literal than there are. -/
theorem length_rest_le (cs : List Char) : (rest cs).length ≤ cs.length := by
  fun_induction rest cs <;> simp_all [Rest.after]

end Mini.StringLiteral
