import Mini.Program
import Mini.Proofs.Grammar.Unfinished

/-!
# Faults are found at the first impossible token

What comes before a rejected token is the beginning of a program, and nothing that goes on with
the rejected token is one. The first half says that the reading has not gone on for too long, the
second that it has not given up too early; both hold for any tokens, whether a text has them or
not.
-/

namespace Mini

open Grammar Text

variable {locate : Position → Location}

/-- The token that a message is to name: the rejected one, or a parenthesis with a whole expression
behind it, where something else than its closing one is found. -/
def Expected.Names (locate : Position → Location) (before : List Token) (found : Token)
    (rest : List Token) (named : Token) : Expected → Prop
  | .closing opening => named = opening ∧ Opened locate before (found :: rest) (.closing opening)
  | _ => named = found

theorem Expected.names_named {before rest : List Token} {found : Token} {expected : Expected}
    (opened : Opened locate before (found :: rest) expected) :
    expected.Names locate before found rest (expected.named found) := by
  cases expected with
  | closing opening => exact ⟨rfl, opened⟩
  | _ => rfl

/-- A rejection is the one of the statements, with any budget that is enough. -/
theorem Program.ofTokens_eq_error {ts : List Token} {e : Rejection} {n : Nat}
    (enough : 5 * ts.length + 5 ≤ n) :
    ofTokens locate ts = .error e ↔ Grammar.statements locate n false ts = .error e := by
  rw [steady (improves_same locate · false ts) enough (statements_enough false ts), ofTokens]
  cases Grammar.statements locate (5 * ts.length + 5) false ts with
  | ok result => constructor <;> intro h <;> cases h
  | error rejection => constructor <;> intro h <;> cases h <;> rfl

/-- A rejected token is rejected whatever comes after it. -/
theorem Program.ofTokens_unexpected {before rest : List Token} {found : Token} {expected : Expected}
    (rejected : ofTokens locate (before ++ found :: rest) = .error (.unexpected expected found rest))
    (later : List Token) :
    ofTokens locate (before ++ found :: later) = .error (.unexpected expected found later) := by
  -- one budget that is enough for both lists
  have enough := Nat.le_max_left (5 * (before ++ found :: rest).length + 5)
    (5 * (before ++ found :: later).length + 5)
  have enough' := Nat.le_max_right (5 * (before ++ found :: rest).length + 5)
    (5 * (before ++ found :: later).length + 5)
  rw [ofTokens_eq_error enough] at rejected
  rw [ofTokens_eq_error enough']
  exact statements_unexpected locate rejected later

/-- **Faults are found at the first impossible token.** The tokens before a rejected one can go on
as a program, and no list of tokens that goes on with the rejected one is a program: it is rejected
there, too. A message has the place of that token, but that of the parenthesis if it says that one
is not closed. -/
theorem Program.first_fault {ts rest : List Token} {found : Token} {expected : Expected}
    (rejected : ofTokens locate ts = .error (.unexpected expected found rest)) :
    ∃ before, ts = before ++ found :: rest ∧
      (∃ later p, ofTokens locate (before ++ later) = .ok p) ∧
      (∀ later,
        ofTokens locate (before ++ found :: later) = .error (.unexpected expected found later)) ∧
      ∃ named, expected.Names locate before found rest named ∧
        ∀ file, (Rejection.unexpected expected found rest).message file =
          file ++ ":" ++ integerText named.start.line ++ ":" ++ integerText named.start.column ++
            ": " ++ expected.text := by
  have unfinished := (completableAt locate (5 * ts.length + 5)).statements false ts
  rw [(ofTokens_eq_error (Nat.le_refl _)).mp rejected] at unfinished
  obtain ⟨before, more, rfl, opened, completes⟩ := unfinished
  refine ⟨before, rfl, ?_, ofTokens_unexpected rejected, _, Expected.names_named opened,
    fun file => rfl⟩
  have ends : EndsExpr [filler .endOfText] := ⟨rfl, rfl⟩
  obtain ⟨⟨items, derives⟩, -⟩ := completes [filler .endOfText] ends
  exact ⟨_, ⟨items⟩, ofTokens_of_derivation derives rfl⟩

/-- The words of `x = (1 + 2;`, in the columns of the first line. -/
def unclosed : List Token :=
  [(.ident, "x"), (.assign, "="), (.openParen, "("), (.number, "1"), (.plus, "+"), (.number, "2"),
    (.semicolon, ";"), (.endOfText, "")].zipIdx.map fun ((kind, text), i) => ⟨kind, text, ⟨1, i, i⟩⟩

theorem Program.first_fault_unclosed :
    let opening : Token := ⟨.openParen, "(", ⟨1, 2, 2⟩⟩
    let found : Token := ⟨.semicolon, ";", ⟨1, 6, 6⟩⟩
    let rest : List Token := [⟨.endOfText, "", ⟨1, 7, 7⟩⟩]
    ofTokens (fun _ => default) unclosed = .error (.unexpected (.closing opening) found rest) ∧
      ∃ before, unclosed = before ++ found :: rest ∧
        (∃ later p, ofTokens (fun _ => default) (before ++ later) = .ok p) ∧
        (∀ later, ofTokens (fun _ => default) (before ++ found :: later) =
          .error (.unexpected (.closing opening) found later)) ∧
        ∃ named, (Expected.closing opening).Names (fun _ => default) before found rest named ∧
          ∀ file, (Rejection.unexpected (.closing opening) found rest).message file =
            file ++ ":" ++ integerText named.start.line ++ ":" ++
              integerText named.start.column ++ ": " ++ (Expected.closing opening).text :=
  ⟨rfl, Program.first_fault rfl⟩

end Mini
