/-!
# Positions in a source text

A position counts lines and columns from one and characters from zero. Only the
line feed begins a new line.

The numbers are integers. In a text they are never negative, but tokens and
fragments may also be made by hand, and then their positions mean only what the
caller says.
-/

namespace Mini

/-- A place in a source text. -/
structure Position where
  line : Int
  column : Int
  offset : Int
  deriving DecidableEq, Repr, Inhabited

namespace Position

/-- The first character's position. -/
def start : Position :=
  ⟨1, 1, 0⟩

/-- The position after one character. -/
def next (p : Position) (c : Char) : Position :=
  if c = '\n' then ⟨p.line + 1, 1, p.offset + 1⟩ else ⟨p.line, p.column + 1, p.offset + 1⟩

/-- The position after a stretch of text. -/
def advance (p : Position) (cs : List Char) : Position :=
  cs.foldl next p

@[simp] theorem advance_nil (p : Position) : p.advance [] = p :=
  rfl

@[simp] theorem advance_cons (p : Position) (c : Char) (cs : List Char) :
    p.advance (c :: cs) = (p.next c).advance cs :=
  rfl

theorem advance_append (p : Position) (cs ds : List Char) :
    p.advance (cs ++ ds) = (p.advance cs).advance ds := by
  unfold advance
  rw [List.foldl_append]

/-- Every character moves the offset by one. -/
theorem offset_advance (p : Position) (cs : List Char) :
    (p.advance cs).offset = p.offset + cs.length := by
  induction cs generalizing p with
  | nil => simp
  | cons c cs ih =>
      rw [advance_cons, ih]
      unfold next
      by_cases h : c = '\n'
      · simp [h]
        omega
      · simp [h]
        omega

/-- Every line feed moves the line by one. -/
theorem line_advance (p : Position) (cs : List Char) :
    (p.advance cs).line = p.line + cs.count '\n' := by
  induction cs generalizing p with
  | nil => simp
  | cons c cs ih =>
      rw [advance_cons, ih]
      unfold next
      by_cases h : c = '\n'
      · simp [h]
        omega
      · simp [h]

end Position

end Mini
