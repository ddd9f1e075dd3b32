import Mini.Text.Ranges

/-!
# Blank characters

The characters that are cut from both ends of a source line when it is quoted in
a location. The gaps between tokens are a different, smaller set.
-/

namespace Mini.Text

/-- The code points of the blank characters. -/
def blanks : Ranges :=
  [(0x9, 0xD), (0x1C, 0x20), (0x85, 0x85), (0xA0, 0xA0), (0x1680, 0x1680), (0x2000, 0x200A),
    (0x2028, 0x2029), (0x202F, 0x202F), (0x205F, 0x205F), (0x3000, 0x3000)]

/-- A blank character. -/
def isBlank (c : Char) : Bool :=
  blanks.contains c.toNat

theorem blanks_ordered : blanks.ordered = true := by
  decide +kernel

/-- Every character that core counts as white space is blank. -/
theorem isBlank_of_isWhitespace {c : Char} (h : c.isWhitespace = true) : isBlank c = true := by
  simp only [Char.isWhitespace, Bool.or_eq_true, decide_eq_true_eq] at h
  rcases h with ((rfl | rfl) | rfl) | rfl <;> decide +kernel

end Mini.Text
