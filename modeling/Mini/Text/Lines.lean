import Mini.Text.Blank

/-!
# Lines of a text

The lines that are quoted in locations. A line ends at any of ten characters (or
at a carriage return with its line feed), which is a larger set than the line
feeds that line *numbers* count.
-/

namespace Mini.Text

/-- The characters that end a line. -/
def isLineBreak (c : Char) : Bool :=
  c = '\n' || c = '\r' || c = '\x0b' || c = '\x0c' || c = '\x1c' || c = '\x1d' || c = '\x1e' ||
    c = '\u0085' || c = '\u2028' || c = '\u2029'

/-- The lines of a text without their ends. A break at the very end begins no
further line. -/
def lines : List Char → List (List Char)
  | [] => []
  | '\r' :: '\n' :: rest => [] :: lines rest
  | c :: rest =>
      if isLineBreak c then [] :: lines rest
      else
        match lines rest with
        | [] => [[c]]
        | line :: later => (c :: line) :: later

/-- A text without blank characters at either end. -/
def trim (cs : List Char) : List Char :=
  ((cs.dropWhile isBlank).reverse.dropWhile isBlank).reverse

/-- A carriage return, alone or before a line feed, becomes one line feed. -/
def foldLineEnds : List Char → List Char
  | [] => []
  | '\r' :: '\n' :: rest => '\n' :: foldLineEnds rest
  | '\r' :: rest => '\n' :: foldLineEnds rest
  | c :: rest => c :: foldLineEnds rest

/-- A text without carriage returns keeps its line ends. -/
theorem foldLineEnds_of_not_mem {cs : List Char} (h : '\r' ∉ cs) : foldLineEnds cs = cs := by
  fun_induction foldLineEnds cs with
  | case1 => rfl
  | case2 => simp at h
  | case3 => simp at h
  | case4 c rest _ _ ih =>
      rw [ih]
      intro mem
      exact h (List.mem_cons_of_mem _ mem)

/-- No carriage return is left. -/
theorem not_mem_foldLineEnds (cs : List Char) : '\r' ∉ foldLineEnds cs := by
  fun_induction foldLineEnds cs with
  | case1 => simp
  | case2 _ ih => simpa using ih
  | case3 _ _ ih => simpa using ih
  | case4 c rest _ distinct ih =>
      intro mem
      rcases List.mem_cons.mp mem with rfl | later
      · exact distinct rfl
      · exact ih later

end Mini.Text
