import Mathlib.Data.List.TakeWhile
import Mini.Location

/-!
# Rows and lines

Line numbers count line feeds, so they number the rows of a text. A listing numbers its lines, and
a line ends at other characters too. The two agree as long as every break is a line feed, alone or
behind a carriage return. One break that is not shifts all lines behind it: from there on the
number of a row finds a line of an earlier row.
-/

namespace Mini

namespace Text

/-- A stretch of text that is empty or ends with a line feed. -/
def Fed (cs : List Char) : Prop :=
  ∀ c ∈ cs.getLast?, c = '\n'

instance (cs : List Char) : Decidable (Fed cs) :=
  Option.decidableForallMem cs.getLast?

/-- A row of a text: in front of it is nothing or a line feed, behind it nothing or a line feed,
and it has none itself. -/
structure IsRow (cs earlier row later : List Char) : Prop where
  whole : cs = earlier ++ (row ++ later)
  begins : Fed earlier
  single : '\n' ∉ row
  ends : ∀ c ∈ later.head?, c = '\n'

/-- How many breaks of a text are not counted by line numbers: all but the line feeds, and the
carriage returns in front of those. -/
def strays : List Char → Nat
  | [] => 0
  | '\r' :: '\n' :: rest => strays rest
  | c :: rest => (if isLineBreak c ∧ c ≠ '\n' then 1 else 0) + strays rest

/-- The part of a row in front of its first break. -/
def visible (row : List Char) : List Char :=
  row.takeWhile fun c => !isLineBreak c

/-- The part of a row from its first break on. -/
def hidden (row : List Char) : List Char :=
  row.dropWhile fun c => !isLineBreak c

/-! ## Lines behind a line feed -/

theorem Fed.tail {c : Char} {rest : List Char} (h : Fed (c :: rest)) : Fed rest := by
  intro d last
  have some : rest ≠ [] := by
    rintro rfl
    simp at last
  apply h
  rw [List.getLast?_cons_of_ne_nil some]
  exact last

theorem Fed.ne_nil {c : Char} {rest : List Char} (h : Fed (c :: rest)) (other : c ≠ '\n') :
    rest ≠ [] := by
  rintro rfl
  exact other (h c rfl)

/-- A carriage return and a line feed are parted by no line feed in front of them. -/
theorem Fed.not_parted {c : Char} {rest : List Char} (h : Fed (c :: rest)) (cs : List Char)
    (apart : ∀ tail, c = '\r' → rest = '\n' :: tail → False) :
    ∀ tail, c = '\r' → rest ++ cs = '\n' :: tail → False := by
  rintro tail rfl same
  obtain ⟨d, rest, rfl⟩ := List.exists_cons_of_ne_nil (h.ne_nil (by decide))
  obtain ⟨rfl, -⟩ := List.cons_eq_cons.mp same
  exact apart rest rfl rfl

theorem lines_ne_nil {cs : List Char} (h : cs ≠ []) : lines cs ≠ [] := by
  fun_cases lines cs with
  | case1 => exact absurd rfl h
  | case2 | case3 | case4 | case5 => simp

/-- A character that ends no line is not the last one in front of a row. -/
theorem Fed.inside {c : Char} {rest : List Char} (h : Fed (c :: rest))
    (inside : ¬isLineBreak c = true) : c ≠ '\n' ∧ lines rest ≠ [] := by
  have other : c ≠ '\n' := by
    rintro rfl
    exact inside rfl
  exact ⟨other, lines_ne_nil (h.ne_nil other)⟩

/-- The lines of a text that does not begin with a carriage return and a line feed. -/
theorem lines_cons {c : Char} {rest : List Char}
    (apart : ∀ tail, c = '\r' → rest = '\n' :: tail → False) :
    lines (c :: rest) =
      if isLineBreak c then [] :: lines rest
      else (c :: (lines rest).headD []) :: (lines rest).tail := by
  generalize same : c :: rest = cs
  fun_cases lines cs with
  | case1 => cases same
  | case2 tail =>
      cases same
      exact (apart tail rfl rfl).elim
  | case3 _ _ _ isBreak =>
      cases same
      rw [if_pos isBreak]
  | case4 _ _ _ inside none =>
      cases same
      rw [if_neg inside, none]
      rfl
  | case5 _ _ _ inside line later found =>
      cases same
      rw [if_neg inside, found]
      rfl

theorem lines_append {earlier : List Char} (h : Fed earlier) (cs : List Char) :
    lines (earlier ++ cs) = lines earlier ++ lines cs := by
  fun_induction lines earlier with
  | case1 => rfl
  | case2 rest ih =>
      show [] :: lines (rest ++ cs) = [] :: lines rest ++ lines cs
      rw [ih h.tail.tail, List.cons_append]
  | case3 c rest apart isBreak ih =>
      rw [List.cons_append, lines_cons (h.not_parted cs apart), if_pos isBreak, ih h.tail,
        List.cons_append]
  | case4 c rest apart inside none ih => exact absurd none (h.inside inside).2
  | case5 c rest apart inside line later found ih =>
      rw [List.cons_append, lines_cons (h.not_parted cs apart), if_neg inside, ih h.tail, found]
      rfl

/-- Every break begins a line, whether or not line numbers count it. -/
theorem length_lines {earlier : List Char} (h : Fed earlier) :
    (lines earlier).length = earlier.count '\n' + strays earlier := by
  fun_induction lines earlier with
  | case1 => rfl
  | case2 rest ih =>
      have length := ih h.tail.tail
      rw [strays, List.length_cons, length]
      simp
      omega
  | case3 c rest apart isBreak ih =>
      have length := ih h.tail
      rw [strays.eq_3 _ _ apart, List.length_cons, length]
      by_cases feed : c = '\n'
      · simp [feed]
        omega
      · simp [feed, isBreak]
        omega
  | case4 c rest apart inside none ih => exact absurd none (h.inside inside).2
  | case5 c rest apart inside line later found ih =>
      have length := ih h.tail
      rw [found, List.length_cons] at length
      rw [strays.eq_3 _ _ apart, List.length_cons]
      simp [inside, (h.inside inside).1, length]

/-- The first line ends at the first break. -/
theorem head_lines {cs : List Char} (h : cs ≠ []) : (lines cs).head? = some (visible cs) := by
  fun_induction lines cs with
  | case1 => exact absurd rfl h
  | case2 => simp [visible, isLineBreak]
  | case3 c rest _ isBreak => simp [visible, isBreak]
  | case4 c rest _ inside none =>
      have empty : rest = [] := by
        by_contra some
        exact lines_ne_nil some none
      simp [visible, empty, inside]
  | case5 c rest _ inside line later found ih =>
      have some : rest ≠ [] := by
        rintro rfl
        cases found
      have first := ih some
      rw [found] at first
      have line := Option.some.inj first
      simp only [visible] at line
      simp [visible, inside, line]

/-! ## What a trimmed text keeps -/

theorem filter_dropWhile_blank (cs : List Char) :
    (cs.dropWhile isBlank).filter (!isBlank ·) = cs.filter (!isBlank ·) := by
  induction cs with
  | nil => rfl
  | cons c cs ih =>
      by_cases blank : isBlank c = true
      · simpa [List.dropWhile_cons, blank] using ih
      · simp [blank]

/-- Trimming takes away blanks only. -/
theorem filter_trim (cs : List Char) :
    (trim cs).filter (!isBlank ·) = cs.filter (!isBlank ·) := by
  rw [trim, List.filter_reverse, filter_dropWhile_blank, List.filter_reverse, List.reverse_reverse,
    filter_dropWhile_blank]

theorem trim_append_blanks (cs : List Char) {blanks : List Char}
    (blank : ∀ c ∈ blanks, isBlank c = true) : trim (cs ++ blanks) = trim cs := by
  have front : blanks.dropWhile isBlank = [] := List.dropWhile_eq_nil_iff.mpr blank
  have back : blanks.reverse.dropWhile isBlank = [] :=
    List.dropWhile_eq_nil_iff.mpr (by simpa using blank)
  rw [trim, trim, List.dropWhile_append]
  by_cases empty : (cs.dropWhile isBlank).isEmpty = true
  · rw [if_pos empty, front, List.isEmpty_iff.mp empty]
  · rw [if_neg empty, List.reverse_append, List.dropWhile_append, back]
    rfl

/-- What is hidden of a row is missing from it unless it is blank. -/
theorem trim_visible_iff (row : List Char) :
    trim (visible row) = trim row ↔ ∀ c ∈ hidden row, isBlank c = true := by
  have parts : visible row ++ hidden row = row := List.takeWhile_append_dropWhile
  constructor
  · intro same c mem
    have kept : (visible row).filter (!isBlank ·) =
        (visible row ++ hidden row).filter (!isBlank ·) := by
      rw [parts, ← filter_trim, same, filter_trim]
    rw [List.filter_append, List.self_eq_append_right, List.filter_eq_nil_iff] at kept
    simpa using kept c mem
  · intro blank
    rw [← trim_append_blanks _ blank, parts]

/-! ## Rows without strays -/

theorem strays_append {earlier : List Char} (h : Fed earlier) (cs : List Char) :
    strays (earlier ++ cs) = strays earlier + strays cs := by
  fun_induction strays earlier with
  | case1 => simp
  | case2 rest ih => exact ih h.tail.tail
  | case3 c rest apart ih =>
      rw [List.cons_append, strays.eq_3 _ _ (h.not_parted cs apart), ih h.tail]
      omega

/-- Without strays a row is hidden from a carriage return at its end, or nowhere. -/
theorem hidden_of_strays {row later : List Char} (single : '\n' ∉ row)
    (none : strays (row ++ later) = 0) : ∀ c ∈ hidden row, isBlank c = true := by
  induction row with
  | nil => simp [hidden]
  | cons c row ih =>
      obtain ⟨other, absent⟩ := not_or.mp (mt List.mem_cons.mpr single)
      by_cases pair : ∃ tail, c = '\r' ∧ row ++ later = '\n' :: tail
      · obtain ⟨tail, rfl, feed⟩ := pair
        have last : row = [] := by
          cases row with
          | nil => rfl
          | cons d row =>
              obtain ⟨rfl, -⟩ := List.cons_eq_cons.mp feed
              exact absurd List.mem_cons_self absent
        have all : hidden ['\r'] = ['\r'] := by decide +kernel
        have blank : isBlank '\r' = true := by decide +kernel
        rw [last, all]
        exact List.forall_mem_singleton.mpr blank
      · have apart : ∀ tail, c = '\r' → row ++ later = '\n' :: tail → False :=
          fun tail return' feed => pair ⟨tail, return', feed⟩
        rw [List.cons_append, strays.eq_3 _ _ apart, Nat.add_eq_zero_iff] at none
        have inside : isLineBreak c = false := by simpa [Ne.symm other] using none.1
        rw [hidden, List.dropWhile_cons_of_pos (by simp [inside])]
        exact ih absent none.2

/-- In a text without strays all of a row is visible, up to blanks. -/
theorem IsRow.trim_visible {cs earlier row later : List Char} (h : IsRow cs earlier row later)
    (none : strays cs = 0) : strays earlier = 0 ∧ trim (visible row) = trim row := by
  rw [h.whole, strays_append h.begins, Nat.add_eq_zero_iff] at none
  exact ⟨none.1, (trim_visible_iff row).mpr (hidden_of_strays h.single none.2)⟩

/-! ## The row of a place -/

theorem not_mem_takeWhile_feed (cs : List Char) : '\n' ∉ cs.takeWhile (· ≠ '\n') := by
  intro mem
  simpa using List.mem_takeWhile_imp mem

theorem head_dropWhile_feed (cs : List Char) :
    ∀ c ∈ (cs.dropWhile (· ≠ '\n')).head?, c = '\n' := by
  intro c head
  have first := List.head?_dropWhile_not (· ≠ '\n') cs
  rw [Option.mem_def.mp head] at first
  simpa using first

/-- A text is cut behind its last line feed. -/
theorem exists_fed (before : List Char) :
    ∃ earlier ahead, before = earlier ++ ahead ∧ Fed earlier ∧ '\n' ∉ ahead ∧
      ahead.length = (before.reverse.takeWhile (· ≠ '\n')).length := by
  refine ⟨(before.reverse.dropWhile (· ≠ '\n')).reverse,
    (before.reverse.takeWhile (· ≠ '\n')).reverse, ?_, ?_, ?_, List.length_reverse⟩
  · rw [← List.reverse_append, List.takeWhile_append_dropWhile, List.reverse_reverse]
  · intro c last
    rw [List.getLast?_reverse] at last
    exact head_dropWhile_feed _ c last
  · rw [List.mem_reverse]
    exact not_mem_takeWhile_feed _

/-- Every place in a text is on a row. -/
theorem exists_isRow (before after : List Char) :
    ∃ earlier ahead rest later, before = earlier ++ ahead ∧
      IsRow (before ++ after) earlier (ahead ++ rest) later ∧
      before.count '\n' = earlier.count '\n' ∧
      ahead.length = (before.reverse.takeWhile (· ≠ '\n')).length := by
  obtain ⟨earlier, ahead, rfl, fed, single, length⟩ := exists_fed before
  refine ⟨earlier, ahead, after.takeWhile (· ≠ '\n'), after.dropWhile (· ≠ '\n'), rfl,
    ⟨?_, fed, ?_, head_dropWhile_feed after⟩, ?_, length⟩
  · rw [List.append_assoc, List.append_assoc, List.takeWhile_append_dropWhile]
  · rw [List.mem_append]
    exact fun mem => mem.elim single (not_mem_takeWhile_feed after)
  · rw [List.count_append, List.count_eq_zero_of_not_mem single, Nat.add_zero]

/-! ## The line of a number -/

theorem visible_append {row later : List Char} (ends : ∀ c ∈ later.head?, c = '\n') :
    visible (row ++ later) = visible row := by
  cases later with
  | nil => rw [List.append_nil]
  | cons c later =>
      obtain rfl := ends c rfl
      have stop : ('\n' :: later).takeWhile (fun c => !isLineBreak c) = [] :=
        List.takeWhile_cons_of_neg (by decide)
      rw [visible, visible, List.takeWhile_append, stop]
      split
      · rename_i whole
        rw [List.append_nil, (List.takeWhile_prefix _).eq_of_length whole]
      · rfl

theorem line_ofText (file source : String) (n : Nat) :
    (Listing.ofText file source).line (1 + n) =
      (((lines source.toList)[n]?).map fun line => String.ofList (trim line)).getD "" := by
  have inside : ¬(1 + (n : Int) < 1) := by omega
  have index : (1 + (n : Int)).toNat - 1 = n := by omega
  rw [Listing.line, if_neg inside, index, Listing.ofText]
  simp

/-- **What stands for a row in a listing.** If every break in front of the row is counted, the line
of its number is the row up to its first break; otherwise it is a line of an earlier row. -/
theorem line_of_row (file : String) {source : String} {earlier row later : List Char}
    (h : IsRow source.toList earlier row later) :
    (strays earlier = 0 → (Listing.ofText file source).line (1 + earlier.count '\n') =
      String.ofList (trim (visible row))) ∧
    (strays earlier ≠ 0 → ∃ line, (lines earlier)[earlier.count '\n']? = some line ∧
      (Listing.ofText file source).line (1 + earlier.count '\n') = String.ofList (trim line)) := by
  have length := length_lines h.begins
  rw [line_ofText, h.whole, lines_append h.begins]
  constructor
  · intro none
    rw [List.getElem?_append_right (by omega), length, none, Nat.add_zero, Nat.sub_self,
      ← List.head?_eq_getElem?]
    by_cases empty : row ++ later = []
    · rw [List.append_eq_nil_iff] at empty
      rw [empty.1, empty.2]
      rfl
    · rw [head_lines empty, visible_append h.ends]
      rfl
  · intro some
    have inside : earlier.count '\n' < (lines earlier).length := by omega
    rw [List.getElem?_append_left inside, List.getElem?_eq_getElem inside]
    exact ⟨_, rfl, rfl⟩

end Text

end Mini
