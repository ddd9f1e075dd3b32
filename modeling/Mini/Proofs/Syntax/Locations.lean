import Mini.Program
import Mini.Proofs.Grammar.Acceptance
import Mini.Proofs.Syntax.Canonical
import Mini.Proofs.Text.Rows
import Mini.Proofs.Token.Positions

/-!
# The lines that locations quote

Every location in a tree was made from a token of the text, and a token stands on the row that its
line number says. What the location quotes is looked up by that number in the listing, whose lines
are not the rows. So a quoted line is the line of the token only under a condition on the breaks
that stand in front, and the condition is exact.
-/

namespace Mini

open Text

/-! ## Locations of a tree -/

mutual

/-- The locations of an expression and of all nodes in it. -/
def Expr.locations : Expr → List Location
  | .number location _ | .text location _ => [location]
  | .ident id => [id.location]
  | .func location params body => location :: (params.map (·.location) ++ body.locations)
  | .array location elements => location :: Element.listLocations elements
  | .unary location _ operand => location :: operand.locations
  | .binary location _ left right => location :: (left.locations ++ right.locations)
  | .index location base key => location :: (base.locations ++ key.locations)
  | .select location base selector => location :: (base.locations ++ [selector.location])
  | .paren location inner => location :: inner.locations
  | .call location callee args => location :: (callee.locations ++ Expr.listLocations args)

def Expr.listLocations : List Expr → List Location
  | [] => []
  | e :: es => e.locations ++ Expr.listLocations es

/-- The locations of an element. One without a key is no node of its own. -/
def Element.locations : Element → List Location
  | .plain value => value.locations
  | .keyed location key value => location :: (key.locations ++ value.locations)

def Element.listLocations : List Element → List Location
  | [] => []
  | element :: elements => element.locations ++ Element.listLocations elements

/-- The locations of a statement and of all nodes in it. -/
def Stmt.locations : Stmt → List Location
  | .block body => body.locations
  | .assign location target value => location :: (target.locations ++ value.locations)
  | .cond branch => branch.locations
  | .empty location => [location]
  | .expr location value => location :: value.locations
  | .loop location test body => location :: (test.locations ++ body.locations)
  | .ret location none => [location]
  | .ret location (some value) => location :: value.locations

def Stmt.listLocations : List Stmt → List Location
  | [] => []
  | statement :: statements => statement.locations ++ Stmt.listLocations statements

/-- The locations of a block. -/
def Block.locations : Block → List Location
  | .mk location statements => location :: Stmt.listLocations statements

/-- The locations of an `if` and of all that belongs to it. -/
def Branch.locations : Branch → List Location
  | .mk location test body otherwise =>
      location :: (test.locations ++ (body.locations ++ otherwise.locations))

/-- The locations of what ends an `if`. -/
def Otherwise.locations : Otherwise → List Location
  | .nothing => []
  | .block body => body.locations
  | .branch next => next.locations

end

/-- The locations of all nodes of a program. -/
def Program.locations (p : Program) : List Location :=
  Stmt.listLocations p.statements

namespace Expr

theorem location_mem_locations (e : Expr) : e.location ∈ e.locations := by
  cases e <;> simp [location, locations]

/-- An operator has the location of its left operand, so it brings no new one. -/
theorem locations_attach (left : Expr) (op : Token) (right : Expr) :
    ∀ l ∈ (left.attach op right).locations, l ∈ left.locations ∨ l ∈ right.locations := by
  fun_induction attach left op right with
  | case1 location inner l r tighter ih =>
      simp only [locations, List.mem_cons, List.mem_append]
      rintro k (same | below | below)
      · exact .inl (.inl same)
      · exact .inl (.inr (.inl below))
      · rcases ih k below with below | new
        · exact .inl (.inr (.inr below))
        · exact .inr new
  | case2 location inner l r looser =>
      simp only [locations, List.mem_cons, List.mem_append]
      rintro k (same | below | new)
      · exact .inl (.inl same)
      · exact .inl below
      · exact .inr new
  | case3 left other =>
      simp only [locations, List.mem_cons, List.mem_append]
      rintro k (rfl | below | new)
      · exact .inl left.location_mem_locations
      · exact .inl below
      · exact .inr new

theorem locations_join (first : Expr) (others : List (Token × Expr)) :
    ∀ l ∈ (first.join others).locations,
      l ∈ first.locations ∨ ∃ other ∈ others, l ∈ other.2.locations := by
  induction others generalizing first with
  | nil => exact fun l mem => .inl mem
  | cons other others ih =>
      intro l mem
      rw [join_cons] at mem
      rcases ih _ l mem with below | ⟨later, among, below⟩
      · rcases locations_attach first other.1 other.2 l below with below | below
        · exact .inl below
        · exact .inr ⟨other, List.mem_cons_self, below⟩
      · exact .inr ⟨later, List.mem_cons_of_mem _ among, below⟩

end Expr

/-! ## Locations come from tokens -/

namespace Grammar

/-- Every one of the locations is that of a token among `all`. -/
def Placed (locate : Position → Location) (all : List Token) (locations : List Location) : Prop :=
  ∀ l ∈ locations, ∃ t ∈ all, l = locate t.start

variable {locate : Position → Location} {all : List Token}

namespace Placed

variable {t : Token} {ts : List Token} {locations more : List Location}

theorem nil : Placed locate all [] := by
  simp [Placed]

theorem append (first : Placed locate all locations) (later : Placed locate all more) :
    Placed locate all (locations ++ more) :=
  List.forall_mem_append.mpr ⟨first, later⟩

/-- The first token of what is left is one of all. -/
theorem cons (within : t :: ts <:+ all) (later : Placed locate all locations) :
    Placed locate all (locate t.start :: locations) :=
  List.forall_mem_cons.mpr ⟨⟨t, within.subset List.mem_cons_self, rfl⟩, later⟩

end Placed

theorem IsParameters.placed {ts rest : List Token} {params : List Identifier}
    (h : IsParameters locate ts params rest) (within : ts <:+ all) :
    Placed locate all (params.map (·.location)) := by
  induction h with
  | close => exact .nil
  | item _ comma _ ih => exact .cons within (ih (comma.suffix.trans (suffix_tail within)))

mutual

theorem IsExpr.placed {ts rest : List Token} {e : Expr} (h : IsExpr locate ts e rest)
    (within : ts <:+ all) : Placed locate all e.locations := by
  match h with
  | .join first behind _ =>
      have operands := behind.placed (first.suffix.trans within)
      intro l mem
      rcases Expr.locations_join _ _ l mem with below | ⟨other, among, below⟩
      · exact first.placed within l below
      · exact operands other among l below
termination_by structural h

theorem IsOthers.placed {ts rest : List Token} {others : List (Token × Expr)}
    (h : IsOthers locate ts others rest) (within : ts <:+ all) :
    ∀ other ∈ others, Placed locate all other.2.locations := by
  match h with
  | .nil => simp
  | .cons _ operand behind =>
      have within := suffix_tail within
      exact List.forall_mem_cons.mpr
        ⟨operand.placed within, behind.placed (operand.suffix.trans within)⟩
termination_by structural h

theorem IsPrefixed.placed {ts rest : List Token} {e : Expr} (h : IsPrefixed locate ts e rest)
    (within : ts <:+ all) : Placed locate all e.locations := by
  match h with
  | .unary _ inner => exact .cons within (inner.placed (suffix_tail within))
  | .operand base behind => exact behind.placed (base.suffix.trans within) (base.placed within)
termination_by structural h

theorem IsSuffixed.placed {base e : Expr} {ts rest : List Token}
    (h : IsSuffixed locate base ts e rest) (within : ts <:+ all)
    (placed : Placed locate all base.locations) : Placed locate all e.locations := by
  match h with
  | .nil => exact placed
  | .select _ _ later =>
      have name := suffix_tail within
      exact later.placed (suffix_tail name) (.cons within (placed.append (.cons name .nil)))
  | .index _ key _ later =>
      have inside := suffix_tail within
      have behind := suffix_tail (key.suffix.trans inside)
      exact later.placed behind (.cons within (placed.append (key.placed inside)))
  | .call _ args later =>
      have inside := suffix_tail within
      exact later.placed (args.suffix.trans inside)
        (.cons within (placed.append (args.placed inside)))
termination_by structural h

theorem IsOperand.placed {ts rest : List Token} {e : Expr} (h : IsOperand locate ts e rest)
    (within : ts <:+ all) : Placed locate all e.locations := by
  match h with
  | .ident _ => exact .cons within .nil
  | .number _ _ => exact .cons within .nil
  | .text _ => exact .cons within .nil
  | .paren _ inner _ => exact .cons within (inner.placed (suffix_tail within))
  | .array _ elements => exact .cons within (elements.placed (suffix_tail within))
  | .func _ _ params body =>
      have inside := suffix_tail (suffix_tail within)
      exact .cons within
        ((params.placed inside).append (body.placed (params.suffix.trans inside)))
termination_by structural h

theorem IsArguments.placed {ts rest : List Token} {args : List Expr}
    (h : IsArguments locate ts args rest) (within : ts <:+ all) :
    Placed locate all (Expr.listLocations args) := by
  match h with
  | .close _ => exact .nil
  | .item first comma later =>
      have behind := comma.suffix.trans (first.suffix.trans within)
      exact (first.placed within).append (later.placed behind)
termination_by structural h

theorem IsElements.placed {ts rest : List Token} {elements : List Element}
    (h : IsElements locate ts elements rest) (within : ts <:+ all) :
    Placed locate all (Element.listLocations elements) := by
  match h with
  | .close _ => exact .nil
  | .item first comma later =>
      have behind := comma.suffix.trans (first.suffix.trans within)
      exact (first.placed within).append (later.placed behind)
termination_by structural h

theorem IsElement.placed {ts rest : List Token} {element : Element}
    (h : IsElement locate ts element rest) (within : ts <:+ all) :
    Placed locate all element.locations := by
  match h with
  | .plain value => exact value.placed within
  | .keyed key _ value =>
      have behind := suffix_tail (key.suffix.trans within)
      exact .cons within ((key.placed within).append (value.placed behind))
termination_by structural h

theorem IsBlock.placed {ts rest : List Token} {body : Block} (h : IsBlock locate ts body rest)
    (within : ts <:+ all) : Placed locate all body.locations := by
  match h with
  | .braces _ inside _ => exact .cons within (inside.placed (suffix_tail within))
termination_by structural h

theorem IsStmts.placed {ts rest : List Token} {items : List Stmt}
    (h : IsStmts locate ts items rest) (within : ts <:+ all) :
    Placed locate all (Stmt.listLocations items) := by
  match h with
  | .nil => exact .nil
  | .cons first later =>
      exact (first.placed within).append (later.placed (first.suffix.trans within))
termination_by structural h

theorem IsStmt.placed {ts rest : List Token} {item : Stmt} (h : IsStmt locate ts item rest)
    (within : ts <:+ all) : Placed locate all item.locations := by
  match h with
  | .empty _ => exact .cons within .nil
  | .block body _ => exact body.placed within
  | .cond _ branch =>
      exact branch.placed (suffix_tail within) ⟨_, within.subset List.mem_cons_self, rfl⟩
  | .loop _ test body =>
      have inside := suffix_tail within
      exact .cons within ((test.placed inside).append (body.placed (test.suffix.trans inside)))
  | .ret _ _ => exact .cons within .nil
  | .retValue _ value _ => exact .cons within (value.placed (suffix_tail within))
  | .assign _ target _ value _ =>
      have behind := suffix_tail (target.suffix.trans within)
      exact .cons within ((target.placed within).append (value.placed behind))
  | .expr _ value => exact .cons within (value.placed within)
termination_by structural h

theorem IsBranch.placed {location : Location} {ts rest : List Token} {item : Branch}
    (h : IsBranch locate location ts item rest) (within : ts <:+ all)
    (word : ∃ t ∈ all, location = locate t.start) : Placed locate all item.locations := by
  match h with
  | .single test body _ =>
      have parts := (test.placed within).append
        ((body.placed (test.suffix.trans within)).append .nil)
      exact List.forall_mem_cons.mpr ⟨word, parts⟩
  | .block test body _ other _ =>
      have behind := body.suffix.trans (test.suffix.trans within)
      have parts := (test.placed within).append
        ((body.placed (test.suffix.trans within)).append (other.placed (suffix_tail behind)))
      exact List.forall_mem_cons.mpr ⟨word, parts⟩
  | .branch test body _ _ next =>
      have behind := suffix_tail (body.suffix.trans (test.suffix.trans within))
      have again := next.placed (suffix_tail behind) ⟨_, behind.subset List.mem_cons_self, rfl⟩
      have parts := (test.placed within).append
        ((body.placed (test.suffix.trans within)).append again)
      exact List.forall_mem_cons.mpr ⟨word, parts⟩
termination_by structural h

end

end Grammar

theorem Program.placed_ofTokens {locate : Position → Location} {ts : List Token} {p : Program}
    (accepted : ofTokens locate ts = .ok p) : Grammar.Placed locate ts p.locations := by
  obtain ⟨t, us, derives, -⟩ := derivation_of_ofTokens accepted
  exact derives.placed (List.suffix_refl ts)

/-! ## Quoted lines -/

/-- A location that was made from a token: the token begins on a row, whose number is the line of
the location. What the location quotes depends on the breaks in front. If all of them are counted,
it is the row up to the first break in it, and that is all of the row exactly if only blanks are
behind; otherwise it is a line that ends on an earlier row. -/
structure Source.Cites (source : Source) (l : Location) (t : Token)
    (earlier row later : List Char) : Prop where
  file : l.file = source.file
  line : l.line = t.start.line
  column : l.column = t.start.column
  isRow : IsRow source.text.toList earlier row later
  number : l.line = 1 + earlier.count '\n'
  onRow : (earlier.length : Int) ≤ t.start.offset ∧ t.start.offset ≤ earlier.length + row.length
  quoted : strays earlier = 0 → l.statement = String.ofList (trim (visible row))
  right_iff : strays earlier = 0 →
    (l.statement = String.ofList (trim row) ↔ ∀ c ∈ hidden row, isBlank c = true)
  shifted : strays earlier ≠ 0 → ∃ line, (lines earlier)[earlier.count '\n']? = some line ∧
    l.statement = String.ofList (trim line)

/-- What stands in a text is cited by its location. -/
theorem Source.exists_cites (source : Source) {t : Token}
    (stands : t.fragment.StandsIn source.text.toList) :
    ∃ earlier row later, source.Cites (source.listing.locate t.start) t earlier row later := by
  obtain ⟨before, after, whole, start⟩ := Fragment.standsIn_iff.mp stands
  rw [List.append_assoc] at whole
  obtain ⟨earlier, ahead, rest, later, parts, isRow, count, -⟩ :=
    exists_isRow before (t.fragment.text.toList ++ after)
  rw [← whole] at isRow
  have start : t.start = .behind before := start
  have number : (source.listing.locate t.start).line = 1 + earlier.count '\n' := by
    show t.start.line = _
    rw [start, ← count]
    rfl
  have statement : (source.listing.locate t.start).statement =
      (Listing.ofText source.file source.text).line (1 + earlier.count '\n') := by
    rw [← number]
    rfl
  obtain ⟨plain, shifted⟩ := line_of_row source.file isRow
  rw [← statement] at plain shifted
  refine ⟨earlier, ahead ++ rest, later, rfl, rfl, rfl, isRow, number, ?_, plain, ?_, shifted⟩
  · have offset : t.start.offset = earlier.length + ahead.length := by
      rw [start, parts]
      simp [Position.behind]
    rw [offset, List.length_append]
    constructor <;> omega
  · intro none
    rw [plain none, String.ofList_inj]
    exact trim_visible_iff _

/-- In a text whose breaks are all counted every location quotes the row it is on. -/
theorem Source.Cites.statement {source : Source} {l : Location} {t : Token}
    {earlier row later : List Char} (h : source.Cites l t earlier row later)
    (none : strays source.text.toList = 0) : l.statement = String.ofList (trim row) := by
  obtain ⟨none, whole⟩ := h.isRow.trim_visible none
  rw [h.quoted none, whole]

/-- A source that is read as some program with the given locations. -/
theorem Program.exists_of_locations {source : Source} {locations : List Location}
    (h : (ofSource source).toOption.map Program.locations = some locations) :
    ∃ p, ofSource source = .ok p ∧ p.locations = locations := by
  cases read : ofSource source with
  | error fault =>
      rw [read] at h
      cases h
  | ok p =>
      rw [read] at h
      exact ⟨p, rfl, Option.some.inj h⟩

/-- **Every location of a tree was made from a token and quotes what the listing has under the
number of its row.** -/
theorem Program.cited_rows {source : Source} {p : Program} (accepted : ofSource source = .ok p) :
    ∀ l ∈ p.locations, ∃ tokens t earlier row later,
      Token.ofSource source.text = .ok tokens ∧ t ∈ tokens ∧
        source.Cites l t earlier row later := by
  obtain ⟨tokens, lexed, parsed⟩ := ofSource_eq_ok_iff.mp accepted
  intro l mem
  obtain ⟨t, among, rfl⟩ := placed_ofTokens parsed l mem
  obtain ⟨earlier, row, later, cites⟩ :=
    source.exists_cites (Token.standsIn_of_ofSource lexed t among)
  exact ⟨tokens, t, earlier, row, later, lexed, among, cites⟩

/-- Two rows with a carriage return and blanks at the end of the first one. -/
def carriageReturn : Source :=
  ⟨"return.mini", "a = 1; \r\na;"⟩

theorem Program.cited_rows_carriageReturn :
    ∃ p, ofSource carriageReturn = .ok p ∧ ⟨"return.mini", 2, 1, "a;"⟩ ∈ p.locations ∧
      ∀ l ∈ p.locations, ∃ tokens t earlier row later,
        Token.ofSource carriageReturn.text = .ok tokens ∧ t ∈ tokens ∧
          carriageReturn.Cites l t earlier row later := by
  have read : (ofSource carriageReturn).toOption.map locations =
      some [⟨"return.mini", 1, 1, "a = 1;"⟩, ⟨"return.mini", 1, 1, "a = 1;"⟩,
        ⟨"return.mini", 1, 5, "a = 1;"⟩, ⟨"return.mini", 2, 1, "a;"⟩, ⟨"return.mini", 2, 1, "a;"⟩,
        ⟨"return.mini", 2, 2, "a;"⟩] := by
    decide +kernel
  obtain ⟨p, accepted, same⟩ := exists_of_locations read
  exact ⟨p, accepted, by simp [same], cited_rows accepted⟩

/-- Two rows with a form feed in a string on the first one. -/
def formFeed : Source :=
  ⟨"feed.mini", "s = \"a\x0cb\";\nt = 2;"⟩

/-- **A location may quote another row than its own.** What is on the second row quotes what is
left of the first one behind the form feed. -/
theorem Program.misquoted_formFeed :
    ∃ p, ofSource formFeed = .ok p ∧
      ¬∀ l ∈ p.locations, ∀ earlier row later, IsRow formFeed.text.toList earlier row later →
        l.line = 1 + earlier.count '\n' → l.statement = String.ofList (trim row) := by
  let here (column : Int) : Location := ⟨"feed.mini", 1, column, "s = \"a"⟩
  let there (column : Int) : Location := ⟨"feed.mini", 2, column, "b\";"⟩
  have read : (ofSource formFeed).toOption.map locations =
      some [here 1, here 1, here 5, there 1, there 1, there 5] := by
    decide +kernel
  obtain ⟨p, accepted, same⟩ := exists_of_locations read
  refine ⟨p, accepted, fun right => ?_⟩
  have second : IsRow formFeed.text.toList "s = \"a\x0cb\";\n".toList "t = 2;".toList [] :=
    ⟨by decide +kernel, by decide +kernel, by decide +kernel, by simp⟩
  have quoted := right (there 1) (by simp [same]) _ _ _ second (by decide +kernel)
  have other : "b\";" ≠ String.ofList (trim "t = 2;".toList) := by decide +kernel
  exact other quoted

end Mini
