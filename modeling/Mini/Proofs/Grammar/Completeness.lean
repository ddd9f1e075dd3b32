import Mini.Proofs.Grammar.Soundness

/-!
# What is derived is read

Every derivation is read, given enough budget. How much is enough does not matter here:
`Reads` says that there is such a budget, and each rule of the grammar becomes a fact
about it.
-/

namespace Mini.Grammar

variable {α β : Type}

/-- A reading that has a result from some budget on. -/
def Reads (read : Nat → Reading α) (a : α) : Prop :=
  ∃ n, ∀ m, n ≤ m → read m = .ok a

theorem Reads.of_succ {read : Nat → Reading α} {a : α} (n : Nat)
    (h : ∀ m, n ≤ m → read (m + 1) = .ok a) : Reads read a := by
  refine ⟨n + 1, fun m le => ?_⟩
  obtain ⟨k, rfl⟩ : ∃ k, m = k + 1 := ⟨m - 1, by omega⟩
  exact h k (by omega)

/-- Two readings that have results have them from one budget on. -/
theorem Reads.both {read : Nat → Reading α} {read' : Nat → Reading β} {a : α} {b : β}
    (h : Reads read a) (h' : Reads read' b) :
    ∃ n, ∀ m, n ≤ m → read m = .ok a ∧ read' m = .ok b := by
  obtain ⟨n, first⟩ := h
  obtain ⟨n', second⟩ := h'
  exact ⟨max n n', fun m le => ⟨first m (by omega), second m (by omega)⟩⟩

/-! ## Single tokens -/

theorem token_of_kind {kind : TokenKind} {t : Token} (h : t.kind = kind) (expected : Expected)
    (ts : List Token) : token kind expected (t :: ts) = .ok (t, ts) := by
  rw [token, if_pos h]

theorem terminator_of_semicolon {t : Token} (h : t.kind = .semicolon) (ts : List Token) :
    terminator (t :: ts) = .ok ts := by
  rw [terminator]
  simp only [h]

/-- Two tokens of which one begins what the other does not. -/
theorem ne_of_begins {begins : TokenKind → Bool} {kind other : TokenKind}
    (h : begins kind = true) (h' : begins other = false) : kind ≠ other := by
  rintro rfl
  rw [h] at h'
  cases h'

/-- A comma is taken exactly if it is there, for nothing that comes next begins with one. -/
theorem comma_of_optional {ts us : List Token} (h : OptionalComma ts us) {t : Token}
    {rest : List Token} (next : us = t :: rest) (ne : t.kind ≠ .comma) : comma ts = .ok us := by
  cases h with
  | absent =>
      subst next
      rw [comma, if_neg ne]
  | present isComma => rw [comma, if_pos isComma]

variable {locate : Position → Location}

theorem identifier_of_kind {t : Token} (h : t.kind = .ident) (expected : Expected)
    (ts : List Token) :
    identifier locate expected (t :: ts) = .ok (⟨locate t.start, t.text⟩, ts) := by
  unfold identifier
  rw [token_of_kind h]
  rfl

theorem IsParameters.begins {ts rest : List Token} {params : List Identifier}
    (h : IsParameters locate ts params rest) :
    ∃ t us, ts = t :: us ∧ (t.kind = .closeParen ∨ t.kind = .ident) := by
  cases h with
  | close kind => exact ⟨_, _, rfl, Or.inl kind⟩
  | item kind _ _ => exact ⟨_, _, rfl, Or.inr kind⟩

theorem IsParameters.reads {ts rest : List Token} {params : List Identifier}
    (h : IsParameters locate ts params rest) : Reads (parameters locate · ts) (params, rest) := by
  induction h with
  | close kind =>
      apply Reads.of_succ 0
      intro m _
      rw [parameters]
      simp only [kind]
  | @item t ts us rest params kind comma later ih =>
      obtain ⟨n, others⟩ := ih
      apply Reads.of_succ n
      intro m le
      obtain ⟨t', ws, next, closes⟩ := later.begins
      have ne : t'.kind ≠ .comma := by
        rcases closes with closes | closes <;> rw [closes] <;> decide
      rw [parameters]
      simp only [kind]
      rw [identifier_of_kind kind]
      show (Grammar.comma ts >>= _) = _
      rw [comma_of_optional comma next ne]
      have read : parameters locate m us = .ok (params, rest) := others m le
      show (parameters locate m us >>= _) = _
      rw [read]
      rfl

/-! ## Rows of operators -/

theorem beginsSuffix_of_isBinary {kind : TokenKind} (h : kind.isBinary = true) :
    kind.beginsSuffix = false := by
  cases kind <;> first | rfl | cases h

theorem EndsExpr.endsOperand {ts : List Token} (h : EndsExpr ts) : EndsOperand ts := by
  cases ts with
  | nil => exact h
  | cons t ts => exact h.1

theorem EndsExpr.endsLevel {ts : List Token} (h : EndsExpr ts) {level : Nat}
    (positive : 1 ≤ level) : EndsLevel level ts := by
  cases ts with
  | nil => exact h
  | cons t ts =>
      obtain ⟨suffix, binary⟩ := h
      refine ⟨suffix, ?_⟩
      unfold TokenKind.isBinary at binary
      rw [decide_eq_false_iff_not, Classical.not_not] at binary
      omega

/-- A row of operators and operands each of which is read. -/
inductive Row (locate : Position → Location) :
    List Token → List (Token × Expr) → List Token → Prop
  | nil {rest : List Token} : Row locate rest [] rest
  | cons {op : Token} {ts us rest : List Token} {e : Expr} {others : List (Token × Expr)} :
      op.kind.isBinary = true → (∀ precedence, e.Fits precedence) →
      Reads (unary locate · ts) (e, us) → Row locate us others rest →
      Row locate (op :: ts) ((op, e) :: others) rest

theorem Row.endsOperand {ts rest : List Token} {others : List (Token × Expr)}
    (h : Row locate ts others rest) (ends : EndsExpr rest) : EndsOperand ts := by
  cases h with
  | nil => exact ends.endsOperand
  | cons isBinary _ _ _ => exact beginsSuffix_of_isBinary isBinary

theorem reads_operators_stop {level : Nat} {ts : List Token} (ends : EndsLevel level ts)
    (left : Expr) : Reads (operators locate · level left ts) (left, ts) := by
  cases ts with
  | nil => exact ends.elim
  | cons t ts =>
      apply Reads.of_succ 0
      intro m _
      rw [operators]
      exact if_pos ends.2

theorem reads_binary {level : Nat} {ts us rest : List Token} {left e : Expr}
    (first : Reads (unary locate · ts) (left, us))
    (later : Reads (operators locate · level left us) (e, rest)) :
    Reads (binary locate · level ts) (e, rest) := by
  obtain ⟨n, both⟩ := first.both later
  apply Reads.of_succ n
  intro m le
  obtain ⟨read, read'⟩ := both m le
  rw [binary, read]
  exact read'

theorem reads_operators_take {level : Nat} {op : Token} {ts us rest : List Token}
    {left right e : Expr} (tight : level ≤ op.kind.precedence)
    (first : Reads (binary locate · (op.kind.precedence + 1) ts) (right, us))
    (later : Reads (operators locate · level (.binary left.location op left right) us) (e, rest)) :
    Reads (operators locate · level left (op :: ts)) (e, rest) := by
  obtain ⟨n, both⟩ := first.both later
  apply Reads.of_succ n
  intro m le
  obtain ⟨read, read'⟩ := both m le
  rw [operators]
  dsimp only
  rw [if_neg (Nat.not_lt_of_le tight), read]
  exact read'

/-- At some level the operators of a row are taken up to the first that binds too
loosely. -/
theorem reads_operators {others : List (Token × Expr)} : ∀ {level : Nat} {left : Expr}
    {ts rest : List Token}, 1 ≤ level → Row locate ts others rest → EndsExpr rest →
    FitsBefore left ts →
    ∃ taken more us, others = taken ++ more ∧
      (∀ other ∈ taken, level ≤ other.1.kind.precedence) ∧
      EndsLevel level us ∧ Row locate us more rest ∧
      Reads (operators locate · level left ts) (left.join taken, us) := by
  induction len : others.length using Nat.strongRecOn generalizing others with
  | ind n ih =>
    intro level left ts rest positive row ends fits
    have none : ∀ other ∈ ([] : List (Token × Expr)), level ≤ other.1.kind.precedence := by
      intro other mem
      cases mem
    cases row with
    | nil =>
        have stops := ends.endsLevel positive
        exact ⟨[], [], ts, rfl, none, stops, .nil, reads_operators_stop stops left⟩
    | @cons op ts us _ e others isBinary whole operand row =>
        by_cases loose : op.kind.precedence < level
        · have stops : EndsLevel level (op :: ts) := ⟨beginsSuffix_of_isBinary isBinary, loose⟩
          exact ⟨[], _, _, rfl, none, stops, .cons isBinary whole operand row,
            reads_operators_stop stops left⟩
        · have tight := Nat.le_of_not_lt loose
          have shorter : others.length < n := by rw [← len]; exact Nat.lt_succ_self _
          obtain ⟨inner, more, vs, rfl, tighter, stops, row, read⟩ :=
            ih _ shorter rfl (Nat.le_add_left 1 op.kind.precedence) row ends
              (fitsBefore_of_fits whole us)
          -- what is left over is shorter too, and its first operator binds no more tightly
          have fewer : more.length < n := by
            rw [List.length_append] at shorter
            omega
          obtain ⟨outer, more', ws, rfl, tight', stops', row', read'⟩ :=
            ih _ fewer rfl positive row ends
              (stops.fitsBefore left.location left (e.join inner))
          refine ⟨(op, e) :: inner ++ outer, more', ws, ?_, ?_, stops', row', ?_⟩
          · rw [List.cons_append, List.cons_append, List.append_assoc]
          · intro other mem
            rcases List.mem_append.mp mem with mem | mem
            · rcases List.mem_cons.mp mem with rfl | mem
              · exact tight
              · have := tighter other mem
                omega
            · exact tight' other mem
          · rw [join_right fits tighter]
            exact reads_operators_take tight (reads_binary operand read) read'

/-- An expression is read with all its operators. -/
theorem reads_expr {ts us rest : List Token} {first : Expr} {others : List (Token × Expr)}
    (fits : ∀ precedence, first.Fits precedence) (operand : Reads (unary locate · ts) (first, us))
    (row : Row locate us others rest) (ends : EndsExpr rest) :
    Reads (binary locate · 1 ts) (first.join others, rest) := by
  obtain ⟨taken, more, vs, rfl, -, stops, row, read⟩ :=
    reads_operators (Nat.le_refl 1) row ends (fitsBefore_of_fits fits us)
  have read := reads_binary operand read
  -- an operator that is left over would bind more loosely than any operator does
  cases row with
  | nil =>
      rw [List.append_nil]
      exact read
  | cons isBinary _ _ _ =>
      have loose := stops.endsExpr.2
      rw [isBinary] at loose
      cases loose

/-! ## Operands -/

theorem reads_unary_operator {op : Token} {ts rest : List Token} {inner : Expr}
    (isUnary : op.kind.isUnary = true) (h : Reads (unary locate · ts) (inner, rest)) :
    Reads (unary locate · (op :: ts)) (.unary (locate op.start) op inner, rest) := by
  obtain ⟨n, read⟩ := h
  apply Reads.of_succ n
  intro m le
  have inside : unary locate m ts = .ok (inner, rest) := read m le
  rw [unary, if_pos isUnary, inside]
  rfl

theorem reads_unary_operand {op : Token} {ts us rest : List Token} {base e : Expr}
    (notUnary : op.kind.isUnary = false) (first : Reads (operand locate · (op :: ts)) (base, us))
    (later : Reads (suffixes locate · base us) (e, rest)) :
    Reads (unary locate · (op :: ts)) (e, rest) := by
  obtain ⟨n, both⟩ := first.both later
  apply Reads.of_succ n
  intro m le
  obtain ⟨read, read'⟩ := both m le
  have plain : ¬op.kind.isUnary = true := by rw [notUnary]; decide
  rw [unary, if_neg plain, read]
  exact read'

theorem reads_suffixes_stop {ts : List Token} (ends : EndsOperand ts) (base : Expr) :
    Reads (suffixes locate · base ts) (base, ts) := by
  cases ts with
  | nil => exact ends.elim
  | cons t ts =>
      have stops : t.kind.beginsSuffix = false := ends
      apply Reads.of_succ 0
      intro m _
      rw [suffixes]
      split
      · rename_i kind
        rw [kind] at stops
        cases stops
      · rename_i kind
        rw [kind] at stops
        cases stops
      · rename_i kind
        rw [kind] at stops
        cases stops
      · rfl

theorem reads_suffixes_select {base e : Expr} {t name : Token} {ts rest : List Token}
    (kind : t.kind = .period) (isName : name.kind = .ident)
    (later : Reads (suffixes locate ·
      (.select (locate t.start) base ⟨locate name.start, name.text⟩) ts) (e, rest)) :
    Reads (suffixes locate · base (t :: name :: ts)) (e, rest) := by
  obtain ⟨n, read⟩ := later
  apply Reads.of_succ n
  intro m le
  rw [suffixes]
  simp only [kind]
  rw [identifier_of_kind isName]
  exact read m le

theorem reads_suffixes_index {base key e : Expr} {t close : Token} {ts us rest : List Token}
    (kind : t.kind = .openBracket) (isClose : close.kind = .closeBracket)
    (inside : Reads (binary locate · 1 ts) (key, close :: us))
    (later : Reads (suffixes locate · (.index (locate t.start) base key) us) (e, rest)) :
    Reads (suffixes locate · base (t :: ts)) (e, rest) := by
  obtain ⟨n, both⟩ := inside.both later
  apply Reads.of_succ n
  intro m le
  obtain ⟨read, read'⟩ := both m le
  rw [suffixes]
  simp only [kind]
  rw [read]
  show (token .closeBracket .indexEnd (close :: us) >>= _) = _
  rw [token_of_kind isClose]
  exact read'

theorem reads_suffixes_call {base e : Expr} {args : List Expr} {t : Token}
    {ts us rest : List Token} (kind : t.kind = .openParen)
    (inside : Reads (arguments locate · ts) (args, us))
    (later : Reads (suffixes locate · (.call (locate t.start) base args) us) (e, rest)) :
    Reads (suffixes locate · base (t :: ts)) (e, rest) := by
  obtain ⟨n, both⟩ := inside.both later
  apply Reads.of_succ n
  intro m le
  obtain ⟨read, read'⟩ := both m le
  rw [suffixes]
  simp only [kind]
  rw [read]
  exact read'

theorem reads_operand_ident {t : Token} (kind : t.kind = .ident) (rest : List Token) :
    Reads (operand locate · (t :: rest)) (.ident ⟨locate t.start, t.text⟩, rest) := by
  apply Reads.of_succ 0
  intro m _
  rw [operand]
  simp only [kind]

theorem reads_operand_number {t : Token} {value : Int} (kind : t.kind = .number)
    (readable : Text.readInteger t.text = .ok value) (rest : List Token) :
    Reads (operand locate · (t :: rest)) (.number (locate t.start) value, rest) := by
  apply Reads.of_succ 0
  intro m _
  rw [operand]
  simp only [kind]
  rw [readable]

theorem reads_operand_text {t : Token} (kind : t.kind = .string) (rest : List Token) :
    Reads (operand locate · (t :: rest))
      (.text (locate t.start) (StringLiteral.decode t.text), rest) := by
  apply Reads.of_succ 0
  intro m _
  rw [operand]
  simp only [kind]

theorem reads_operand_paren {t close : Token} {ts rest : List Token} {inner : Expr}
    (kind : t.kind = .openParen) (isClose : close.kind = .closeParen)
    (inside : Reads (binary locate · 1 ts) (inner, close :: rest)) :
    Reads (operand locate · (t :: ts)) (.paren (locate t.start) inner, rest) := by
  obtain ⟨n, inside⟩ := inside
  apply Reads.of_succ n
  intro m le
  have read : binary locate m 1 ts = .ok (inner, close :: rest) := inside m le
  rw [operand]
  simp only [kind]
  rw [read]
  show (token .closeParen (.closing t) (close :: rest) >>= _) = _
  rw [token_of_kind isClose]
  rfl

theorem reads_operand_array {t : Token} {ts rest : List Token} {items : List Element}
    (kind : t.kind = .openBracket) (inside : Reads (elements locate · ts) (items, rest)) :
    Reads (operand locate · (t :: ts)) (.array (locate t.start) items, rest) := by
  obtain ⟨n, inside⟩ := inside
  apply Reads.of_succ n
  intro m le
  have read : elements locate m ts = .ok (items, rest) := inside m le
  rw [operand]
  simp only [kind]
  rw [read]
  rfl

theorem reads_operand_func {t opening : Token} {ts us rest : List Token}
    {params : List Identifier} {body : Block} (kind : t.kind = .funcWord)
    (isOpening : opening.kind = .openParen)
    (inside : Reads (parameters locate · ts) (params, us))
    (later : Reads (block locate · .functionBody us) (body, rest)) :
    Reads (operand locate · (t :: opening :: ts)) (.func (locate t.start) params body, rest) := by
  obtain ⟨n, both⟩ := inside.both later
  apply Reads.of_succ n
  intro m le
  obtain ⟨read, read'⟩ := both m le
  rw [operand]
  simp only [kind]
  rw [token_of_kind isOpening]
  show (parameters locate m ts >>= _) = _
  rw [read]
  show (block locate m .functionBody us >>= _) = _
  rw [read']
  rfl

/-! ## Lists of arguments and elements -/

theorem reads_arguments_close {t : Token} (kind : t.kind = .closeParen) (rest : List Token) :
    Reads (arguments locate · (t :: rest)) ([], rest) := by
  apply Reads.of_succ 0
  intro m _
  rw [arguments]
  simp only [kind]

theorem reads_arguments_item {t : Token} {ts us vs rest : List Token} {arg : Expr}
    {args : List Expr} (begins : t.kind.beginsExpr = true)
    (first : Reads (binary locate · 1 (t :: ts)) (arg, us)) (between : comma us = .ok vs)
    (later : Reads (arguments locate · vs) (args, rest)) :
    Reads (arguments locate · (t :: ts)) (arg :: args, rest) := by
  obtain ⟨n, both⟩ := first.both later
  apply Reads.of_succ n
  intro m le
  obtain ⟨read, read'⟩ := both m le
  rw [arguments]
  split
  · rename_i kind
    exact absurd kind (ne_of_begins begins rfl)
  · rename_i kind
    exact absurd kind (ne_of_begins begins rfl)
  · rw [read]
    show (comma us >>= _) = _
    rw [between]
    show (arguments locate m vs >>= _) = _
    rw [read']
    rfl

theorem reads_elements_close {t : Token} (kind : t.kind = .closeBracket) (rest : List Token) :
    Reads (elements locate · (t :: rest)) ([], rest) := by
  apply Reads.of_succ 0
  intro m _
  rw [elements]
  simp only [kind]

theorem reads_elements_item {t : Token} {ts us vs rest : List Token} {item : Element}
    {items : List Element} (begins : t.kind.beginsExpr = true)
    (first : Reads (element locate · (locate t.start) (t :: ts)) (item, us))
    (between : comma us = .ok vs) (later : Reads (elements locate · vs) (items, rest)) :
    Reads (elements locate · (t :: ts)) (item :: items, rest) := by
  obtain ⟨n, both⟩ := first.both later
  apply Reads.of_succ n
  intro m le
  obtain ⟨read, read'⟩ := both m le
  rw [elements]
  split
  · rename_i kind
    exact absurd kind (ne_of_begins begins rfl)
  · rename_i kind
    exact absurd kind (ne_of_begins begins rfl)
  · rw [read]
    show (comma us >>= _) = _
    rw [between]
    show (elements locate m vs >>= _) = _
    rw [read']
    rfl

theorem reads_element_plain {location : Location} {ts us : List Token} {next : Token}
    {value : Expr} (h : Reads (binary locate · 1 ts) (value, next :: us))
    (ne : next.kind ≠ .colon) :
    Reads (element locate · location ts) (.plain value, next :: us) := by
  obtain ⟨n, h⟩ := h
  apply Reads.of_succ n
  intro m le
  have read : binary locate m 1 ts = .ok (value, next :: us) := h m le
  rw [element, read]
  exact if_neg ne

theorem reads_element_keyed {location : Location} {ts us rest : List Token} {colon : Token}
    {key value : Expr} (first : Reads (binary locate · 1 ts) (key, colon :: us))
    (isColon : colon.kind = .colon) (later : Reads (binary locate · 1 us) (value, rest)) :
    Reads (element locate · location ts) (.keyed location key value, rest) := by
  obtain ⟨n, both⟩ := first.both later
  apply Reads.of_succ n
  intro m le
  obtain ⟨read, read'⟩ := both m le
  rw [element, read]
  show (if colon.kind = .colon then _ else _) = _
  rw [if_pos isColon, read']
  rfl

/-! ## Statements -/

theorem reads_block {expected : Expected} {t : Token} {ts rest : List Token}
    {body : List Stmt} (kind : t.kind = .openBrace)
    (inside : Reads (statements locate · true ts) (body, rest)) :
    Reads (block locate · expected (t :: ts)) (.mk (locate t.start) body, rest) := by
  obtain ⟨n, inside⟩ := inside
  apply Reads.of_succ n
  intro m le
  have read : statements locate m true ts = .ok (body, rest) := inside m le
  rw [block, token_of_kind kind]
  show (statements locate m true ts >>= _) = _
  rw [read]
  rfl

theorem reads_statements_close {t : Token} (kind : t.kind = .closeBrace) (rest : List Token) :
    Reads (statements locate · true (t :: rest)) ([], rest) := by
  apply Reads.of_succ 0
  intro m _
  have notEnd : t.kind ≠ .endOfText := by rw [kind]; decide
  rw [statements, if_neg notEnd, if_pos ⟨kind, rfl⟩]

theorem reads_statements_end {t : Token} (kind : t.kind = .endOfText) (rest : List Token) :
    Reads (statements locate · false (t :: rest)) ([], t :: rest) := by
  apply Reads.of_succ 0
  intro m _
  rw [statements, if_pos kind]
  rfl

theorem reads_statements_item {inBlock : Bool} {t : Token} {ts us rest : List Token} {first : Stmt}
    {others : List Stmt} (begins : t.kind.beginsStmt = true)
    (read : Reads (statement locate · (t :: ts)) (first, us))
    (later : Reads (statements locate · inBlock us) (others, rest)) :
    Reads (statements locate · inBlock (t :: ts)) (first :: others, rest) := by
  obtain ⟨n, both⟩ := read.both later
  apply Reads.of_succ n
  intro m le
  obtain ⟨read, read'⟩ := both m le
  have notEnd : t.kind ≠ .endOfText := ne_of_begins begins rfl
  have notClose : t.kind ≠ .closeBrace := ne_of_begins begins rfl
  rw [statements, if_neg notEnd, if_neg fun closes => notClose closes.1, read]
  show (statements locate m inBlock us >>= _) = _
  rw [read']
  rfl

theorem reads_statement_empty {t : Token} (kind : t.kind = .semicolon) (rest : List Token) :
    Reads (statement locate · (t :: rest)) (.empty (locate t.start), rest) := by
  apply Reads.of_succ 0
  intro m _
  rw [statement]
  simp only [kind]

theorem reads_statement_block {t close : Token} {ts rest : List Token} {body : Block}
    (kind : t.kind = .openBrace) (isClose : close.kind = .semicolon)
    (h : Reads (block locate · .statement (t :: ts)) (body, close :: rest)) :
    Reads (statement locate · (t :: ts)) (.block body, rest) := by
  obtain ⟨n, h⟩ := h
  apply Reads.of_succ n
  intro m le
  have read : block locate m .statement (t :: ts) = .ok (body, close :: rest) := h m le
  rw [statement]
  simp only [kind]
  rw [read]
  show (terminator (close :: rest) >>= _) = _
  rw [terminator_of_semicolon isClose]
  rfl

theorem reads_statement_cond {t : Token} {ts rest : List Token} {next : Branch}
    (kind : t.kind = .ifWord) (h : Reads (branch locate · (locate t.start) ts) (next, rest)) :
    Reads (statement locate · (t :: ts)) (.cond next, rest) := by
  obtain ⟨n, h⟩ := h
  apply Reads.of_succ n
  intro m le
  have read : branch locate m (locate t.start) ts = .ok (next, rest) := h m le
  rw [statement]
  simp only [kind]
  rw [read]
  rfl

theorem reads_statement_loop {t : Token} {ts us rest : List Token} {test : Expr} {body : Block}
    (kind : t.kind = .whileWord) (first : Reads (binary locate · 1 ts) (test, us))
    (later : Reads (block locate · .whileBody us) (body, rest)) :
    Reads (statement locate · (t :: ts)) (.loop (locate t.start) test body, rest) := by
  obtain ⟨n, both⟩ := first.both later
  apply Reads.of_succ n
  intro m le
  obtain ⟨read, read'⟩ := both m le
  rw [statement]
  simp only [kind]
  rw [read]
  show (block locate m .whileBody us >>= _) = _
  rw [read']
  rfl

theorem reads_statement_ret {t close : Token} {ts rest : List Token} {value : Option Expr}
    (kind : t.kind = .returnWord) (isClose : close.kind = .semicolon)
    (h : Reads (returned locate · ts) (value, close :: rest)) :
    Reads (statement locate · (t :: ts)) (.ret (locate t.start) value, rest) := by
  obtain ⟨n, h⟩ := h
  apply Reads.of_succ n
  intro m le
  have read : returned locate m ts = .ok (value, close :: rest) := h m le
  rw [statement]
  simp only [kind]
  rw [read]
  show (terminator (close :: rest) >>= _) = _
  rw [terminator_of_semicolon isClose]
  rfl

theorem reads_returned_none {close : Token} (isClose : close.kind = .semicolon)
    (rest : List Token) : Reads (returned locate · (close :: rest)) (none, close :: rest) := by
  apply Reads.of_succ 0
  intro m _
  rw [returned]
  simp only [isClose]

theorem reads_returned_some {t : Token} {ts rest : List Token} {value : Expr}
    (begins : t.kind.beginsExpr = true) (h : Reads (binary locate · 1 (t :: ts)) (value, rest)) :
    Reads (returned locate · (t :: ts)) (some value, rest) := by
  obtain ⟨n, h⟩ := h
  apply Reads.of_succ n
  intro m le
  have read : binary locate m 1 (t :: ts) = .ok (value, rest) := h m le
  rw [returned]
  split
  · rename_i kind
    exact absurd kind (ne_of_begins begins rfl)
  · rename_i kind
    exact absurd kind (ne_of_begins begins rfl)
  · rw [read]
    rfl

/-- The reading of a statement that begins with an expression. -/
theorem reads_statement_sentence {t : Token} {ts rest : List Token} {result : Stmt}
    (begins : t.kind.beginsTarget = true) (h : Reads (sentence locate · t ts) (result, rest)) :
    Reads (statement locate · (t :: ts)) (result, rest) := by
  obtain ⟨n, read⟩ := h
  apply Reads.of_succ n
  intro m le
  have inside : sentence locate m t ts = .ok (result, rest) := read m le
  rw [statement]
  split <;> first
    | exact inside
    | rename_i kind; rw [kind] at begins; cases begins
    | skip
  rename_i ident bracket paren
  unfold TokenKind.beginsTarget at begins
  split at begins
  · exact absurd (by assumption) ident
  · exact absurd (by assumption) bracket
  · exact absurd (by assumption) paren
  · cases begins

theorem reads_sentence_assign {t eq close : Token} {ts us rest : List Token} {target value : Expr}
    (first : Reads (binary locate · 1 (t :: ts)) (target, eq :: us)) (isAssign : eq.kind = .assign)
    (later : Reads (binary locate · 1 us) (value, close :: rest))
    (isClose : close.kind = .semicolon) :
    Reads (sentence locate · t ts) (.assign (locate t.start) target value, rest) := by
  obtain ⟨n, both⟩ := first.both later
  refine ⟨n, fun m le => ?_⟩
  obtain ⟨read, read'⟩ := both m le
  show sentence locate m t ts = _
  unfold sentence
  rw [read]
  show (if eq.kind = .assign then _ else _) = _
  rw [if_pos isAssign, read']
  show (terminator (close :: rest) >>= _) = _
  rw [terminator_of_semicolon isClose]
  rfl

theorem reads_sentence_expr {t next : Token} {ts rest : List Token} {value : Expr}
    (h : Reads (binary locate · 1 (t :: ts)) (value, next :: rest)) (ne : next.kind ≠ .assign) :
    Reads (sentence locate · t ts) (.expr (locate t.start) value, next :: rest) := by
  obtain ⟨n, h⟩ := h
  refine ⟨n, fun m le => ?_⟩
  have read : binary locate m 1 (t :: ts) = .ok (value, next :: rest) := h m le
  show sentence locate m t ts = _
  unfold sentence
  rw [read]
  exact if_neg ne

theorem reads_branch_single {location : Location} {ts us rest : List Token} {test : Expr}
    {body : Block} {close : Token} (first : Reads (binary locate · 1 ts) (test, us))
    (later : Reads (block locate · .ifBody us) (body, close :: rest))
    (isClose : close.kind = .semicolon) :
    Reads (branch locate · location ts) (.mk location test body .nothing, rest) := by
  obtain ⟨n, both⟩ := first.both later
  apply Reads.of_succ n
  intro m le
  obtain ⟨read, read'⟩ := both m le
  have notElse : close.kind ≠ .elseWord := by rw [isClose]; decide
  rw [branch, read]
  show (block locate m .ifBody us >>= _) = _
  rw [read']
  show (if close.kind = .elseWord then _ else _) = _
  rw [if_neg notElse, terminator_of_semicolon isClose]
  rfl

theorem reads_branch_otherwise {location : Location} {ts us vs rest : List Token} {test : Expr}
    {body : Block} {word : Token} {other : Otherwise}
    (first : Reads (binary locate · 1 ts) (test, us))
    (second : Reads (block locate · .ifBody us) (body, word :: vs))
    (isElse : word.kind = .elseWord) (later : Reads (otherwise locate · vs) (other, rest)) :
    Reads (branch locate · location ts) (.mk location test body other, rest) := by
  obtain ⟨n, both⟩ := first.both second
  obtain ⟨n', last⟩ := later
  apply Reads.of_succ (max n n')
  intro m le
  obtain ⟨read, read'⟩ := both m (by omega)
  have read'' : otherwise locate m vs = .ok (other, rest) := last m (by omega)
  rw [branch, read]
  show (block locate m .ifBody us >>= _) = _
  rw [read']
  show (if word.kind = .elseWord then _ else _) = _
  rw [if_pos isElse, read'']
  rfl

theorem reads_otherwise_branch {again : Token} {ts rest : List Token} {next : Branch}
    (isIf : again.kind = .ifWord) (h : Reads (branch locate · (locate again.start) ts) (next, rest)) :
    Reads (otherwise locate · (again :: ts)) (.branch next, rest) := by
  obtain ⟨n, h⟩ := h
  apply Reads.of_succ n
  intro m le
  have read : branch locate m (locate again.start) ts = .ok (next, rest) := h m le
  rw [otherwise, if_pos isIf, read]
  rfl

theorem reads_otherwise_block {t close : Token} {ts rest : List Token} {body : Block}
    (kind : t.kind = .openBrace) (h : Reads (block locate · .elseBody (t :: ts)) (body, close :: rest))
    (isClose : close.kind = .semicolon) :
    Reads (otherwise locate · (t :: ts)) (.block body, rest) := by
  obtain ⟨n, h⟩ := h
  apply Reads.of_succ n
  intro m le
  have read : block locate m .elseBody (t :: ts) = .ok (body, close :: rest) := h m le
  have notIf : t.kind ≠ .ifWord := by rw [kind]; decide
  rw [otherwise, if_neg notIf, read]
  show (terminator (close :: rest) >>= _) = _
  rw [terminator_of_semicolon isClose]
  rfl

/-! ## All derivations -/

/-- What comes behind an item of a list: a closing bracket or the next item, and never a
comma, a colon or an equals sign. -/
def BeginsNext (closes : TokenKind) (ts : List Token) : Prop :=
  ∃ t us, ts = t :: us ∧ (t.kind = closes ∨ t.kind.beginsExpr = true)

theorem IsArguments.begins {ts rest : List Token} {args : List Expr}
    (h : IsArguments locate ts args rest) : BeginsNext .closeParen ts := by
  cases h with
  | close kind => exact ⟨_, _, rfl, Or.inl kind⟩
  | item first _ _ =>
      obtain ⟨t, us, begins, kind⟩ := first.begins
      exact ⟨t, us, begins, Or.inr kind⟩

theorem IsElements.begins {ts rest : List Token} {items : List Element}
    (h : IsElements locate ts items rest) : BeginsNext .closeBracket ts := by
  cases h with
  | close kind => exact ⟨_, _, rfl, Or.inl kind⟩
  | item first _ _ =>
      obtain ⟨t, us, begins, kind⟩ := first.begins
      exact ⟨t, us, begins, Or.inr kind⟩

theorem BeginsNext.comma {closes : TokenKind} {ts us : List Token} (h : BeginsNext closes us)
    (other : closes ≠ .comma) (between : OptionalComma ts us) : Grammar.comma ts = .ok us := by
  obtain ⟨t, rest, next, kind⟩ := h
  refine comma_of_optional between next ?_
  rcases kind with kind | begins
  · rw [kind]
    exact other
  · exact ne_of_begins begins rfl

/-- Behind a value without a key there is no colon. -/
theorem BeginsNext.notColon {ts us : List Token} (h : BeginsNext .closeBracket us)
    (between : OptionalComma ts us) : ∃ t rest, ts = t :: rest ∧ t.kind ≠ .colon := by
  cases between with
  | present isComma => exact ⟨_, _, rfl, by rw [isComma]; decide⟩
  | absent =>
      obtain ⟨t, rest, next, kind | begins⟩ := h
      · exact ⟨t, rest, next, by rw [kind]; decide⟩
      · exact ⟨t, rest, next, ne_of_begins begins rfl⟩

/-- Tokens that may stand behind a statement: they do not make an assignment of it. -/
def EndsStmt : List Token → Prop
  | [] => False
  | t :: _ => t.kind ≠ .assign

/-- Tokens that close a list of statements. -/
def ClosesStmts (inBlock : Bool) : List Token → Prop
  | [] => False
  | t :: _ => t.kind = if inBlock then .closeBrace else .endOfText

theorem IsStmts.endsStmt {inBlock : Bool} {ts rest : List Token} {statements : List Stmt}
    (h : IsStmts locate ts statements rest) (closes : ClosesStmts inBlock rest) : EndsStmt ts := by
  cases h with
  | nil =>
      cases ts with
      | nil => exact closes
      | cons t ts =>
          have kind : t.kind = if inBlock then .closeBrace else .endOfText := closes
          show t.kind ≠ .assign
          rw [kind]
          cases inBlock <;> decide
  | cons first _ =>
      obtain ⟨t, us, rfl, begins⟩ := first.begins
      exact ne_of_begins begins rfl

/-- The tokens behind a list of statements: a closing brace is taken, the end of the text
is not. -/
def behindStmts (inBlock : Bool) (rest : List Token) : List Token :=
  if inBlock then rest.tail else rest

theorem reads_statements_nil {inBlock : Bool} {rest : List Token}
    (closes : ClosesStmts inBlock rest) :
    Reads (statements locate · inBlock rest) ([], behindStmts inBlock rest) := by
  cases rest with
  | nil => exact closes.elim
  | cons t rest =>
      cases inBlock with
      | true => exact reads_statements_close closes rest
      | false => exact reads_statements_end closes rest

mutual

theorem IsExpr.reads {ts rest : List Token} {e : Expr} (h : IsExpr locate ts e rest) :
    Reads (binary locate · 1 ts) (e, rest) := by
  match h with
  | .join first behind ends =>
      have row := behind.row ends
      exact reads_expr first.fits (first.reads (row.endsOperand ends)) row ends
termination_by structural h

theorem IsOthers.row {ts rest : List Token} {others : List (Token × Expr)}
    (h : IsOthers locate ts others rest) (ends : EndsExpr rest) : Row locate ts others rest := by
  match h with
  | .nil => exact .nil
  | .cons isBinary operand behind =>
      have row := behind.row ends
      exact .cons isBinary operand.fits (operand.reads (row.endsOperand ends)) row
termination_by structural h

theorem IsPrefixed.reads {ts rest : List Token} {e : Expr} (h : IsPrefixed locate ts e rest)
    (ends : EndsOperand rest) : Reads (unary locate · ts) (e, rest) := by
  match h with
  | .unary isUnary inner => exact reads_unary_operator isUnary (inner.reads ends)
  | .operand base behind =>
      -- read first: the recursion goes by the derivation as it is, before the tokens are split
      have read := base.reads
      obtain ⟨t, us, rfl, notUnary, -⟩ := base.begins
      exact reads_unary_operand notUnary read (behind.reads ends)
termination_by structural h

theorem IsSuffixed.reads {base e : Expr} {ts rest : List Token}
    (h : IsSuffixed locate base ts e rest) (ends : EndsOperand rest) :
    Reads (suffixes locate · base ts) (e, rest) := by
  match h with
  | .nil => exact reads_suffixes_stop ends base
  | .select kind isName later => exact reads_suffixes_select kind isName (later.reads ends)
  | .index kind key isClose later =>
      exact reads_suffixes_index kind isClose key.reads (later.reads ends)
  | .call kind args later => exact reads_suffixes_call kind args.reads (later.reads ends)
termination_by structural h

theorem IsOperand.reads {ts rest : List Token} {e : Expr} (h : IsOperand locate ts e rest) :
    Reads (operand locate · ts) (e, rest) := by
  match h with
  | .ident kind => exact reads_operand_ident kind rest
  | .number kind readable => exact reads_operand_number kind readable rest
  | .text kind => exact reads_operand_text kind rest
  | .paren kind inner isClose => exact reads_operand_paren kind isClose inner.reads
  | .array kind items => exact reads_operand_array kind items.reads
  | .func kind isOpening params body =>
      exact reads_operand_func kind isOpening params.reads (body.reads .functionBody)
termination_by structural h

theorem IsArguments.reads {ts rest : List Token} {args : List Expr}
    (h : IsArguments locate ts args rest) : Reads (arguments locate · ts) (args, rest) := by
  match h with
  | .close kind => exact reads_arguments_close kind rest
  | .item first between later =>
      have comma := later.begins.comma (by decide) between
      have read := first.reads
      obtain ⟨t, us, rfl, begins⟩ := first.begins
      exact reads_arguments_item begins read comma later.reads
termination_by structural h

theorem IsElements.reads {ts rest : List Token} {items : List Element}
    (h : IsElements locate ts items rest) : Reads (elements locate · ts) (items, rest) := by
  match h with
  | .close kind => exact reads_elements_close kind rest
  | .item first between later =>
      have comma := later.begins.comma (by decide) between
      have read := first.reads (later.begins.notColon between)
      obtain ⟨t, us, rfl, begins⟩ := first.begins
      exact reads_elements_item begins (read t us rfl) comma later.reads
termination_by structural h

theorem IsElement.reads {ts rest : List Token} {item : Element}
    (h : IsElement locate ts item rest)
    (ends : ∃ next us, rest = next :: us ∧ next.kind ≠ .colon) (t : Token) (us : List Token)
    (begins : ts = t :: us) : Reads (element locate · (locate t.start) ts) (item, rest) := by
  match h with
  | .plain value =>
      have read := value.reads
      obtain ⟨next, vs, rfl, notColon⟩ := ends
      exact reads_element_plain read notColon
  | .keyed key isColon value =>
      have first := key.reads
      have second := value.reads
      cases begins
      exact reads_element_keyed first isColon second
termination_by structural h

theorem IsBlock.reads {ts rest : List Token} {body : Block} (h : IsBlock locate ts body rest)
    (expected : Expected) : Reads (block locate · expected ts) (body, rest) := by
  match h with
  | .braces kind inside isClose =>
      have closes : ClosesStmts true (_ :: rest) := isClose
      exact reads_block kind (inside.reads closes)
termination_by structural h

theorem IsStmts.reads {inBlock : Bool} {ts rest : List Token} {items : List Stmt}
    (h : IsStmts locate ts items rest) (closes : ClosesStmts inBlock rest) :
    Reads (statements locate · inBlock ts) (items, behindStmts inBlock rest) := by
  match h with
  | .nil => exact reads_statements_nil closes
  | .cons first later =>
      have read := first.reads (later.endsStmt closes)
      obtain ⟨t, us, rfl, begins⟩ := first.begins
      exact reads_statements_item begins read (later.reads closes)
termination_by structural h

theorem IsStmt.reads {ts rest : List Token} {item : Stmt} (h : IsStmt locate ts item rest)
    (ends : EndsStmt rest) : Reads (statement locate · ts) (item, rest) := by
  match h with
  | .empty kind => exact reads_statement_empty kind rest
  | .block body isClose =>
      have read := body.reads .statement
      obtain ⟨t, us, rfl, kind⟩ := body.begins
      exact reads_statement_block kind isClose read
  | .cond kind next => exact reads_statement_cond kind next.reads
  | .loop kind test body => exact reads_statement_loop kind test.reads (body.reads .whileBody)
  | .ret kind isClose => exact reads_statement_ret kind isClose (reads_returned_none isClose _)
  | .retValue kind value isClose =>
      have read := value.reads
      obtain ⟨t, us, rfl, begins⟩ := value.begins
      exact reads_statement_ret kind isClose (reads_returned_some begins read)
  -- both begin alike, and what comes behind the first expression tells them apart
  | .assign begins target isAssign value isClose =>
      have read := reads_sentence_assign target.reads isAssign value.reads isClose
      exact reads_statement_sentence begins read
  | .expr begins value =>
      have read := value.reads
      cases rest with
      | nil => exact ends.elim
      | cons next rest =>
          exact reads_statement_sentence begins (reads_sentence_expr read ends)
termination_by structural h

theorem IsBranch.reads {location : Location} {ts rest : List Token} {item : Branch}
    (h : IsBranch locate location ts item rest) :
    Reads (branch locate · location ts) (item, rest) := by
  match h with
  | .single test body isClose =>
      exact reads_branch_single test.reads (body.reads .ifBody) isClose
  | .block test body isElse other isClose =>
      have read := body.reads .ifBody
      have last := other.reads .elseBody
      obtain ⟨t, us, rfl, kind⟩ := other.begins
      exact reads_branch_otherwise test.reads read isElse
        (reads_otherwise_block kind last isClose)
  | .branch test body isElse isIf next =>
      have read := reads_otherwise_branch isIf next.reads
      exact reads_branch_otherwise test.reads (body.reads .ifBody) isElse read
termination_by structural h

end

end Mini.Grammar
