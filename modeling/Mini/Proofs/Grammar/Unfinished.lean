import Mini.Proofs.Grammar.Continuation
import Mini.Proofs.Grammar.Lookahead

/-!
# What has been read can be completed

Where the reading of a part of the grammar rejects a token, the tokens that it took before can be
completed: with some more they make such a part. So a reading never takes a token that is
impossible where it stands.

What takes care is a statement that may do without its semicolon in front of a closing
parenthesis or bracket. It is read as if it were whole, and it is the next statement that is then
rejected, at the same token. So such a statement counts as unfinished too, and a semicolon
completes it.
-/

namespace Mini

namespace Grammar

variable {α β : Type}

/-- A token of the given kind, to complete others with. -/
def filler (kind : TokenKind) : Token :=
  ⟨kind, "", Position.start⟩

/-- One token, of the given kind. -/
def OfKind (kind : TokenKind) (ts rest : List Token) : Prop :=
  ∃ t, t.kind = kind ∧ ts = t :: rest

variable (locate : Position → Location)

/-- The parenthesis that is named where it is not closed: behind it, up to the rejected token,
stands a whole expression. -/
def Opened (before us : List Token) : Expected → Prop
  | .closing opening => opening.kind = .openParen ∧ ∃ front inner e found rest,
      before = front ++ opening :: inner ∧ us = found :: rest ∧ found.kind ≠ .closeParen ∧
        IsExpr locate (inner ++ us) e us
  | _ => True

/-- The tokens in front of `us` and some others, in place of those, make a whole. Where an
expression ends before the first token, it still does. -/
def Unfinished (Whole : List Token → List Token → Prop) (expected : Expected)
    (ts us : List Token) : Prop :=
  ∃ before more, ts = before ++ us ∧ Opened locate before us expected ∧
    ∀ follow, EndsExpr follow → Whole (before ++ (more ++ follow)) follow ∧
      (EndsExpr ts → EndsExpr (before ++ (more ++ follow)))

/-- Where a reading rejects a token, the tokens before it are unfinished. -/
def Completable (Whole : List Token → List Token → Prop) (ts : List Token) : Reading α → Prop
  | .error (.unexpected expected found rest) => Unfinished locate Whole expected ts (found :: rest)
  | _ => True

variable {locate}
variable {ts us vs : List Token} {expected : Expected}
  {Part Front Whole : List Token → List Token → Prop}

namespace Unfinished

/-- A part that is finished, and then one that is not. -/
theorem after (front : Carries Front ts us) (h : Unfinished locate Part expected us vs) :
    Unfinished locate (Relation.Comp Front Part) expected ts vs := by
  obtain ⟨before, more, rfl, opened, completes⟩ := h
  obtain ⟨first, rfl, isFront⟩ := front
  refine ⟨first ++ before, more, (List.append_assoc ..).symm, ?_, fun follow ends => ?_⟩
  · cases expected with
    | closing opening =>
        obtain ⟨kind, front, inner, e, found, rest, rfl, isRest⟩ := opened
        exact ⟨kind, first ++ front, inner, e, found, rest, (List.append_assoc ..).symm, isRest⟩
    | _ => trivial
  · obtain ⟨part, still⟩ := completes follow ends
    rw [List.append_assoc]
    exact ⟨⟨_, isFront _ still, part⟩, endsExpr_front still⟩

theorem map (h : Unfinished locate Part expected ts vs)
    (whole : ∀ ts rest, EndsExpr rest → Part ts rest → Whole ts rest) :
    Unfinished locate Whole expected ts vs := by
  obtain ⟨before, more, same, opened, completes⟩ := h
  refine ⟨before, more, same, opened, fun follow ends => ?_⟩
  obtain ⟨part, still⟩ := completes follow ends
  exact ⟨whole _ _ ends part, still⟩

/-- A token that is taken, and then a part that is not finished. -/
theorem take (t : Token) (h : Unfinished locate Part expected us vs) :
    Unfinished locate (Taking t Part) expected (t :: us) vs := by
  have taken : Carries (Taking t Eq) (t :: us) us := (Carries.none (fun _ => rfl) us).take t
  exact (h.after taken).map fun _ _ _ ⟨_, ⟨_, same, same'⟩, part⟩ => ⟨_, same, same' ▸ part⟩

/-- What comes behind an unfinished part once it is finished. -/
theorem close (closers : List Token) (isClose : ∀ follow, EndsExpr (closers ++ follow))
    (h : Unfinished locate Part expected ts vs) :
    Unfinished locate (fun ts rest => Part ts (closers ++ rest)) expected ts vs := by
  obtain ⟨before, more, same, opened, completes⟩ := h
  refine ⟨before, more ++ closers, same, opened, fun follow ends => ?_⟩
  rw [List.append_assoc]
  exact completes (closers ++ follow) (isClose follow)

/-- Nothing of a part is there yet. -/
theorem absent (more : List Token) (ends : ∀ follow, EndsExpr (more ++ follow))
    (opened : Opened locate [] us expected) (whole : ∀ rest, EndsExpr rest → Whole (more ++ rest) rest) :
    Unfinished locate Whole expected us us :=
  ⟨[], more, rfl, opened, fun follow isEnd => ⟨whole follow isEnd, fun _ => ends follow⟩⟩

/-- A whole is finished with nothing. -/
theorem of_carries (h : Carries Whole ts us) (opened : ∀ before, Opened locate before us expected) :
    Unfinished locate Whole expected ts us := by
  obtain ⟨front, rfl, whole⟩ := h
  refine ⟨front, [], rfl, opened front, fun follow ends => ?_⟩
  exact ⟨whole follow fun _ => ends, endsExpr_front fun _ => ends⟩

end Unfinished

namespace Completable

/-- The first token is rejected already. -/
theorem absent {found : Token} {rest : List Token} (more : List Token)
    (ends : ∀ follow, EndsExpr (more ++ follow))
    (opened : Opened locate [] (found :: rest) expected)
    (whole : ∀ follow, EndsExpr follow → Whole (more ++ follow) follow) :
    Completable locate Whole (found :: rest)
      (.error (.unexpected expected found rest) : Reading α) :=
  Unfinished.absent more ends opened whole

theorem lift {r : Reading α} (h : Completable locate Part us r)
    (whole : ∀ expected vs, Unfinished locate Part expected us vs →
      Unfinished locate Whole expected ts vs) : Completable locate Whole ts r := by
  match r with
  | .error (.unexpected expected found rest) => exact whole expected (found :: rest) h
  | .ok _ | .error (.badNumeral _) | .error .outOfTokens | .error .outOfFuel => trivial

theorem bind {r : Reading α} {f : α → Reading β} (first : Completable locate Whole ts r)
    (later : ∀ a, r = .ok a → Completable locate Whole ts (f a)) :
    Completable locate Whole ts (r >>= f) := by
  match r with
  | .ok a => exact later a rfl
  | .error (.unexpected expected found rest) => exact first
  | .error (.badNumeral _) | .error .outOfTokens | .error .outOfFuel => trivial

/-- What is read next depends on the tokens that are left. -/
theorem andThen {r : Reading (α × List Token)} {f : α × List Token → Reading β}
    (first : Completable locate Whole ts r)
    (later : ∀ a us, r = .ok (a, us) → Completable locate Whole ts (f (a, us))) :
    Completable locate Whole ts (r >>= f) :=
  first.bind fun result read => later result.1 result.2 read

theorem after {r : Reading α} (front : Carries Front ts us) (h : Completable locate Part us r) :
    Completable locate (Relation.Comp Front Part) ts r :=
  h.lift fun _ _ unfinished => unfinished.after front

theorem map {r : Reading α} (h : Completable locate Part ts r)
    (whole : ∀ ts rest, EndsExpr rest → Part ts rest → Whole ts rest) :
    Completable locate Whole ts r :=
  h.lift fun _ _ unfinished => unfinished.map whole

theorem take {r : Reading α} (t : Token) (h : Completable locate Part us r) :
    Completable locate (Taking t Part) (t :: us) r :=
  h.lift fun _ _ unfinished => unfinished.take t

theorem close {r : Reading α} (closers : List Token) (isClose : ∀ follow, EndsExpr (closers ++ follow))
    (h : Completable locate Part ts r) :
    Completable locate (fun ts rest => Part ts (closers ++ rest)) ts r :=
  h.lift fun _ _ unfinished => unfinished.close closers isClose

end Completable

/-! ## Single tokens -/

variable (locate) in
theorem completable_token (kind : TokenKind) (expected : Expected) (isEnd : kind.beginsSuffix = false ∧ kind.isBinary = false)
    (opened : ∀ us, Opened locate [] us expected) (us : List Token) :
    Completable locate (OfKind kind) us (token kind expected us) := by
  cases us with
  | nil => trivial
  | cons t us =>
      rw [token]
      split
      · trivial
      · exact .absent [filler kind] (fun _ => isEnd) (opened _) fun rest _ => ⟨_, rfl, rfl⟩

variable (locate) in
theorem completable_terminator (us : List Token) :
    Completable locate (OfKind .semicolon) us (terminator us) := by
  cases us with
  | nil => trivial
  | cons t us =>
      rw [terminator]
      split
      · trivial
      · trivial
      · trivial
      · exact .absent [filler .semicolon] (fun _ => ⟨rfl, rfl⟩) trivial fun rest _ => ⟨_, rfl, rfl⟩

variable (locate) in
/-- A terminator that is left out is unfinished. -/
theorem unfinished_terminator (ended : terminator us = .ok vs) (stuck : Stuck vs) :
    Unfinished locate (OfKind .semicolon) .statement us vs := by
  cases us with
  | nil => cases ended
  | cons t us =>
      have absent : Unfinished locate (OfKind .semicolon) .statement (t :: us) (t :: us) :=
        .absent [filler .semicolon] (fun _ => ⟨rfl, rfl⟩) trivial fun rest _ => ⟨_, rfl, rfl⟩
      rw [terminator] at ended
      split at ended
      · cases ended
        exact absent
      · cases ended
        exact absent
      · rename_i kind
        cases ended
        exact .of_carries (.single t (fun rest => ⟨t, kind, rfl⟩) _) fun _ => trivial
      · cases ended

theorem completable_comma (us : List Token) : Completable locate Whole ts (comma us) := by
  cases us <;> trivial

variable (locate) in
theorem completable_identifier (expected : Expected) (opened : ∀ us, Opened locate [] us expected)
    (us : List Token) :
    Completable locate (OfKind .ident) us (identifier locate expected us) :=
  .bind (completable_token locate .ident expected ⟨rfl, rfl⟩ opened us) fun _ _ => trivial

variable (locate) in
theorem completable_parameters (n : Nat) (ts : List Token) :
    Completable locate (fun ts rest => ∃ params, IsParameters locate ts params rest) ts
      (parameters locate n ts) := by
  induction n generalizing ts with
  | zero => trivial
  | succ n ih =>
      cases ts with
      | nil => trivial
      | cons t ts =>
          rw [parameters]
          split
          · trivial
          · exact .absent [filler .closeParen] (fun _ => ⟨rfl, rfl⟩) trivial fun _ _ => ⟨[], .close rfl⟩
          · refine .andThen ?_ fun param us read => ?_
            · have name := completable_identifier locate .parameter (fun _ => trivial) (t :: ts)
              refine (name.close [filler .closeParen] fun _ => ⟨rfl, rfl⟩).map ?_
              rintro _ rest - ⟨t, kind, rfl⟩
              exact ⟨_, .item kind .absent (.close rfl)⟩
            · obtain ⟨_, same, kind, -⟩ := identifier_ok read
              cases same
              refine .bind (completable_comma ts) fun vs between => .bind ?_ fun _ _ => trivial
              refine (((ih vs).after (comma_ok between).carries).take t).map ?_
              rintro _ rest - ⟨_, rfl, _, between, _, later⟩
              exact ⟨_, .item kind between later⟩

/-! ## All parts of the grammar -/

/-- A row of operands, which is an expression where it ends as one. -/
def IsRow (locate : Position → Location) (ts rest : List Token) : Prop :=
  ∃ first others us, IsPrefixed locate ts first us ∧ IsOthers locate us others rest

/-- The end of a branch behind the word `else`. -/
def IsElse (locate : Position → Location) (ts rest : List Token) : Prop :=
  (∃ other close, IsBlock locate ts other (close :: rest) ∧ close.kind = .semicolon) ∨
    ∃ again us next, ts = again :: us ∧ again.kind = .ifWord ∧
      IsBranch locate (locate again.start) us next rest

/-- With a budget of `n` calls, what has been read of a part where it fails can be completed. A
statement that is not terminated is only as good as one that fails. -/
structure CompletableAt (locate : Position → Location) (n : Nat) : Prop where
  binary : ∀ {level ts}, 1 ≤ level → Completable locate (IsRow locate) ts (binary locate n level ts)
  operators : ∀ left {level ts}, 1 ≤ level →
    Completable locate (fun ts rest => ∃ others, IsOthers locate ts others rest) ts
      (operators locate n level left ts)
  unary : ∀ {ts}, Completable locate (fun ts rest => ∃ e, IsPrefixed locate ts e rest) ts
    (unary locate n ts)
  suffixes : ∀ base {ts},
    Completable locate (fun ts rest => ∃ e, IsSuffixed locate base ts e rest) ts
      (suffixes locate n base ts)
  operand : ∀ {ts}, Completable locate (fun ts rest => ∃ e, IsOperand locate ts e rest) ts
    (operand locate n ts)
  arguments : ∀ {ts}, Completable locate (fun ts rest => ∃ args, IsArguments locate ts args rest) ts
    (arguments locate n ts)
  elements : ∀ {ts}, Completable locate (fun ts rest => ∃ items, IsElements locate ts items rest) ts
    (elements locate n ts)
  element : ∀ t ts, Completable locate (fun ts rest => ∃ item, IsElement locate ts item rest)
    (t :: ts) (element locate n (locate t.start) (t :: ts))
  block : ∀ expected ts, (∀ us, Opened locate [] us expected) →
    Completable locate (fun ts rest => ∃ body, IsBlock locate ts body rest) ts
      (block locate n expected ts)
  statements : ∀ inBlock ts,
    Completable locate (fun ts rest => ∃ items, IsStmts locate ts items rest) ts
      (statements locate n inBlock ts)
  statement : ∀ {ts}, Completable locate (fun ts rest => ∃ item, IsStmt locate ts item rest) ts
    (statement locate n ts)
  returned : ∀ {ts}, Completable locate (fun ts rest => ∃ e, IsExpr locate ts e rest) ts
    (returned locate n ts)
  branch : ∀ location {ts},
    Completable locate (fun ts rest => ∃ item, IsBranch locate location ts item rest) ts
      (branch locate n location ts)
  otherwise : ∀ {ts}, Completable locate (IsElse locate) ts (otherwise locate n ts)
  unterminated : ∀ {ts item rest}, Grammar.statement locate n ts = .ok (item, rest) → Stuck rest →
    Unfinished locate (fun ts rest => ∃ item, IsStmt locate ts item rest) .statement ts rest
  unterminatedBranch : ∀ {location ts item rest},
    Grammar.branch locate n location ts = .ok (item, rest) → Stuck rest →
    Unfinished locate (fun ts rest => ∃ item, IsBranch locate location ts item rest) .statement ts rest
  unterminatedElse : ∀ {ts item rest}, Grammar.otherwise locate n ts = .ok (item, rest) → Stuck rest →
    Unfinished locate (IsElse locate) .statement ts rest

theorem IsRow.isExpr {rest : List Token} (h : IsRow locate ts rest) (ends : EndsExpr rest) :
    ∃ e, IsExpr locate ts e rest := by
  obtain ⟨first, others, us, operand, behind⟩ := h
  exact ⟨_, .join operand behind ends⟩

/-- An expression that is finished is carried by its tokens. -/
theorem carries_expr {n : Nat} {ts rest : List Token} {e : Expr}
    (read : binary locate n 1 ts = .ok (e, rest)) : Carries (IsExpr locate · e ·) ts rest :=
  (sound_expr (soundAt n) read).carries

section Step

variable {n : Nat} (ih : CompletableAt locate n)
include ih

theorem completable_expr (ts : List Token) :
    Completable locate (fun ts rest => ∃ e, IsExpr locate ts e rest) ts (binary locate n 1 ts) :=
  (ih.binary (Nat.le_refl 1)).map fun _ _ ends row => row.isExpr ends

theorem completable_binary {level : Nat} (positive : 1 ≤ level) (ts : List Token) :
    Completable locate (IsRow locate) ts (binary locate (n + 1) level ts) := by
  rw [binary]
  refine .andThen ?_ fun left us read => ?_
  · refine ih.unary.map ?_
    rintro ts rest - ⟨e, operand⟩
    exact ⟨e, [], rest, operand, .nil⟩
  · obtain ⟨operand, -⟩ := (soundAt n).unary read
    refine ((ih.operators left positive).after operand.carries).map ?_
    rintro ts rest - ⟨us, operand, others, behind⟩
    exact ⟨left, others, us, operand, behind⟩

theorem completable_operators (left : Expr) {level : Nat} (positive : 1 ≤ level) (ts : List Token) :
    Completable locate (fun ts rest => ∃ others, IsOthers locate ts others rest) ts
      (operators locate (n + 1) level left ts) := by
  cases ts with
  | nil => trivial
  | cons op ts =>
      rw [operators]
      dsimp only
      split
      · trivial
      · rename_i tight
        have isBinary : op.kind.isBinary = true := by
          unfold TokenKind.isBinary
          rw [decide_eq_true_eq]
          omega
        refine .andThen ?_ fun right us read => ?_
        · refine ((ih.binary (Nat.le_add_left 1 _)).take op).map ?_
          rintro _ rest - ⟨_, rfl, first, others, us, operand, behind⟩
          exact ⟨(op, first) :: others, .cons isBinary operand behind⟩
        · -- the right operand is a row of its own, behind which this one goes on
          obtain ⟨first, inner, vs, operand, behind, -, rfl⟩ :=
            ((soundAt n).binary (Nat.le_add_left 1 _) read).row
          have row := operand.carries.append behind.carries
          refine (((ih.operators _ positive).after row).take op).map ?_
          rintro _ rest - ⟨_, rfl, us, ⟨vs, operand, behind⟩, outer, isOuter⟩
          exact ⟨((op, first) :: inner) ++ outer, .append (.cons isBinary operand behind) isOuter⟩

theorem completable_unary (ts : List Token) :
    Completable locate (fun ts rest => ∃ e, IsPrefixed locate ts e rest) ts
      (unary locate (n + 1) ts) := by
  cases ts with
  | nil => trivial
  | cons op ts =>
      rw [unary]
      split
      · rename_i isUnary
        refine .bind ?_ fun _ _ => trivial
        refine (ih.unary.take op).map ?_
        rintro _ rest - ⟨_, rfl, e, inner⟩
        exact ⟨_, .unary isUnary inner⟩
      · refine .andThen ?_ fun base us read => ?_
        · refine ih.operand.map ?_
          rintro ts rest - ⟨base, isBase⟩
          exact ⟨base, .operand isBase .nil⟩
        · refine ((ih.suffixes base).after ((soundAt n).operand read).carries).map ?_
          rintro ts rest - ⟨us, isBase, e, behind⟩
          exact ⟨e, .operand isBase behind⟩

theorem completable_suffixes (base : Expr) (ts : List Token) :
    Completable locate (fun ts rest => ∃ e, IsSuffixed locate base ts e rest) ts
      (suffixes locate (n + 1) base ts) := by
  cases ts with
  | nil => trivial
  | cons t ts =>
      rw [suffixes]
      split
      · rename_i kind
        refine .andThen ?_ fun selector us read => ?_
        · refine ((completable_identifier locate .selector (fun _ => trivial) ts).take t).map ?_
          rintro _ rest - ⟨_, rfl, name, isName, rfl⟩
          exact ⟨_, .select kind isName .nil⟩
        · obtain ⟨name, rfl, isName, rfl⟩ := identifier_ok read
          refine (((ih.suffixes _).take name).take t).map ?_
          rintro _ rest - ⟨_, rfl, _, rfl, e, later⟩
          exact ⟨e, .select kind isName later⟩
      · rename_i kind
        refine .andThen ?_ fun key us read => .andThen ?_ fun close vs closed => ?_
        · have key := (completable_expr ih ts).close [filler .closeBracket] fun _ => ⟨rfl, rfl⟩
          refine (key.take t).map ?_
          rintro _ rest - ⟨_, rfl, e, key⟩
          exact ⟨_, .index kind key rfl .nil⟩
        · have closed := completable_token locate .closeBracket .indexEnd ⟨rfl, rfl⟩ (fun _ => trivial) us
          refine ((closed.after (carries_expr read)).take t).map ?_
          rintro _ rest - ⟨_, rfl, _, key, close, isClose, rfl⟩
          exact ⟨_, .index kind key isClose .nil⟩
        · obtain ⟨rfl, isClose⟩ := token_ok closed
          refine ((((ih.suffixes _).take close).after (carries_expr read)).take t).map ?_
          rintro _ rest - ⟨_, rfl, _, key, _, rfl, e, later⟩
          exact ⟨e, .index kind key isClose later⟩
      · rename_i kind
        refine .andThen ?_ fun args us read => ?_
        · refine (ih.arguments.take t).map ?_
          rintro _ rest - ⟨_, rfl, args, isArgs⟩
          exact ⟨_, .call kind isArgs .nil⟩
        · have isArgs := (soundAt n).arguments read
          refine (((ih.suffixes _).after isArgs.carries).take t).map ?_
          rintro _ rest - ⟨_, rfl, us, isArgs, e, later⟩
          exact ⟨e, .call kind isArgs later⟩
      · trivial

omit ih in
/-- A parenthesis that is not closed where a whole expression ends. -/
theorem completable_unclosed {t : Token} (kind : t.kind = .openParen) {ts us : List Token}
    {inner : Expr} (read : binary locate n 1 ts = .ok (inner, us)) :
    Completable locate (fun ts rest => ∃ e, IsOperand locate ts e rest) (t :: ts)
      (token .closeParen (.closing t) us) := by
  have isExpr := sound_expr (soundAt n) read
  obtain ⟨front, rfl, whole⟩ := isExpr.carries
  cases us with
  | nil => trivial
  | cons found rest =>
      rw [token]
      split
      · trivial
      · rename_i other
        refine ⟨t :: front, [filler .closeParen], rfl, ?_, fun follow ends => ⟨?_, id⟩⟩
        · exact ⟨kind, [], front, inner, found, rest, rfl, rfl, other, isExpr⟩
        · exact ⟨_, .paren kind (whole _ fun _ => ⟨rfl, rfl⟩) rfl⟩

theorem completable_operand (ts : List Token) :
    Completable locate (fun ts rest => ∃ e, IsOperand locate ts e rest) ts
      (operand locate (n + 1) ts) := by
  cases ts with
  | nil => trivial
  | cons t ts =>
      rw [operand]
      split
      · trivial
      · cases Text.readInteger t.text <;> trivial
      · trivial
      · rename_i kind
        refine .andThen ?_ fun inner us read => .bind ?_ fun _ _ => trivial
        · have inner := (completable_expr ih ts).close [filler .closeParen] fun _ => ⟨rfl, rfl⟩
          refine (inner.take t).map ?_
          rintro _ rest - ⟨_, rfl, e, inner⟩
          exact ⟨_, .paren kind inner rfl⟩
        · exact completable_unclosed kind read
      · rename_i kind
        refine .bind ?_ fun _ _ => trivial
        refine (ih.elements.take t).map ?_
        rintro _ rest - ⟨_, rfl, items, isItems⟩
        exact ⟨_, .array kind isItems⟩
      · rename_i kind
        refine .andThen ?_ fun opening us opened => ?_
        · cases ts with
          | nil => trivial
          | cons found ts =>
              rw [token]
              split
              · trivial
              · refine ⟨[t], [filler .openParen, filler .closeParen, filler .openBrace,
                  filler .closeBrace], rfl, trivial, fun follow ends => ⟨?_, id⟩⟩
                exact ⟨_, .func kind rfl (.close rfl) (.braces rfl .nil rfl)⟩
        · obtain ⟨rfl, isOpening⟩ := token_ok opened
          refine .andThen ?_ fun params vs read => .bind ?_ fun _ _ => trivial
          · have params := (completable_parameters locate n us).close [filler .openBrace, filler .closeBrace]
              fun _ => ⟨rfl, rfl⟩
            refine ((params.take opening).take t).map ?_
            rintro _ rest - ⟨_, rfl, _, rfl, params, isParams⟩
            exact ⟨_, .func kind isOpening isParams (.braces rfl .nil rfl)⟩
          · have body := ih.block .functionBody vs fun _ => trivial
            refine (((body.after (parameters_ok read).carries).take opening).take t).map ?_
            rintro _ rest - ⟨_, rfl, _, rfl, _, isParams, body, isBody⟩
            exact ⟨_, .func kind isOpening isParams isBody⟩
      · exact .absent [filler .ident] (fun _ => ⟨rfl, rfl⟩) trivial fun _ _ => ⟨_, .ident rfl⟩

theorem completable_arguments (ts : List Token) :
    Completable locate (fun ts rest => ∃ args, IsArguments locate ts args rest) ts
      (arguments locate (n + 1) ts) := by
  cases ts with
  | nil => trivial
  | cons t ts =>
      rw [arguments]
      split
      · trivial
      · exact .absent [filler .closeParen] (fun _ => ⟨rfl, rfl⟩) trivial fun _ _ => ⟨[], .close rfl⟩
      · refine .andThen ?_ fun arg us read => .bind (completable_comma us) fun vs between =>
          .bind ?_ fun _ _ => trivial
        · have arg := (completable_expr ih (t :: ts)).close [filler .closeParen] fun _ => ⟨rfl, rfl⟩
          refine arg.map ?_
          rintro ts rest - ⟨e, arg⟩
          exact ⟨[e], .item arg .absent (.close rfl)⟩
        · have others := ih.arguments.after (comma_ok between).carries
          refine (others.after (carries_expr read)).map ?_
          rintro ts rest - ⟨us, arg, vs, between, args, later⟩
          exact ⟨_, .item arg between later⟩

theorem completable_elements (ts : List Token) :
    Completable locate (fun ts rest => ∃ items, IsElements locate ts items rest) ts
      (elements locate (n + 1) ts) := by
  cases ts with
  | nil => trivial
  | cons t ts =>
      rw [elements]
      split
      · trivial
      · exact .absent [filler .closeBracket] (fun _ => ⟨rfl, rfl⟩) trivial fun _ _ =>
          ⟨[], .close rfl⟩
      · refine .andThen ?_ fun item us read => .bind (completable_comma us) fun vs between =>
          .bind ?_ fun _ _ => trivial
        · have item := (ih.element t ts).close [filler .closeBracket] fun _ => ⟨rfl, rfl⟩
          refine item.map ?_
          rintro ts rest - ⟨item, isItem⟩
          exact ⟨[item], .item isItem .absent (.close rfl)⟩
        · have isItem := (soundAt n).element read
          have others := ih.elements.after (comma_ok between).carries
          refine (others.after isItem.carries).map ?_
          rintro ts rest - ⟨us, isItem, vs, between, items, later⟩
          exact ⟨_, .item isItem between later⟩

theorem completable_element (t : Token) (ts : List Token) :
    Completable locate (fun ts rest => ∃ item, IsElement locate ts item rest) (t :: ts)
      (element locate (n + 1) (locate t.start) (t :: ts)) := by
  rw [element]
  refine .andThen ?_ fun first us read => ?_
  · refine (completable_expr ih (t :: ts)).map ?_
    rintro ts rest - ⟨e, value⟩
    exact ⟨_, .plain value⟩
  · cases us with
    | nil => trivial
    | cons colon us =>
        dsimp only
        split
        · rename_i isColon
          refine .bind ?_ fun _ _ => trivial
          have value := (completable_expr ih us).take colon
          refine ((value.after (carries_expr read).head).take t).map ?_
          rintro _ rest - ⟨_, rfl, _, key, _, rfl, value, isValue⟩
          exact ⟨_, .keyed key isColon isValue⟩
        · trivial

theorem completable_block (opened : ∀ us, Opened locate [] us expected) (ts : List Token) :
    Completable locate (fun ts rest => ∃ body, IsBlock locate ts body rest) ts
      (block locate (n + 1) expected ts) := by
  rw [block]
  refine .andThen ?_ fun opening us read => .bind ?_ fun _ _ => trivial
  · have opening := completable_token locate .openBrace expected ⟨rfl, rfl⟩ opened ts
    refine (opening.close [filler .closeBrace] fun _ => ⟨rfl, rfl⟩).map ?_
    rintro _ rest - ⟨opening, isOpening, rfl⟩
    exact ⟨_, .braces isOpening .nil rfl⟩
  · obtain ⟨rfl, isOpening⟩ := token_ok read
    have inside := (ih.statements true us).close [filler .closeBrace] fun _ => ⟨rfl, rfl⟩
    refine (inside.take opening).map ?_
    rintro _ rest - ⟨_, rfl, items, inside⟩
    exact ⟨_, .braces isOpening inside rfl⟩

omit ih in
/-- Behind a statement that is not terminated comes the token that is rejected. -/
theorem completable_stuck {inBlock : Bool} (stuck : Stuck us)
    (h : Unfinished locate Whole .statement ts us) :
    Completable locate Whole ts (statements locate n inBlock us) := by
  cases n with
  | zero => trivial
  | succ n =>
      cases us with
      | nil => trivial
      | cons t us =>
          have begins : t.kind ≠ .endOfText ∧ t.kind ≠ .closeBrace := by
            rcases stuck with kind | kind <;> rw [kind] <;> exact ⟨by decide, by decide⟩
          rw [statements, if_neg begins.1, if_neg fun both => begins.2 both.1]
          refine .andThen ?_ fun first vs read => ?_
          · cases n with
            | zero => trivial
            | succ n =>
                rw [statement]
                rcases stuck with kind | kind <;> rw [kind] <;> exact h
          · cases n with
            | zero => cases read
            | succ n =>
                rw [statement] at read
                rcases stuck with kind | kind <;> rw [kind] at read <;> cases read

theorem completable_statements (inBlock : Bool) (ts : List Token) :
    Completable locate (fun ts rest => ∃ items, IsStmts locate ts items rest) ts
      (statements locate (n + 1) inBlock ts) := by
  cases ts with
  | nil => trivial
  | cons t ts =>
      rw [statements]
      split
      · split
        · exact .absent [filler .semicolon] (fun _ => ⟨rfl, rfl⟩) trivial fun _ _ =>
            ⟨_, .cons (.empty rfl) .nil⟩
        · trivial
      · split
        · trivial
        · refine .andThen ?_ fun first us read => .bind ?_ fun _ _ => trivial
          · refine ih.statement.map ?_
            rintro ts rest - ⟨item, isItem⟩
            exact ⟨_, .cons isItem .nil⟩
          · rcases (soundAt n).statement read with isFirst | stuck
            · refine ((ih.statements inBlock us).after isFirst.carries).map ?_
              rintro ts rest - ⟨us, isFirst, items, later⟩
              exact ⟨_, .cons isFirst later⟩
            · refine completable_stuck stuck ((ih.unterminated read stuck).map ?_)
              rintro ts rest - ⟨item, isItem⟩
              exact ⟨_, .cons isItem .nil⟩

/-- An expression that begins as an assignment does. -/
def IsTarget (locate : Position → Location) (ts rest : List Token) : Prop :=
  ∃ t us e, ts = t :: us ∧ t.kind.beginsTarget = true ∧ IsExpr locate (t :: us) e rest

theorem completable_target {t : Token} (begins : t.kind.beginsTarget = true) (ts : List Token) :
    Completable locate (IsTarget locate) (t :: ts) (binary locate n 1 (t :: ts)) := by
  have expr := completable_expr ih (t :: ts)
  have shrinks := shrinks_target locate begins n 1 ts
  match read : binary locate n 1 (t :: ts) with
  | .error (.unexpected expected found rest) =>
      rw [read] at expr shrinks
      obtain ⟨before, more, same, opened, completes⟩ := expr
      cases before with
      | nil =>
          cases same
          exact absurd shrinks (Nat.lt_irrefl _)
      | cons first before =>
          cases same
          refine ⟨t :: before, more, rfl, opened, fun follow ends => ?_⟩
          obtain ⟨⟨e, isExpr⟩, still⟩ := completes follow ends
          exact ⟨⟨t, _, e, rfl, begins, isExpr⟩, still⟩
  | .ok _ | .error (.badNumeral _) | .error .outOfTokens | .error .outOfFuel => trivial

theorem completable_sentence {t : Token} (begins : t.kind.beginsTarget = true) (ts : List Token) :
    Completable locate (fun ts rest => ∃ item, IsStmt locate ts item rest) (t :: ts)
      (sentence locate n t ts) := by
  refine .andThen ?_ fun first us read => ?_
  · refine (completable_target ih begins ts).map ?_
    rintro _ rest - ⟨t, us, e, rfl, begins, value⟩
    exact ⟨_, .expr begins value⟩
  · cases us with
    | nil => trivial
    | cons next us =>
        have target := (carries_expr read).head
        dsimp only
        split
        · rename_i isAssign
          refine .andThen ?_ fun value vs read' => .bind ?_ fun _ _ => trivial
          · have value := (completable_expr ih us).close [filler .semicolon] fun _ => ⟨rfl, rfl⟩
            refine (((value.take next).after target).take t).map ?_
            rintro _ rest - ⟨_, rfl, _, target, _, rfl, e, value⟩
            exact ⟨_, .assign begins target isAssign value rfl⟩
          · have ended := (completable_terminator locate vs).after (carries_expr read')
            refine (((ended.take next).after target).take t).map ?_
            rintro _ rest - ⟨_, rfl, _, target, _, rfl, _, value, close, isClose, rfl⟩
            exact ⟨_, .assign begins target isAssign value isClose⟩
        · trivial

omit ih in
/-- A statement that is not terminated, if it begins with an expression. -/
theorem unterminated_sentence {t : Token} {ts rest : List Token} {item : Stmt}
    (begins : t.kind.beginsTarget = true) (read : sentence locate n t ts = .ok (item, rest))
    (stuck : Stuck rest) :
    Unfinished locate (fun ts rest => ∃ item, IsStmt locate ts item rest) .statement (t :: ts)
      rest := by
  unfold sentence at read
  obtain ⟨⟨first, us⟩, readFirst, read⟩ := bind_ok read
  cases us with
  | nil => cases read
  | cons next us =>
      have target := (carries_expr readFirst).head
      dsimp only at read
      split at read
      · rename_i isAssign
        obtain ⟨⟨value, vs⟩, readValue, read⟩ := bind_ok read
        obtain ⟨ws, ended, read⟩ := bind_ok read
        cases read
        have value := (unfinished_terminator locate ended stuck).after (carries_expr readValue)
        refine (((value.take next).after target).take t).map ?_
        rintro _ rest - ⟨_, rfl, _, target, _, rfl, _, value, close, isClose, rfl⟩
        exact ⟨_, .assign begins target isAssign value isClose⟩
      · cases read
        refine .of_carries (target.cons t fun _ _ value => ?_) fun _ => trivial
        exact ⟨_, .expr begins value⟩

theorem completable_statement (ts : List Token) :
    Completable locate (fun ts rest => ∃ item, IsStmt locate ts item rest) ts
      (statement locate (n + 1) ts) := by
  cases ts with
  | nil => trivial
  | cons t ts =>
      rw [statement]
      split
      · refine .andThen ?_ fun body us read => .bind ?_ fun _ _ => trivial
        · have body := (ih.block .statement (t :: ts) fun _ => trivial).close [filler .semicolon]
            fun _ => ⟨rfl, rfl⟩
          refine body.map ?_
          rintro ts rest - ⟨body, isBody⟩
          exact ⟨_, .block isBody rfl⟩
        · have isBody := (soundAt n).block read
          refine ((completable_terminator locate us).after isBody.carries).map ?_
          rintro ts rest - ⟨_, isBody, close, isClose, rfl⟩
          exact ⟨_, .block isBody isClose⟩
      · rename_i kind
        refine .bind ?_ fun _ _ => trivial
        refine ((ih.branch _).take t).map ?_
        rintro _ rest - ⟨_, rfl, item, isItem⟩
        exact ⟨_, .cond kind isItem⟩
      · trivial
      · rename_i kind
        refine .andThen ?_ fun test us read => .bind ?_ fun _ _ => trivial
        · have test := (completable_expr ih ts).close [filler .openBrace, filler .closeBrace]
            fun _ => ⟨rfl, rfl⟩
          refine (test.take t).map ?_
          rintro _ rest - ⟨_, rfl, e, test⟩
          exact ⟨_, .loop kind test (.braces rfl .nil rfl)⟩
        · have body := ih.block .whileBody us fun _ => trivial
          refine ((body.after (carries_expr read)).take t).map ?_
          rintro _ rest - ⟨_, rfl, _, test, body, isBody⟩
          exact ⟨_, .loop kind test isBody⟩
      · rename_i kind
        refine .andThen ?_ fun value us read => .bind ?_ fun _ _ => trivial
        · refine ((ih.returned.close [filler .semicolon] fun _ => ⟨rfl, rfl⟩).take t).map ?_
          rintro _ rest - ⟨_, rfl, e, value⟩
          exact ⟨_, .retValue kind value rfl⟩
        · have ended := completable_terminator locate us
          rcases (soundAt n).returned read with ⟨-, rfl⟩ | ⟨e, -, isExpr⟩
          · refine (ended.take t).map ?_
            rintro _ rest - ⟨_, rfl, close, isClose, rfl⟩
            exact ⟨_, .ret kind isClose⟩
          · refine ((ended.after isExpr.carries).take t).map ?_
            rintro _ rest - ⟨_, rfl, _, value, close, isClose, rfl⟩
            exact ⟨_, .retValue kind value isClose⟩
      · rename_i kind
        exact completable_sentence ih (by rw [kind]; rfl) ts
      · rename_i kind
        exact completable_sentence ih (by rw [kind]; rfl) ts
      · rename_i kind
        exact completable_sentence ih (by rw [kind]; rfl) ts
      · exact .absent [filler .semicolon] (fun _ => ⟨rfl, rfl⟩) trivial fun _ _ => ⟨_, .empty rfl⟩

theorem completable_returned (ts : List Token) :
    Completable locate (fun ts rest => ∃ e, IsExpr locate ts e rest) ts
      (returned locate (n + 1) ts) := by
  cases ts with
  | nil => trivial
  | cons t ts =>
      rw [returned]
      split
      · trivial
      · trivial
      · exact .bind (completable_expr ih (t :: ts)) fun _ _ => trivial

omit ih in
/-- A condition and a block, up to what ends a branch. -/
theorem carries_condition {expected : Expected} {ts us vs : List Token} {test : Expr} {body : Block}
    (read : binary locate n 1 ts = .ok (test, us))
    (read' : block locate n expected us = .ok (body, vs)) :
    Carries (Relation.Comp (IsExpr locate · test ·) (IsBlock locate · body ·)) ts vs :=
  (carries_expr read).append ((soundAt n).block read').carries

omit ih in
/-- What ends a branch completes it. -/
theorem isBranch_else {location : Location} {ts us vs rest : List Token} {test : Expr}
    {body : Block} {word : Token} (isTest : IsExpr locate ts test us)
    (isBody : IsBlock locate us body (word :: vs)) (isWord : word.kind = .elseWord)
    (isElse : IsElse locate vs rest) : ∃ item, IsBranch locate location ts item rest := by
  rcases isElse with ⟨other, close, isOther, isClose⟩ | ⟨again, us, next, rfl, isIf, isNext⟩
  · exact ⟨_, .block isTest isBody isWord isOther isClose⟩
  · exact ⟨_, .branch isTest isBody isWord isIf isNext⟩

theorem completable_branch (location : Location) (ts : List Token) :
    Completable locate (fun ts rest => ∃ item, IsBranch locate location ts item rest) ts
      (branch locate (n + 1) location ts) := by
  rw [branch]
  refine .andThen ?_ fun test us readTest => .andThen ?_ fun body vs readBody => ?_
  · have test := (completable_expr ih ts).close
      [filler .openBrace, filler .closeBrace, filler .semicolon] fun _ => ⟨rfl, rfl⟩
    refine test.map ?_
    rintro ts rest - ⟨e, test⟩
    exact ⟨_, .single test (.braces rfl .nil rfl) rfl⟩
  · have body := (ih.block .ifBody us fun _ => trivial).close [filler .semicolon] fun _ => ⟨rfl, rfl⟩
    refine (body.after (carries_expr readTest)).map ?_
    rintro ts rest - ⟨_, test, body, isBody⟩
    exact ⟨_, .single test isBody rfl⟩
  · have condition := carries_condition readTest readBody
    cases vs with
    | nil => trivial
    | cons word vs =>
        dsimp only
        split
        · rename_i isWord
          refine .bind ?_ fun _ _ => trivial
          refine ((ih.otherwise.take word).after condition).map ?_
          rintro ts rest - ⟨_, ⟨_, test, body⟩, _, rfl, isElse⟩
          exact isBranch_else test body isWord isElse
        · refine .bind ?_ fun _ _ => trivial
          refine ((completable_terminator locate (word :: vs)).after condition).map ?_
          rintro ts rest - ⟨_, ⟨_, test, body⟩, close, isClose, rfl⟩
          exact ⟨_, .single test body isClose⟩

theorem completable_otherwise (ts : List Token) :
    Completable locate (IsElse locate) ts (otherwise locate (n + 1) ts) := by
  cases ts with
  | nil => trivial
  | cons t ts =>
      rw [otherwise]
      split
      · rename_i isIf
        refine .bind ?_ fun _ _ => trivial
        refine ((ih.branch _).take t).map ?_
        rintro _ rest - ⟨us, rfl, next, isNext⟩
        exact .inr ⟨t, us, next, rfl, isIf, isNext⟩
      · refine .andThen ?_ fun body us read => .bind ?_ fun _ _ => trivial
        · have body := (ih.block .elseBody (t :: ts) fun _ => trivial).close [filler .semicolon]
            fun _ => ⟨rfl, rfl⟩
          refine body.map ?_
          rintro ts rest - ⟨body, isBody⟩
          exact .inl ⟨body, _, isBody, rfl⟩
        · have isBody := (soundAt n).block read
          refine ((completable_terminator locate us).after isBody.carries).map ?_
          rintro ts rest - ⟨_, isBody, close, isClose, rfl⟩
          exact .inl ⟨body, close, isBody, isClose⟩

/-! ### Statements that are not terminated -/

theorem unterminated_statement {ts rest : List Token} {item : Stmt}
    (read : statement locate (n + 1) ts = .ok (item, rest)) (stuck : Stuck rest) :
    Unfinished locate (fun ts rest => ∃ item, IsStmt locate ts item rest) .statement ts rest := by
  cases ts with
  | nil => cases read
  | cons t ts =>
      have expression : t.kind.beginsTarget = true → sentence locate n t ts = .ok (item, rest) →
          Unfinished locate (fun ts rest => ∃ item, IsStmt locate ts item rest) .statement (t :: ts)
            rest := fun begins read => unterminated_sentence begins read stuck
      rw [statement] at read
      split at read
      · obtain ⟨⟨body, us⟩, readBody, read⟩ := bind_ok read
        obtain ⟨vs, ended, read⟩ := bind_ok read
        cases read
        have isBody := (soundAt n).block readBody
        refine ((unfinished_terminator locate ended stuck).after isBody.carries).map ?_
        rintro ts rest - ⟨_, isBody, close, isClose, rfl⟩
        exact ⟨_, .block isBody isClose⟩
      · rename_i kind
        obtain ⟨⟨next, us⟩, readBranch, read⟩ := bind_ok read
        cases read
        refine ((ih.unterminatedBranch readBranch stuck).take t).map ?_
        rintro _ rest - ⟨_, rfl, item, isItem⟩
        exact ⟨_, .cond kind isItem⟩
      · rename_i kind
        cases read
        exact .of_carries (.single t (fun rest => ⟨_, .empty kind⟩) _) fun _ => trivial
      · rename_i kind
        obtain ⟨⟨test, us⟩, readTest, read⟩ := bind_ok read
        obtain ⟨⟨body, vs⟩, readBody, read⟩ := bind_ok read
        cases read
        refine .of_carries ((carries_condition readTest readBody).cons t ?_) fun _ => trivial
        rintro ts rest ⟨us, test, body⟩
        exact ⟨_, .loop kind test body⟩
      · rename_i kind
        obtain ⟨⟨value, us⟩, readValue, read⟩ := bind_ok read
        obtain ⟨vs, ended, read⟩ := bind_ok read
        cases read
        have ended := unfinished_terminator locate ended stuck
        rcases (soundAt n).returned readValue with ⟨-, rfl⟩ | ⟨e, -, isExpr⟩
        · refine (ended.take t).map ?_
          rintro _ rest - ⟨_, rfl, close, isClose, rfl⟩
          exact ⟨_, .ret kind isClose⟩
        · refine ((ended.after isExpr.carries).take t).map ?_
          rintro _ rest - ⟨_, rfl, _, value, close, isClose, rfl⟩
          exact ⟨_, .retValue kind value isClose⟩
      · rename_i kind
        exact expression (by rw [kind]; rfl) read
      · rename_i kind
        exact expression (by rw [kind]; rfl) read
      · rename_i kind
        exact expression (by rw [kind]; rfl) read
      · cases read

theorem unterminated_branch {location : Location} {ts rest : List Token} {item : Branch}
    (read : branch locate (n + 1) location ts = .ok (item, rest)) (stuck : Stuck rest) :
    Unfinished locate (fun ts rest => ∃ item, IsBranch locate location ts item rest) .statement ts
      rest := by
  rw [branch] at read
  obtain ⟨⟨test, us⟩, readTest, read⟩ := bind_ok read
  obtain ⟨⟨body, vs⟩, readBody, read⟩ := bind_ok read
  have condition := carries_condition readTest readBody
  cases vs with
  | nil => cases read
  | cons word vs =>
      dsimp only at read
      split at read
      · rename_i isWord
        obtain ⟨⟨otherwise, ws⟩, readElse, read⟩ := bind_ok read
        cases read
        have isElse := (ih.unterminatedElse readElse stuck).take word
        refine (isElse.after condition).map ?_
        rintro ts rest - ⟨_, ⟨_, test, body⟩, _, rfl, isElse⟩
        exact isBranch_else test body isWord isElse
      · obtain ⟨ws, ended, read⟩ := bind_ok read
        cases read
        refine ((unfinished_terminator locate ended stuck).after condition).map ?_
        rintro ts rest - ⟨_, ⟨_, test, body⟩, close, isClose, rfl⟩
        exact ⟨_, .single test body isClose⟩

theorem unterminated_otherwise {ts rest : List Token} {item : Otherwise}
    (read : otherwise locate (n + 1) ts = .ok (item, rest)) (stuck : Stuck rest) :
    Unfinished locate (IsElse locate) .statement ts rest := by
  cases ts with
  | nil => cases read
  | cons t ts =>
      rw [otherwise] at read
      split at read
      · rename_i isIf
        obtain ⟨⟨next, us⟩, readBranch, read⟩ := bind_ok read
        cases read
        refine ((ih.unterminatedBranch readBranch stuck).take t).map ?_
        rintro _ rest - ⟨us, rfl, next, isNext⟩
        exact .inr ⟨t, us, next, rfl, isIf, isNext⟩
      · obtain ⟨⟨body, us⟩, readBody, read⟩ := bind_ok read
        obtain ⟨vs, ended, read⟩ := bind_ok read
        cases read
        have isBody := (soundAt n).block readBody
        refine ((unfinished_terminator locate ended stuck).after isBody.carries).map ?_
        rintro ts rest - ⟨_, isBody, close, isClose, rfl⟩
        exact .inl ⟨body, close, isBody, isClose⟩

theorem completableAt_succ : CompletableAt locate (n + 1) where
  binary positive := completable_binary ih positive _
  operators left _ _ positive := completable_operators ih left positive _
  unary := completable_unary ih _
  suffixes base _ := completable_suffixes ih base _
  operand := completable_operand ih _
  arguments := completable_arguments ih _
  elements := completable_elements ih _
  element := completable_element ih
  block _ ts opened := completable_block ih opened ts
  statements := completable_statements ih
  statement := completable_statement ih _
  returned := completable_returned ih _
  branch location _ := completable_branch ih location _
  otherwise := completable_otherwise ih _
  unterminated := unterminated_statement ih
  unterminatedBranch := unterminated_branch ih
  unterminatedElse := unterminated_otherwise ih

end Step

theorem completableAt (locate : Position → Location) (n : Nat) : CompletableAt locate n := by
  induction n with
  | zero => constructor <;> intros <;> trivial
  | succ n ih => exact completableAt_succ ih

end Grammar

end Mini
