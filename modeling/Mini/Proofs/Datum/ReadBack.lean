import Mini.Proofs.Datum.Literal
import Mini.Proofs.Execution.Steps
import Mini.Proofs.Heap.Touched
import Mini.Proofs.Scopes.Names

/-!
# Displays are read back

Displaying and evaluating are inverse on data. The display of a datum is an expression, and
evaluating it makes arrays that show the same datum. No key is lost on the way: an array
literal puts its elements in one by one, and a key that is not there yet comes last.
-/

namespace Mini

open Exec Session

/-- An element whose key is new adds a pair. -/
theorem Exec.pairs_keyed_apply {eval : Expr → Exec Value} {location : Location}
    {key value : Expr} {s t u : Session} {k v : Value} {sofar more : Pairs}
    (first : eval key s = .done k t) (second : eval value t = .done v u)
    (stored : u.heap.store sofar k v = .ok more) (position : Nat) (rest : List Element) :
    pairs eval position sofar (.keyed location key value :: rest) s =
      pairs eval (position + 1) more rest u := by
  rw [pairs, bind_apply, first]
  dsimp only
  rw [bind_apply, second]
  dsimp only
  rw [bind_apply, get_apply]
  dsimp only
  rw [stored]
  rfl

/-! ## Evaluating a literal -/

/-- A session in which only the heap is another one. -/
def Session.withHeap (s : Session) (heap : Heap) : Session :=
  { s with heap := heap }

mutual

/-- A literal of a datum evaluates to a value that shows it. -/
theorem Denotes.evaluates {e : Expr} {d : Datum} (denotes : Denotes e d) (proper : d.Proper)
    (s : Session) :
    ∃ n v heap, s.heap.Extends heap ∧ heap.Shows v d ∧
      ∀ fuel calls, n ≤ fuel → evaluate fuel calls e s = .done v (s.withHeap heap) := by
  match denotes with
  | @Denotes.number _ n =>
      refine ⟨1, .number n, s.heap, .refl _, .number, fun fuel calls enough => ?_⟩
      obtain ⟨fuel, rfl⟩ : ∃ k, fuel = k + 1 := ⟨fuel - 1, by omega⟩
      rfl
  | @Denotes.opposite _ _ op n minus =>
      refine ⟨2, .number (-n), s.heap, .refl _, .number, fun fuel calls enough => ?_⟩
      obtain ⟨fuel, rfl⟩ : ∃ k, fuel = k + 2 := ⟨fuel - 2, by omega⟩
      have opposite : Operator.unary op (.number n) = .ok (.number (-n)) := by
        unfold Operator.unary
        simp only [minus]
      rw [evaluate, bind_apply]
      show orBlame _ (Operator.unary op (.number n)) s = _
      rw [opposite]
      rfl
  | @Denotes.boolean _ b =>
      refine ⟨1, .boolean b, s.heap, .refl _, .boolean, fun fuel calls enough => ?_⟩
      obtain ⟨fuel, rfl⟩ : ∃ k, fuel = k + 1 := ⟨fuel - 1, by omega⟩
      rw [evaluate, name_apply]
      cases b <;> rfl
  | @Denotes.array _ _ ds items =>
      cases proper with
      | array proper =>
        have none : ∀ pair ∈ ([] : Pairs), ∃ d, s.heap.Shows pair.1 d ∧ d ∉ ds.keys := by
          intro pair mem
          cases mem
        obtain ⟨n, stored, heap, grows, shows, evaluates⟩ :=
          items.stored proper s 0 none
        have inside : heap.fresh.index < (heap.add stored).arrays.size := by
          rw [Heap.add, Heap.fresh, Array.size_push]
          exact Nat.lt_succ_self _
        have shown : (heap.add stored).ShowsPairs ((heap.add stored).read heap.fresh) ds := by
          rw [Heap.read_fresh]
          exact shows.extend (Heap.extends_add heap stored)
        refine ⟨n + 1, .array heap.fresh, heap.add stored,
          grows.trans (Heap.extends_add heap stored), .array inside shown, fun fuel calls enough => ?_⟩
        obtain ⟨fuel, rfl⟩ : ∃ k, fuel = k + 1 := ⟨fuel - 1, by omega⟩
        rw [evaluate, bind_apply, evaluates fuel calls (by omega)]
        exact newArray_apply stored (s.withHeap heap)
termination_by structural denotes

/-- Elements with new keys are put in one by one. -/
theorem DenotesElements.stored {elements : List Element} {ds : DatumPairs}
    (denotes : DenotesElements elements ds) (proper : ds.Proper) (s : Session) (position : Nat)
    {sofar : Pairs}
    (new : ∀ pair ∈ sofar, ∃ d, s.heap.Shows pair.1 d ∧ d ∉ ds.keys) :
    ∃ n stored heap, s.heap.Extends heap ∧ heap.ShowsPairs stored ds ∧
      ∀ fuel calls, n ≤ fuel → pairs (evaluate fuel calls) position sofar elements s =
        .done (sofar ++ stored) (s.withHeap heap) := by
  match denotes with
  | .nil =>
      refine ⟨0, [], s.heap, .refl _, .nil, fun fuel calls _ => ?_⟩
      rw [List.append_nil]
      rfl
  | @DenotesElements.cons _ key value elements k v rest isKey isValue items =>
      cases proper with
      | cons properKey properValue fresh properRest =>
        obtain ⟨n, a, h₁, grows₁, showsKey, evaluatesKey⟩ := isKey.evaluates properKey s
        obtain ⟨n', b, h₂, grows₂, showsValue, evaluatesValue⟩ :=
          isValue.evaluates properValue (s.withHeap h₁)
        have showsKey := showsKey.extend grows₂
        have grows := grows₁.trans grows₂
        -- the new key differs from all that are there, and later keys from the new one
        have differ : ∀ pair ∈ sofar, h₂.same pair.1 a = .ok false := by
          intro pair mem
          obtain ⟨d, shown, notIn⟩ := new pair mem
          have ne : d ≠ k := by
            rintro rfl
            exact notIn List.mem_cons_self
          rw [(shown.extend grows).same showsKey, decide_eq_false ne]
        have new' : ∀ pair ∈ sofar ++ [(a, b)],
            ∃ d, ((s.withHeap h₁).withHeap h₂).heap.Shows pair.1 d ∧ d ∉ rest.keys := by
          intro pair mem
          rcases List.mem_append.mp mem with mem | mem
          · obtain ⟨d, shown, notIn⟩ := new pair mem
            exact ⟨d, shown.extend grows, fun later => notIn (List.mem_cons_of_mem _ later)⟩
          · rw [List.mem_singleton.mp mem]
            exact ⟨k, showsKey, fresh⟩
        obtain ⟨n'', stored, h₃, grows₃, showsRest, storesRest⟩ :=
          items.stored properRest ((s.withHeap h₁).withHeap h₂) (position + 1) new'
        have grows₃ : h₂.Extends h₃ := grows₃
        refine ⟨max n (max n' n''), (a, b) :: stored, h₃, grows.trans grows₃,
          .cons (showsKey.extend grows₃) (showsValue.extend grows₃) showsRest,
          fun fuel calls enough => ?_⟩
        rw [pairs_keyed_apply (evaluatesKey fuel calls (by omega))
          (evaluatesValue fuel calls (by omega)) (Heap.Lacks.store differ b),
          storesRest fuel calls (by omega), List.append_assoc]
        rfl
termination_by structural denotes

end

/-! ## Reading an assignment -/

/-- The source of an assignment to `x`. -/
def assignment (file text : String) : Source :=
  ⟨file, "x = " ++ text ++ ";"⟩

/-- The words of an assignment of a datum to `x`. -/
def Datum.assignmentWords (d : Datum) : List Word :=
  (.ident, "x") :: (.assign, "=") :: (d.words ++ [(.semicolon, ";")])

theorem Datum.plain_semicolon (d : Datum) :
    ∀ word ∈ d.words ++ [(.semicolon, ";")], Word.Plain word := by
  intro word mem
  rcases List.mem_append.mp mem with mem | mem
  · exact d.plain word mem
  · rw [List.mem_singleton.mp mem]
    exact ⟨by decide, by decide⟩

theorem Datum.kinds_assignment (d : Datum) :
    ∀ word ∈ d.assignmentWords, TokenKind.ofText? word.2 = some word.1 := by
  intro word mem
  rcases List.mem_cons.mp mem with rfl | mem
  · decide
  rcases List.mem_cons.mp mem with rfl | mem
  · decide
  · exact (d.plain_semicolon word mem).kind

/-- Only the equals sign could begin an operator, and no second one follows it. -/
theorem Datum.apart_assignment (d : Datum) :
    (d.assignmentWords.map Prod.snd).IsChain Fragment.Apart := by
  have single : ∀ word ∈ (d.words ++ [(TokenKind.semicolon, ";")]).map Prod.snd,
      Fragment.partner? word = none := by
    intro word mem
    obtain ⟨plain, inside, rfl⟩ := List.mem_map.mp mem
    exact (d.plain_semicolon plain inside).single
  have first : Fragment.Apart "x" "=" := by
    unfold Fragment.Apart
    decide
  refine List.isChain_cons_cons.mpr ⟨first, List.isChain_cons.mpr ⟨?_, ?_⟩⟩
  · rintro word head same
    have none := single word (List.mem_of_mem_head? head)
    obtain rfl : "=" = word := Option.some.inj same
    cases none
  · refine List.Pairwise.isChain (List.pairwise_iff_forall_sublist.mpr ?_)
    intro a b pair same
    rw [single a (pair.subset List.mem_cons_self)] at same
    cases same

theorem Datum.cut_assignment (d : Datum) (file : String) :
    Lexeme.Cut (assignment file d.text).text.toList (d.assignmentWords.map Prod.snd) := by
  have last := Lexeme.Cut.symbol ";" rfl (by decide) .nil
  have display := d.cut (Lexeme.separated_symbol ";" rfl (by decide) _) last
  have equals := Lexeme.Cut.symbol "=" rfl (by decide) display.gap
  have name : Lexeme.Begins "x".toList (' ' :: ("=".toList ++ ' ' :: (d.text.toList ++
      (";".toList ++ [])))) := by
    have space : Lexeme.separates ' ' = true := by decide
    show Lexeme.Begins ('x' :: []) _
    exact Lexical.begins_of_name (by decide) (by decide) space
  have whole := Lexeme.Cut.word name equals.gap
  simpa [assignment, Datum.assignmentWords] using whole

/-- The display of a proper datum makes an assignment of a literal for it. -/
theorem Program.ofSource_assignment {d : Datum} (proper : d.Proper) (file : String) :
    ∃ location e, Denotes e d ∧ Program.ofSource (assignment file d.text) =
      .ok ⟨[.assign location (.ident ⟨location, "x"⟩) e]⟩ := by
  obtain ⟨tokens, finish, lexed, words⟩ :=
    Token.ofSource_of_cut (d.cut_assignment file) d.apart_assignment d.kinds_assignment
  obtain ⟨x, tokens, rfl, isName, words⟩ := List.map_eq_cons_iff.mp words
  obtain ⟨eq, tokens, rfl, isAssign, words⟩ := List.map_eq_cons_iff.mp words
  have ident : x.kind = .ident := congrArg Prod.fst isName
  have name : x.text = "x" := congrArg Prod.snd isName
  have assign : eq.kind = .assign := congrArg Prod.fst isAssign
  let rest : List Token := tokens ++ [⟨.endOfText, "", finish⟩]
  have literal : rest.map Token.word = d.words ++ [(.semicolon, ";"), (.endOfText, "")] := by
    show (tokens ++ [_]).map Token.word = _
    rw [List.map_append, words, List.append_assoc]
    rfl
  let locate := (assignment file d.text).listing.locate
  obtain ⟨e, us, value, behind, denotes⟩ := d.derives locate proper literal ⟨rfl, rfl⟩
  -- behind the literal there are the semicolon and the end of the text
  obtain ⟨close, us, rfl, isClose, behind⟩ := List.map_eq_cons_iff.mp behind
  obtain ⟨eof, us, rfl, isEof, -⟩ := List.map_eq_cons_iff.mp behind
  have ends : Grammar.EndsExpr (eq :: rest) := by
    rw [Grammar.EndsExpr, assign]
    decide
  have target := isExpr_of_prefixed locate (.operand (.ident ident) .nil) ends
  have begins : x.kind.beginsTarget = true := by rw [ident]; rfl
  have statement := Grammar.IsStmt.assign begins target assign value (congrArg Prod.fst isClose)
  have closes : Grammar.ClosesStmts false (eof :: us) := congrArg Prod.fst isEof
  have program := Program.ofTokens_of_derivation (.cons statement .nil) closes
  rw [name] at program
  exact ⟨locate x.start, e, denotes, Program.ofSource_eq_ok_iff.mpr ⟨_, lexed, program⟩⟩

/-- Different data have different displays, since only one datum is read back. -/
theorem Datum.text_injective {d d' : Datum} (proper : d.Proper) (proper' : d'.Proper)
    (same : d.text = d'.text) : d = d' := by
  obtain ⟨location, e, denotes, program⟩ := Program.ofSource_assignment proper ""
  obtain ⟨location', e', denotes', program'⟩ := Program.ofSource_assignment proper' ""
  rw [same, program'] at program
  cases program
  obtain ⟨n, v, heap, -, shows, evaluates⟩ := denotes.evaluates proper (initial false)
  obtain ⟨n', v', heap', -, shows', evaluates'⟩ := denotes'.evaluates proper' (initial false)
  -- one expression, evaluated twice with the same budget
  have once := evaluates (max n n') 0 (Nat.le_max_left _ _)
  rw [evaluates' (max n n') 0 (Nat.le_max_right _ _)] at once
  injection once with sameValue sameSession
  have sameHeap : heap' = heap := congrArg Session.heap sameSession
  rw [sameValue, sameHeap] at shows'
  exact shows.unique shows'

/-! ## Running an assignment -/

namespace Session

/-- A step can be logged where a scope has just been opened, in a verbose log too. -/
theorem step_enter (s : Session) (rule : String) (location : Location) :
    ∃ entry, step { s with scopes := s.scopes.enter } rule (some location) [] = .ok entry := by
  unfold step
  dsimp only
  split
  · rw [Scopes.snapshot_enter]
    exact ⟨_, rfl⟩
  · exact ⟨_, rfl⟩

/-- Assigning a literal to `x` in a new scope gives `x` a value that shows its datum. -/
theorem execute_assignment {e : Expr} {d : Datum} (denotes : Denotes e d) (proper : d.Proper)
    (location : Location) (s : Session) :
    ∃ n w t, t.scopes.get "x" = .ok w ∧ s.heap.Extends t.heap ∧ t.heap.Shows w d ∧
      ∀ fuel calls, n ≤ fuel →
        forEach (execute fuel calls) [.assign location (.ident ⟨location, "x"⟩) e]
          { s with scopes := s.scopes.enter } = .done () t := by
  let opened : Session := { s with scopes := s.scopes.enter }
  obtain ⟨entry, logs⟩ := s.step_enter "Assignment" location
  obtain ⟨n, w, heap, grows, shows, evaluates⟩ := denotes.evaluates proper (opened.record entry)
  obtain ⟨scopes, binds, bound⟩ := Scopes.get_bind rfl s.scopes.enter_getElem? w
  refine ⟨n + 1, w, { (opened.record entry).withHeap heap with scopes := scopes }, bound, grows,
    shows, fun fuel calls enough => ?_⟩
  obtain ⟨fuel, rfl⟩ : ∃ k, fuel = k + 1 := ⟨fuel - 1, by omega⟩
  have noted : note (Stmt.assign location (.ident ⟨location, "x"⟩) e).kindName location [] opened =
      .done () (opened.record entry) := note_ok logs
  have assigned : bind "x" w ((opened.record entry).withHeap heap) =
      .done () { (opened.record entry).withHeap heap with scopes := scopes } := bindName_ok binds
  have executed : execute (fuel + 1) calls (.assign location (.ident ⟨location, "x"⟩) e) opened =
      .done () { (opened.record entry).withHeap heap with scopes := scopes } := by
    rw [execute, bind_apply, Stmt.location, noted]
    dsimp only
    rw [bind_apply, evaluates fuel calls (by omega)]
    exact assigned
  rw [forEach, bind_apply, executed]
  rfl

/-- **Display and evaluation are inverse on data.** The display of a value made of numbers,
truth values and arrays with different keys is a program's right-hand side: it is read,
it runs without a fault, and it gives `x` a value that is the same as the one displayed. So
two such values with one display are the same. -/
theorem runSource_display {s : Session} {v : Value} (data : s.heap.IsData v) (file : String) :
    ∃ text program, s.heap.display v = .ok text ∧
      Program.ofSource ⟨file, "x = " ++ text ++ ";"⟩ = .ok program ∧
      (∃ n, ∀ budget : Budget, n ≤ budget.fuel →
        (s.runSource budget ⟨file, "x = " ++ text ++ ";"⟩).1 = .finished ∧
        ∃ t w, forEach (execute budget.fuel budget.calls) program.statements
            { s.begun with scopes := s.begun.scopes.enter } = .done () t ∧
          s.heap.Extends t.heap ∧ t.scopes.get "x" = .ok w ∧ t.heap.same w v = .ok true) ∧
      ∀ w, s.heap.IsData w → s.heap.display w = .ok text → s.heap.same v w = .ok true := by
  obtain ⟨d, shows, proper⟩ := data.shows
  obtain ⟨location, e, denotes, read⟩ := Program.ofSource_assignment proper file
  refine ⟨d.text, _, shows.display proper, read, ?_, ?_⟩
  · obtain ⟨n, w, t, bound, grows, shown, executes⟩ :=
      execute_assignment denotes proper location s.begun
    have same : t.heap.same w v = .ok true := by
      rw [shown.same (shows.extend grows), decide_eq_true rfl]
    refine ⟨n, fun budget enough => ⟨?_, t, w, ?_, grows, bound, same⟩⟩
    · have executed := executes budget.fuel budget.calls enough
      have read : Program.ofSource ⟨file, "x = " ++ d.text ++ ";"⟩ = _ := read
      rw [runSource, read]
      dsimp only
      rw [run_eq, programBody, inScope_apply, executed]
    · exact executes budget.fuel budget.calls enough
  · intro w other same
    obtain ⟨d', shows', proper'⟩ := other.shows
    rw [shows'.display proper'] at same
    have texts : d.text = d'.text := (Except.ok.inj same).symm
    rw [shows.same shows', decide_eq_true (Datum.text_injective proper proper' texts)]

/-- A session with an array that another array has for a key and for a value. -/
def shelf : Session :=
  { initial false with heap := ⟨#[[(.number 1, .number (-2))],
      [(.array ⟨0⟩, .boolean true), (.number 0, .array ⟨0⟩)]]⟩ }

theorem isData_shelf : shelf.heap.IsData (.array ⟨1⟩) := by
  have inner : shelf.heap.IsData (.array ⟨0⟩) := by
    refine .array (by decide) ?_ ?_ (.cons (by rintro _ ⟨⟩) .nil)
    · rintro pair (_ | ⟨_, ⟨⟩⟩)
      exact .number (by decide +kernel)
    · rintro pair (_ | ⟨_, ⟨⟩⟩)
      exact .number (by decide +kernel)
  refine .array (by decide) ?_ ?_ ?_
  · rintro pair (_ | ⟨_, _ | ⟨_, ⟨⟩⟩⟩)
    · exact inner
    · exact .number (by decide +kernel)
  · rintro pair (_ | ⟨_, _ | ⟨_, ⟨⟩⟩⟩)
    · exact .boolean
    · exact inner
  · refine .cons ?_ (.cons (by rintro _ ⟨⟩) .nil)
    rintro other (_ | ⟨_, ⟨⟩⟩)
    rfl

theorem runSource_display_shelf :
    shelf.heap.IsData (.array ⟨1⟩) ∧
      ∃ n, ∀ budget : Budget, n ≤ budget.fuel →
        (shelf.runSource budget ⟨"shelf", "x = [[1:-2]:true,0:[1:-2]];"⟩).1 = .finished := by
  obtain ⟨text, program, displays, -, ⟨n, runs⟩, -⟩ := runSource_display isData_shelf "shelf"
  have shown : shelf.heap.display (.array ⟨1⟩) = .ok "[[1:-2]:true,0:[1:-2]]" := by
    decide +kernel
  rw [shown] at displays
  cases displays
  exact ⟨isData_shelf, n, fun budget enough => (runs budget enough).1⟩

end Session

end Mini
