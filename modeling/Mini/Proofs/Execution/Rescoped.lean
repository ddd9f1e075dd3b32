import Mini.Proofs.Execution.Simulation

/-!
# An extra scope is not seen

A list of statements may stand in a block of its own, in a program, in a block or in the body of a
function, and nothing of it is seen in a quiet run. The names that it binds stand one scope further
in then, where they are found and bound again alike, and go when the list is left, in either case.

The block takes one step down, so it takes one more unit of fuel. Since blocks may be added at every
level, a run that may go as deep as the other has to have twice the fuel.
-/

namespace Mini

theorem Expr.Rescoped.isPrint_eq {e e' : Expr} (h : Expr.Rescoped e e') :
    e'.isPrint = e.isPrint := by
  cases h <;> rfl

theorem Expr.Rescoped.calleeName_eq {e e' : Expr} (h : Expr.Rescoped e e') :
    e'.calleeName = e.calleeName := by
  cases h <;> rfl

namespace Session

open Exec

/-! ## Parts -/

/-- Two functions that are the same but for scopes in their bodies. -/
def SameFunction (f f' : Function) : Prop :=
  Value.Rescoped (.function f) (.function f')

theorem SameFunction.params_eq {f f' : Function} (h : SameFunction f f') :
    f'.params = f.params := by
  cases h
  rfl

theorem SameFunction.body {f f' : Function} (h : SameFunction f f') :
    Block.Rescoped f.body f'.body := by
  cases h
  assumption

namespace Simulates

theorem arrayOf (use : ArrayUse) (location : Location) {v v' : Value}
    (value : Value.Rescoped v v') :
    Simulates Eq noEvents noEvents (Exec.arrayOf use location v)
      (Exec.arrayOf use location v') := by
  cases value with
  | array ref => exact Simulates.value rfl
  | nothing | number | text | boolean | function => exact fail _ _

theorem functionOf (location : Location) {v v' : Value} (value : Value.Rescoped v v') :
    Simulates SameFunction noEvents noEvents (Exec.functionOf location v)
      (Exec.functionOf location v') := by
  cases value with
  | function id params body => exact Simulates.value (.function id params body)
  | nothing | number | text | boolean | array => exact fail _ _

end Simulates

section Parts

variable {eval eval' : Expr → Exec Value} {found found' : Expr → Session → List Event}
  (each : ∀ {e e'}, Expr.Rescoped e e' →
    Simulates Value.Rescoped (found e) (found' e') (eval e) (eval' e'))
include each

theorem simulates_collect {es es' : List Expr} (rescoped : Expr.ListRescoped es es') :
    Simulates (List.Forall₂ Value.Rescoped) (listEach eval found es) (listEach eval' found' es')
      (collect eval es) (collect eval' es') := by
  induction es generalizing es' with
  | nil =>
      cases rescoped
      exact .value .nil
  | cons e es ih =>
      cases rescoped with
      | cons first rest =>
          refine (each first).andThen ?_
          intro v v' value
          refine (ih rest).andThenPlain ?_
          intro vs vs' values
          exact .value (.cons value values)

theorem simulates_pairs (frame frame' : Nat) (array array' : Option Ref) {items items' : List Element}
    (rescoped : Element.ListRescoped items items') (position : Nat) {sofar sofar' : Pairs}
    (pairs : PairsRescoped sofar sofar') :
    Simulates PairsRescoped (historyOfPairs eval found frame array position sofar items)
      (historyOfPairs eval' found' frame' array' position sofar' items')
      (Exec.pairs eval position sofar items) (Exec.pairs eval' position sofar' items') := by
  induction items generalizing items' position sofar sofar' with
  | nil =>
      cases rescoped
      exact .value pairs
  | cons item items ih =>
      have grows : ∀ {key key' v v'}, Value.Rescoped key key' → Value.Rescoped v v' →
          Simulates PairsRescoped (heardBuild frame array sofar key v)
            (heardBuild frame' array' sofar' key' v') (grown sofar key v)
            (grown sofar' key' v') := fun keys value =>
        (Simulates.grown pairs keys value).silent (textsOf_heard fun _ => rfl)
          (textsOf_heard fun _ => rfl)
      cases rescoped with
      | cons first rest =>
          cases first with
          | plain element =>
              refine (each element).andThen ?_
              intro v v' value
              rw [← bind_assoc, ← bind_assoc]
              exact (grows (.number position) value).andThen fun _ _ pairs => ih rest _ pairs
          | keyed _ key element =>
              refine (each key).andThen ?_
              intro k k' keys
              refine (each element).andThen ?_
              intro v v' value
              rw [← bind_assoc, ← bind_assoc]
              exact (grows keys value).andThen fun _ _ pairs => ih rest _ pairs

/-- Whatever array a literal becomes, nothing of that is printed. -/
theorem simulates_array (frame frame' : Nat) {items items' : List Element}
    (rescoped : Element.ListRescoped items items') :
    Simulates Value.Rescoped (historyOfArray eval found frame items)
      (historyOfArray eval' found' frame' items') (pairs eval 0 [] items >>= newArray)
      (pairs eval' 0 [] items' >>= newArray) := by
  intro layers s s' here
  have literal := fun array array' =>
    (simulates_pairs each frame frame' array array' rescoped 0 .nil).andThenPlain
      fun _ _ => Simulates.newArray
  exact literal _ _ here

theorem simulates_print (frame frame' : Nat) (location : Location) {args args' : List Expr}
    (rescoped : Expr.ListRescoped args args') :
    Simulates Value.Rescoped (historyOfPrint eval found frame location args)
      (historyOfPrint eval' found' frame' location args') (print eval location args)
      (print eval' location args') := by
  have lengths := rescoped.length_eq
  cases rescoped with
  | nil => exact .fail _ _
  | cons first rest =>
      cases rest with
      | nil => exact (each first).andThen fun v v' value => .printing frame frame' location value
      | cons second rest =>
          show Simulates _ noEvents noEvents (fail (.printArity _) _)
            (fail (.printArity (_ :: _ :: _).length) _)
          rw [lengths]
          exact .fail _ _

theorem simulates_assign (frame frame' : Nat) {target target' : Expr}
    (rescoped : Expr.Rescoped target target') {v v' : Value} (value : Value.Rescoped v v') :
    Simulates Eq (historyOfTarget eval found frame target v)
      (historyOfTarget eval' found' frame' target' v') (assign eval target v)
      (assign eval' target' v') := by
  have stores : ∀ ref {key key'}, Value.Rescoped key key' →
      Simulates Eq (heardAssign frame ref key v) (heardAssign frame' ref key' v')
        (store ref key v) (store ref key' v') := fun ref _ _ keys =>
    (Simulates.store ref keys value).silent (textsOf_heard fun _ => rfl)
      (textsOf_heard fun _ => rfl)
  cases rescoped with
  | ident id => exact .bind id.name value
  | index location base key =>
      refine (each base).andThen ?_
      intro a a' bases
      refine (Simulates.arrayOf .assign location bases).andThen ?_
      intro ref ref' same
      subst same
      exact (each key).andThen fun k k' keys => stores ref keys
  | select location selector base =>
      refine (each base).andThen ?_
      intro a a' bases
      refine (Simulates.arrayOf .assign location bases).andThen ?_
      intro ref ref' same
      subst same
      exact (Simulates.name selector).andThen fun k k' keys => stores ref keys
  | number | text | func | array | unary | binary | paren | call => exact .fail _ _

end Parts

theorem simulates_forEach {run run' : Stmt → Exec Unit} {found found' : Stmt → Session → List Event}
    (each : ∀ {st st'}, Stmt.Rescoped st st' →
      Simulates Eq (found st) (found' st') (run st) (run' st'))
    {sts sts' : List Stmt} (rescoped : Stmt.ListRescoped sts sts') :
    Simulates Eq (listEach run found sts) (listEach run' found' sts') (forEach run sts)
      (forEach run' sts') := by
  induction sts generalizing sts' with
  | nil =>
      cases rescoped
      exact .value rfl
  | cons st sts ih =>
      cases rescoped with
      | cons first rest => exact (each first).andThen fun _ _ _ => ih rest

/-! ## Programs -/

/-- What is the same but for scopes does the same, within the given fuel on each side. -/
structure Related (fuel fuel' : Nat) : Prop where
  expr (calls frame frame' : Nat) {e e' : Expr} : Expr.Rescoped e e' →
    Simulates Value.Rescoped (historyOfExpr fuel calls frame e)
      (historyOfExpr fuel' calls frame' e') (evaluate fuel calls e) (evaluate fuel' calls e')
  stmt (calls frame frame' : Nat) {st st' : Stmt} : Stmt.Rescoped st st' →
    Simulates Eq (historyOfStmt fuel calls frame st) (historyOfStmt fuel' calls frame' st')
      (execute fuel calls st) (execute fuel' calls st')
  loop (calls frame frame' : Nat) {test test' : Expr} {body body' : Block} :
    Expr.Rescoped test test' → Block.Rescoped body body' →
      Simulates Eq (historyOfLoop fuel calls frame test body)
        (historyOfLoop fuel' calls frame' test' body') (repeatWhile fuel calls test body)
        (repeatWhile fuel' calls test' body')

section Step

variable {fuel fuel' : Nat} (related : ∀ n ≤ fuel, ∀ n', 2 * n ≤ n' → Related n n')
  (enough : 2 * fuel < fuel') (calls frame frame' : Nat)
include related enough

/-- A block on one side takes one unit of fuel there. -/
theorem confined_body {sts sts' : List Stmt} (bodies : Stmt.BodyRescoped sts sts') :
    Confined (listEach (execute fuel calls) (historyOfStmt fuel calls frame) sts)
      (listEach (execute fuel' calls) (historyOfStmt fuel' calls frame') sts')
      (forEach (execute fuel calls) sts) (forEach (execute fuel' calls) sts') := by
  cases bodies with
  | same rescoped =>
      have parts := related fuel (Nat.le_refl _) fuel' (by omega)
      exact .of_simulates (simulates_forEach (parts.stmt calls frame frame') rescoped)
  | inner location rescoped =>
      obtain ⟨fuel', rfl⟩ : ∃ k, fuel' = k + 1 := ⟨fuel' - 1, by omega⟩
      have parts := related fuel (Nat.le_refl _) fuel' (by omega)
      exact .inner frame' location (simulates_forEach (parts.stmt calls frame frame') rescoped)
  | outer location rescoped =>
      cases fuel with
      | zero =>
          -- there is no fuel for the block, and the first side ends here
          rw [forEach_singleton, listEach_singleton, execute, historyOfStmt]
          exact .of_simulates .exhausted
      | succ fuel =>
          have parts := related fuel (Nat.le_succ _) fuel' (by omega)
          exact .outer frame location (simulates_forEach (parts.stmt calls frame frame') rescoped)

theorem simulates_block {body body' : Block} (bodies : Block.Rescoped body body') :
    Simulates Eq (historyOfBlock (execute fuel calls) (historyOfStmt fuel calls frame) body)
      (historyOfBlock (execute fuel' calls) (historyOfStmt fuel' calls frame') body')
      (inScope (forEach (execute fuel calls) body.statements))
      (inScope (forEach (execute fuel' calls) body'.statements)) :=
  (confined_body related enough calls frame frame' bodies.statements).inScope

theorem simulates_evaluate_succ {e e' : Expr} (rescoped : Expr.Rescoped e e') :
    Simulates Value.Rescoped (historyOfExpr (fuel + 1) calls frame e)
      (historyOfExpr (fuel' + 1) calls frame' e') (evaluate (fuel + 1) calls e)
      (evaluate (fuel' + 1) calls e') := by
  have parts := related fuel (Nat.le_refl _) fuel' (by omega)
  have part : ∀ {e e'}, Expr.Rescoped e e' → _ := parts.expr calls frame frame'
  rw [evaluate.eq_def, evaluate.eq_def, historyOfExpr.eq_def, historyOfExpr.eq_def]
  cases rescoped with
  | number location n => exact .value (.number n)
  | text location s => exact .value (.text s)
  | ident id => exact .name id
  | func location params body => exact .function location params body
  | array location elements =>
      exact simulates_array part frame frame' elements
  | unary location op operand =>
      refine (part operand).andThenPlain ?_
      intro a a' operand
      exact .orBlame _ (Operator.unary_rescoped op operand)
  | binary location op left right =>
      refine (part left).andThen ?_
      intro a a' left
      refine (part right).andThenPlain ?_
      intro b b' right
      exact .orBlame _ (Operator.binary_rescoped op left right)
  | index location base key =>
      refine (part base).andThen ?_
      intro a a' bases
      refine (Simulates.arrayOf .index location bases).andThen ?_
      intro ref ref' same
      subst same
      exact (part key).andThenPlain fun k k' keys => .fetch ref keys
  | select location selector base =>
      refine (part base).andThenPlain ?_
      intro a a' bases
      refine (Simulates.arrayOf .select location bases).andThenPlain ?_
      intro ref ref' same
      subst same
      exact (Simulates.name selector).andThenPlain fun k k' keys => .fetch ref keys
  | paren location inner => exact part inner
  | call location callee args =>
      dsimp only
      rw [callee.isPrint_eq, callee.calleeName_eq]
      split
      · exact simulates_print part frame frame' location args
      · refine (part callee).andThen ?_
        intro a a' functions
        refine (Simulates.functionOf location functions).andThen ?_
        intro f f' same
        rw [same.params_eq, args.length_eq]
        split
        · exact .fail _ _
        · refine (simulates_collect part args).andThen ?_
          intro vs vs' values
          rw [← bind_assoc, ← bind_assoc, ← bind_assoc, ← bind_assoc]
          cases calls with
          | zero => exact .refused frame frame'
          | succ calls =>
              -- the two functions have the same parameters, and bodies that may differ in a block
              exact .call frame frame' f.params values fun callee callee' =>
                confined_body related enough calls callee callee' same.body.statements

theorem simulates_execute_succ {st st' : Stmt} (rescoped : Stmt.Rescoped st st') :
    Simulates Eq (historyOfStmt (fuel + 1) calls frame st)
      (historyOfStmt (fuel' + 1) calls frame' st') (execute (fuel + 1) calls st)
      (execute (fuel' + 1) calls st') := by
  have parts := related fuel (Nat.le_refl _) fuel' (by omega)
  have part : ∀ {e e'}, Expr.Rescoped e e' → _ := parts.expr calls frame frame'
  have block : ∀ {body body'}, Block.Rescoped body body' → _ :=
    simulates_block related enough calls frame frame'
  have noted : Simulates Eq (ahead (writingBindings frame) (heardStatement frame st))
      (ahead (writingBindings frame') (heardStatement frame' st')) (noteStatement st)
      (noteStatement st') :=
    .ahead (writings_bindings frame) (writings_bindings frame') <|
      (Simulates.note ..).silent (textsOf_heard fun _ => rfl) (textsOf_heard fun _ => rfl)
  rw [execute.eq_def, execute.eq_def, historyOfStmt.eq_def, historyOfStmt.eq_def]
  refine noted.andThen ?_
  intro _ _ _
  cases rescoped with
  | block body => exact block body
  | assign location target value =>
      exact (part value).andThen fun v v' value =>
        simulates_assign part frame frame' target value
  | cond branch =>
      cases branch with
      | mk location test body otherwise =>
          refine (part test).andThen ?_
          intro v v' value
          rw [value.isTrue_eq]
          split
          · exact block body
          · cases otherwise with
            | nothing => exact .value rfl
            | block body => exact parts.stmt calls frame frame' (.block body)
            | branch next => exact parts.stmt calls frame frame' (.cond next)
  | empty => exact .value rfl
  | expr location value => exact (part value).andThenPlain fun _ _ _ => .value rfl
  | loop location test body => exact parts.loop calls frame frame' test body
  | ret => exact .setPending frame frame' .nothing
  | retValue location value =>
      exact (part value).andThen fun v v' value => .setPending frame frame' value

theorem simulates_repeatWhile_succ {test test' : Expr} {body body' : Block}
    (tests : Expr.Rescoped test test') (bodies : Block.Rescoped body body') :
    Simulates Eq (historyOfLoop (fuel + 1) calls frame test body)
      (historyOfLoop (fuel' + 1) calls frame' test' body') (repeatWhile (fuel + 1) calls test body)
      (repeatWhile (fuel' + 1) calls test' body') := by
  have parts := related fuel (Nat.le_refl _) fuel' (by omega)
  rw [repeatWhile, repeatWhile, historyOfLoop, historyOfLoop]
  refine (parts.expr calls frame frame' tests).andThen ?_
  intro v v' value
  rw [value.isTrue_eq]
  split
  · refine (simulates_block related enough calls frame frame' bodies).andThen ?_
    intro _ _ _
    exact parts.loop calls frame frame' tests bodies
  · exact .value rfl

end Step

/-- With twice the fuel, what is the same but for scopes does the same. -/
theorem related {fuel fuel' : Nat} (enough : 2 * fuel ≤ fuel') : Related fuel fuel' := by
  induction fuel using Nat.strong_induction_on generalizing fuel' with
  | _ fuel ih =>
      cases fuel with
      | zero =>
          constructor
          · intro calls frame frame' e e' _
            rw [evaluate, historyOfExpr]
            exact .exhausted
          · intro calls frame frame' st st' _
            rw [execute, historyOfStmt]
            exact .exhausted
          · intro calls frame frame' test test' body body' _ _
            rw [repeatWhile, historyOfLoop]
            exact .exhausted
      | succ fuel =>
          obtain ⟨fuel', rfl⟩ : ∃ k, fuel' = k + 1 := ⟨fuel' - 1, by omega⟩
          have below : ∀ n ≤ fuel, ∀ n', 2 * n ≤ n' → Related n n' := fun n le n' enough =>
            ih n (Nat.lt_succ_of_le le) enough
          have enough : 2 * fuel < fuel' := by omega
          exact ⟨simulates_evaluate_succ below enough, simulates_execute_succ below enough,
            simulates_repeatWhile_succ below enough⟩

/-! ## Runs -/

/-- The texts that a run prints, whether or not it comes to an end within its budget. -/
def textsOfRun (budget : Budget) (p : Program) (s : Session) : List String :=
  textsOf (historyOfBody budget p s.frames s.begun)

/-- Two runs that have ended with the same output, and with no fault or with faults that have the
same cause, and so the same rule and message. Only for a limit may different places be blamed. -/
inductive SameEnd : Outcome Unit → Outcome Unit → Prop
  | done {t t' : Session} : t'.output = t.output → SameEnd (.done () t) (.done () t')
  | failed {fault fault' : Fault} {t t' : Session} :
      t'.output = t.output → fault'.cause = fault.cause →
        (fault.cause.rule ≠ "internal" → fault'.location = fault.location) →
          SameEnd (.failed fault t) (.failed fault' t')

namespace SameEnd

variable {o o' o'' : Outcome Unit}

theorem symm (h : SameEnd o o') : SameEnd o' o := by
  cases h with
  | done output => exact .done output.symm
  | failed output cause location =>
      refine .failed output.symm cause.symm fun own => ?_
      rw [cause] at own
      exact (location own).symm

theorem trans (h : SameEnd o o') (later : SameEnd o' o'') : SameEnd o o'' := by
  cases h with
  | done output =>
      cases later with
      | done output' => exact .done (output'.trans output)
  | failed output cause location =>
      cases later with
      | failed output' cause' location' =>
          refine .failed (output'.trans output) (cause'.trans cause) fun own => ?_
          rw [← location own]
          rw [← cause] at own
          exact location' own

theorem ends (h : SameEnd o o') : o' ≠ .outOfFuel := by
  rintro rfl
  cases h

end SameEnd

/-- Only a limit is blamed on another place at the end of a run. -/
theorem blame_location {fault : Fault} (own : fault.cause.rule ≠ "internal") (t : Session) :
    (t.blame fault).location = fault.location := by
  unfold blame
  split
  · rename_i limit
    rw [limit] at own
    exact absurd rfl own
  · rfl

section Run

variable {s : Session} {p p' : Program}

theorem Idle.rescoped (idle : Idle s) (quiet : s.log.verbose = false) :
    Rescoped [] s.begun s.begun where
  quiet := quiet
  quiet' := quiet
  heap := .refl s.heap
  scopes := ⟨[], [], idle.scopes, idle.scopes, .nil⟩
  pending := .refl s.pending
  runs := rfl
  output := rfl

/-- The bodies of two runs, the second of which may go deeper. -/
theorem agree_programBody (reachable : Reachable s) (quiet : s.log.verbose = false)
    (rescoped : p.Rescoped p') (calls : Nat) {fuel fuel' : Nat} (enough : 2 * fuel < fuel') :
    Agree Eq (Rescoped []) s.output.toList (textsOfRun ⟨fuel, calls⟩ p s)
      (textsOfRun ⟨fuel', calls⟩ p' s) (programBody ⟨fuel, calls⟩ p s.begun)
      (programBody ⟨fuel', calls⟩ p' s.begun) := by
  have bodies := confined_body (fun _ _ _ => related) enough calls s.frames s.frames rescoped
  exact bodies.inScope (reachable.idle.rescoped quiet)

/-- What a quiet run prints is what it adds to the output. -/
theorem output_of_run (reachable : Reachable s) (quiet : s.log.verbose = false) (budget : Budget)
    (p : Program) :
    match s.run budget p with
    | .done _ t | .failed _ t => t.output.toList = s.output.toList ++ textsOfRun budget p s
    | .outOfFuel => True := by
  obtain ⟨fuel, calls⟩ := budget
  have same : p.Rescoped p := .same (Stmt.ListRescoped.refl p.statements)
  have agree := agree_programBody reachable quiet same calls (Nat.lt_succ_self (2 * fuel))
  rw [run_eq]
  generalize programBody ⟨fuel, calls⟩ p s.begun = o,
    programBody ⟨2 * fuel + 1, calls⟩ p s.begun = o' at agree ⊢
  cases agree with
  | @done _ _ t _ _ _ output _ =>
      show t.pop.output.toList = _
      rw [pop_output, output]
  | failed _ output _ => exact output
  | cut _ => trivial

/-- A run that comes to an end does so with other scopes as well, if there is fuel for them. -/
theorem run_rescoped (reachable : Reachable s) (quiet : s.log.verbose = false)
    (rescoped : p.Rescoped p') (calls : Nat) {fuel fuel' : Nat} (enough : 2 * fuel < fuel')
    (ends : s.run ⟨fuel, calls⟩ p ≠ .outOfFuel) :
    SameEnd (s.run ⟨fuel, calls⟩ p) (s.run ⟨fuel', calls⟩ p') := by
  have agree := agree_programBody reachable quiet rescoped calls enough
  rw [run_eq] at ends ⊢
  rw [run_eq]
  generalize programBody ⟨fuel, calls⟩ p s.begun = o,
    programBody ⟨fuel', calls⟩ p' s.begun = o' at agree ends ⊢
  cases agree with
  | done _ here output same =>
      refine .done ?_
      rw [pop_output, pop_output, here.output]
  | failed outputs output same =>
      refine .failed outputs ?_ fun own => ?_
      · rw [blame_cause, blame_cause]
      · rw [blame_cause] at own
        rw [blame_location own, blame_location own]
  | cut shorter => exact absurd rfl ends

theorem textsOfRun_prefix (reachable : Reachable s) (quiet : s.log.verbose = false)
    (rescoped : p.Rescoped p') (calls : Nat) {fuel fuel' : Nat} (enough : 2 * fuel < fuel') :
    textsOfRun ⟨fuel, calls⟩ p s <+: textsOfRun ⟨fuel', calls⟩ p' s := by
  have agree := agree_programBody reachable quiet rescoped calls enough
  generalize programBody ⟨fuel, calls⟩ p s.begun = o,
    programBody ⟨fuel', calls⟩ p' s.begun = o' at agree
  cases agree with
  | done _ _ _ same | failed _ _ same => exact same ▸ List.prefix_rfl
  | cut shorter => exact shorter

/-- **An extra scope is not seen.** Take a program and put any of its lists of statements into
blocks, its own, those of blocks and those of functions. The two quiet runs end alike as soon as
both come to an end, whatever their budgets are, and if one comes to an end then so does the other.
A run that does not come to an end prints the same texts, too. -/
theorem extra_scope_unobservable (reachable : Reachable s) (quiet : s.log.verbose = false)
    (rescoped : p.Rescoped p') (calls : Nat) :
    (∀ fuel fuel', s.run ⟨fuel, calls⟩ p ≠ .outOfFuel → s.run ⟨fuel', calls⟩ p' ≠ .outOfFuel →
      SameEnd (s.run ⟨fuel, calls⟩ p) (s.run ⟨fuel', calls⟩ p')) ∧
    ((∃ fuel, s.run ⟨fuel, calls⟩ p ≠ .outOfFuel) ↔
      ∃ fuel, s.run ⟨fuel, calls⟩ p' ≠ .outOfFuel) ∧
    ∀ fuel, ∃ fuel',
      textsOfRun ⟨fuel, calls⟩ p s <+: textsOfRun ⟨fuel', calls⟩ p' s ∧
      textsOfRun ⟨fuel, calls⟩ p' s <+: textsOfRun ⟨fuel', calls⟩ p s := by
  have back : p'.Rescoped p := rescoped.symm
  refine ⟨fun fuel fuel' ends ends' => ?_, ⟨?_, ?_⟩, fun fuel => ?_⟩
  · -- both are compared with a run of the second program that has fuel enough for either
    have same : p'.Rescoped p' := .same (Stmt.ListRescoped.refl p'.statements)
    have enough : 2 * fuel < 2 * (fuel + fuel') + 1 := by omega
    have enough' : 2 * fuel' < 2 * (fuel + fuel') + 1 := by omega
    have first := run_rescoped reachable quiet rescoped calls enough ends
    have second := run_rescoped reachable quiet same calls enough' ends'
    exact first.trans second.symm
  · rintro ⟨fuel, ends⟩
    exact ⟨2 * fuel + 1, (run_rescoped reachable quiet rescoped calls (by omega) ends).ends⟩
  · rintro ⟨fuel, ends⟩
    exact ⟨2 * fuel + 1, (run_rescoped reachable quiet back calls (by omega) ends).ends⟩
  · refine ⟨2 * fuel + 1, ?_, ?_⟩
    · exact textsOfRun_prefix reachable quiet rescoped calls (by omega)
    · exact textsOfRun_prefix reachable quiet back calls (by omega)

end Run

/-- A function that calls itself while a name is bound in its block, and then that name where the
block is left. -/
def countdown : Source :=
  ⟨"countdown", "f = func(n) \x7b if (n > 0) \x7b m = n; f(n - 1); print(m); \x7d; \x7d; f(2); m;"⟩

/-- Each list of statements in a block. -/
def everywhere : Boxing where
  place _ := some ⟨"countdown", 1, 1, ""⟩

theorem extra_scope_unobservable_countdown :
    ∃ p, Program.ofSource countdown = .ok p ∧ Reachable (initial false) ∧
      (initial false).log.verbose = false ∧ p.Rescoped (everywhere.program p) ∧
      failedWith? ((initial false).run ⟨30, 9⟩ p) = some (.undefined "m", #["1", "1"]) ∧
      SameEnd ((initial false).run ⟨30, 9⟩ p)
        ((initial false).run ⟨30, 9⟩ (everywhere.program p)) := by
  let ended (p : Program) := failedWith? ((initial false).run ⟨30, 9⟩ p)
  have runs : ((Program.ofSource countdown).toOption.map fun p =>
      (ended p, ended (everywhere.program p))) =
        some (some (.undefined "m", #["1", "1"]), some (.undefined "m", #["1", "1"])) := by
    decide +kernel
  cases read : Program.ofSource countdown with
  | error fault =>
      rw [read] at runs
      cases runs
  | ok p =>
      rw [read] at runs
      obtain ⟨first, second⟩ := Prod.mk.inj (Option.some.inj runs)
      have reachable : Reachable (initial false) := .initial false
      have rescoped : p.Rescoped (everywhere.program p) := everywhere.rescoped_program p
      have same := (extra_scope_unobservable reachable rfl rescoped 9).1 30 30
        (ends_of_failedWith? first) (ends_of_failedWith? second)
      exact ⟨p, rfl, reachable, rfl, rescoped, first, same⟩

end Session

end Mini
