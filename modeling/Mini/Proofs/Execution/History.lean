import Mini.Proofs.Execution.Steps

/-!
# Histories

A history lists what is done in the course of an execution, in order: the statements that are
begun, the calls and their ends, the values that are returned, the texts that are printed, the keys
that are put into arrays, and the values that a verbose log writes out before it has a step. Each
event comes with the activation that does it, the number of its frame, and with the session right
before. Whose turn it is is told by the evaluator's own recursion and not read off the stack: a run
has the frame with which it begins, and so has the body of a call.

Nothing is listed that fails before it has done anything. Only values that are to be written out
are listed before that is tried; whether they are written out is a question of the log alone, so a
quiet execution comes across the same values and leaves them out. What a run that does not end has
done within its budget is listed too.

Whatever is asked of the course of an execution is read off its history. No other recursion follows
the evaluator to list things.
-/

namespace Mini

/-- What an activation does. -/
inductive Deed
  /-- It begins a statement. -/
  | statement (st : Stmt)
  /-- It calls a function with arguments. -/
  | call (name : String) (location : Location) (args : List Value)
  /-- It calls a function where no more calls may nest. -/
  | refused (name : String) (location : Location) (args : List Value)
  /-- It goes on behind its newest call, which has come to its end. -/
  | resume
  /-- It returns a value, which is pending then. -/
  | returns (v : Value)
  /-- It prints a text. -/
  | print (location : Location) (text : String)
  /-- It assigns a value under a key of an array. -/
  | assign (ref : Ref) (key : Value)
  /-- It puts a value under a key into an array literal, behind the given keys. The literal becomes
  the given array, if it becomes one. -/
  | build (array : Option Ref) (keys : List Value) (key : Value)
  /-- It comes to values that a verbose log writes out. -/
  | writes (values : List Value)

/-- Something that is done: by which activation, and in which session. -/
structure Event where
  frame : Nat
  deed : Deed
  session : Session

namespace Session

open Exec

variable {α β : Type}

/-! ## Lists in the course of an execution -/

/-- No events. -/
def noEvents : Session → List Event :=
  fun _ => []

/-- What is done behind an execution that is done; nothing behind any other. -/
def listBehind (o : Outcome α) (found : α → Session → List Event) : List Event :=
  match o with
  | .done a s => found a s
  | .failed _ _ | .outOfFuel => []

theorem listBehind_done {o : Outcome α} {a : α} {s : Session} (found : α → Session → List Event)
    (h : o = .done a s) : listBehind o found = found a s := by
  subst h
  rfl

theorem listBehind_nil (o : Outcome α) : listBehind o (fun _ => noEvents) = [] := by
  cases o <;> rfl

/-- What is done in an execution, and in what comes after it. -/
def inTurn (first : Session → List Event) (x : Exec α) (later : α → Session → List Event)
    (s : Session) : List Event :=
  first s ++ listBehind (x s) later

theorem inTurn_done {x : Exec α} {s t : Session} {a : α} (h : x s = .done a t)
    (first : Session → List Event) (later : α → Session → List Event) :
    inTurn first x later s = first s ++ later a t := by
  rw [inTurn, h]
  rfl

theorem inTurn_failed {x : Exec α} {s t : Session} {fault : Fault} (h : x s = .failed fault t)
    (first : Session → List Event) (later : α → Session → List Event) :
    inTurn first x later s = first s := by
  rw [inTurn, h]
  exact List.append_nil _

theorem inTurn_outOfFuel {x : Exec α} {s : Session} (h : x s = .outOfFuel)
    (first : Session → List Event) (later : α → Session → List Event) :
    inTurn first x later s = first s := by
  rw [inTurn, h]
  exact List.append_nil _

theorem inTurn_noEvents (found : Session → List Event) (x : Exec α) :
    inTurn found x (fun _ => noEvents) = found := by
  funext s
  rw [inTurn, listBehind_nil, List.append_nil]

/-- What is done in the course of doing something for each item, in order. -/
def listEach (run : α → Exec β) (found : α → Session → List Event) : List α → Session → List Event
  | [] => noEvents
  | a :: rest => inTurn (found a) (run a) fun _ => listEach run found rest

/-- Events of the same session, one list in front of the other. -/
def ahead (earlier found : Session → List Event) (s : Session) : List Event :=
  earlier s ++ found s

theorem ahead_inTurn (earlier first : Session → List Event) (x : Exec α)
    (later : α → Session → List Event) :
    ahead earlier (inTurn first x later) = inTurn (ahead earlier first) x later := by
  funext s
  exact (List.append_assoc _ _ _).symm

/-! ## Events of single steps -/

/-- A single event, if the step succeeds that it consists of. -/
def heard (frame : Nat) (deed : Session → Deed) (x : Exec α) (s : Session) : List Event :=
  listBehind (x s) fun _ _ => [⟨frame, deed s, s⟩]

theorem heard_done {frame : Nat} {deed : Session → Deed} {x : Exec α} {s t : Session} {a : α}
    (h : x s = .done a t) : heard frame deed x s = [⟨frame, deed s, s⟩] := by
  rw [heard, h]
  rfl

theorem heard_failed {frame : Nat} {deed : Session → Deed} {x : Exec α} {s t : Session}
    {fault : Fault} (h : x s = .failed fault t) : heard frame deed x s = [] := by
  rw [heard, h]
  rfl

theorem eq_of_mem_heard {frame : Nat} {deed : Session → Deed} {x : Exec α} {s : Session} {e : Event}
    (mem : e ∈ heard frame deed x s) : e = ⟨frame, deed s, s⟩ := by
  unfold heard at mem
  cases here : x s with
  | done a t =>
      rw [here] at mem
      exact List.mem_singleton.mp mem
  | failed | outOfFuel =>
      rw [here] at mem
      cases mem

/-- Beginning a statement. -/
def noteStatement (st : Stmt) : Exec Unit :=
  note st.kindName st.location []

/-- The pairs of an array literal with one more element. -/
def grown (sofar : Pairs) (key v : Value) : Exec Pairs :=
  get (·.heap.store sofar key v) >>= orLimit

/-- Printing a value. -/
def printing (location : Location) (v : Value) : Exec Value := do
  let text ← orLimit (← get (·.heap.display v))
  note "PRINT" location [("output", .text text)]
  modify fun s => { s with output := s.output.push text }
  return .nothing

def heardStatement (frame : Nat) (st : Stmt) : Session → List Event :=
  heard frame (fun _ => .statement st) (noteStatement st)

def heardCall (frame : Nat) (name : String) (location : Location) (args : List Value) :
    Session → List Event :=
  heard frame (fun _ => .call name location args) (noteCall name location args)

def heardRefused (frame : Nat) (name : String) (location : Location) (args : List Value) :
    Session → List Event :=
  heard frame (fun _ => .refused name location args) (noteCall name location args)

def heardResume (frame : Nat) (v : Value) : Session → List Event :=
  heard frame (fun _ => .resume) (value v)

theorem heardResume_apply (frame : Nat) (v : Value) (s : Session) :
    heardResume frame v s = [⟨frame, .resume, s⟩] :=
  rfl

def heardReturn (frame : Nat) (v : Value) : Session → List Event :=
  heard frame (fun _ => .returns v) (setPending v)

def heardAssign (frame : Nat) (ref : Ref) (key v : Value) : Session → List Event :=
  heard frame (fun _ => .assign ref key) (store ref key v)

def heardBuild (frame : Nat) (array : Option Ref) (sofar : Pairs) (key v : Value) :
    Session → List Event :=
  heard frame (fun _ => .build array (sofar.map Prod.fst) key) (grown sofar key v)

/-- A value that is printed is heard of as its display. -/
def heardPrint (frame : Nat) (location : Location) (v : Value) (s : Session) : List Event :=
  listBehind ((get (·.heap.display v) >>= orLimit) s) fun text =>
    heard frame (fun _ => .print location text) (note "PRINT" location [("output", .text text)])

theorem eq_of_mem_heardPrint {frame : Nat} {location : Location} {v : Value} {s : Session}
    {e : Event} (mem : e ∈ heardPrint frame location v s) :
    ∃ text, e = ⟨frame, .print location text, s⟩ := by
  rw [heardPrint, lookUp_apply] at mem
  split at mem
  · rename_i text _
    have heard : e ∈ heard frame (fun _ => .print location text) _ s := mem
    exact ⟨text, eq_of_mem_heard heard⟩
  · cases mem

/-! ### Values that are to be written out -/

/-- The values bound in the current scope. -/
def visible (s : Session) : List Value :=
  match s.scopes.current with
  | none => []
  | some handle => (s.scopes.bindings handle).map Prod.snd

/-- The bindings of the current scope, for the snapshot of a step. -/
def writingBindings (frame : Nat) (s : Session) : List Event :=
  [⟨frame, .writes s.visible, s⟩]

/-- For the step of a call the arguments, and then the bindings. -/
def writingCall (frame : Nat) (name : String) (args : List Value) (s : Session) : List Event :=
  ⟨frame, .writes args, s⟩ ::
    listBehind ((get (callFields name args) >>= orLimit) s) fun _ => writingBindings frame

/-- For the step of a print the bindings, once the text is there. -/
def writingPrint (frame : Nat) (v : Value) (s : Session) : List Event :=
  listBehind ((get (·.heap.display v) >>= orLimit) s) fun _ => writingBindings frame

/-- Nothing but values that are to be written out, in the session at hand. -/
def Writings (frame : Nat) (found : Session → List Event) : Prop :=
  ∀ s, ∀ e ∈ found s, ∃ values, e = ⟨frame, .writes values, s⟩

theorem writings_bindings (frame : Nat) : Writings frame (writingBindings frame) := by
  intro s e mem
  exact ⟨_, List.mem_singleton.mp mem⟩

theorem writings_lookUp (frame : Nat) (look : Session → Except Limit α) :
    Writings frame fun s =>
      listBehind ((get look >>= orLimit) s) fun _ => writingBindings frame := by
  intro s e mem
  dsimp only at mem
  rw [lookUp_apply] at mem
  split at mem
  · exact writings_bindings frame s e mem
  · cases mem

theorem writings_call (frame : Nat) (name : String) (args : List Value) :
    Writings frame (writingCall frame name args) := by
  intro s e mem
  rcases List.mem_cons.mp mem with rfl | mem
  · exact ⟨args, rfl⟩
  · exact writings_lookUp frame (callFields name args) s e mem

theorem writings_print (frame : Nat) (v : Value) : Writings frame (writingPrint frame v) :=
  writings_lookUp frame fun s => s.heap.display v

/-! ## Histories of executions -/

/-- The history of the elements of an array literal. -/
def historyOfPairs (eval : Expr → Exec Value) (found : Expr → Session → List Event) (frame : Nat)
    (array : Option Ref) (position : Nat) (sofar : Pairs) : List Element → Session → List Event
  | [] => noEvents
  | .plain element :: rest =>
      inTurn (found element) (eval element) fun v =>
        inTurn (heardBuild frame array sofar (.number position) v)
          (grown sofar (.number position) v) fun sofar =>
            historyOfPairs eval found frame array (position + 1) sofar rest
  | .keyed _ key element :: rest =>
      inTurn (found key) (eval key) fun k =>
        inTurn (found element) (eval element) fun v =>
          inTurn (heardBuild frame array sofar k v) (grown sofar k v) fun sofar =>
            historyOfPairs eval found frame array (position + 1) sofar rest

/-- The array that a literal becomes, if it becomes one. -/
def becoming : Outcome Value → Option Ref
  | .done (.array ref) _ => some ref
  | .done _ _ | .failed _ _ | .outOfFuel => none

/-- The history of an array literal. All its elements are told of with the array that it becomes. -/
def historyOfArray (eval : Expr → Exec Value) (found : Expr → Session → List Event) (frame : Nat)
    (elements : List Element) (s : Session) : List Event :=
  historyOfPairs eval found frame (becoming ((pairs eval 0 [] elements >>= newArray) s)) 0 []
    elements s

/-- The history of assigning a value to a target. -/
def historyOfTarget (eval : Expr → Exec Value) (found : Expr → Session → List Event) (frame : Nat)
    (target : Expr) (v : Value) : Session → List Event :=
  match target with
  | .index location base key =>
      inTurn (found base) (eval base) fun a =>
        inTurn noEvents (arrayOf .assign location a) fun ref =>
          inTurn (found key) (eval key) fun k => heardAssign frame ref k v
  | .select location base selector =>
      inTurn (found base) (eval base) fun a =>
        inTurn noEvents (arrayOf .assign location a) fun ref =>
          inTurn noEvents (name selector) fun k => heardAssign frame ref k v
  | _ => noEvents

/-- The history of printing the only argument. -/
def historyOfPrint (eval : Expr → Exec Value) (found : Expr → Session → List Event) (frame : Nat)
    (location : Location) (args : List Expr) : Session → List Event :=
  match args with
  | [arg] =>
      inTurn (found arg) (eval arg) fun v =>
        ahead (writingPrint frame v) (heardPrint frame location v)
  | _ => noEvents

/-- The history of a block, which is that of its statements. -/
def historyOfBlock (run : Stmt → Exec Unit) (found : Stmt → Session → List Event)
    (body : Block) (s : Session) : List Event :=
  listEach run found body.statements { s with scopes := s.scopes.enter }

/-- The history of the body of a call. Its parameters are bound first, and it has the frame that is
made for it. -/
def historyInCall (name : String) (location : Location) (params : List Identifier)
    (args : List Value) (inside : Nat → Session → List Event) (s : Session) : List Event :=
  inTurn noEvents (declare params args) (fun _ => inside s.frames) (activated name location s)

/-- The history of a call whose function and arguments have been evaluated. -/
def historyOfCall (frame : Nat) (name : String) (location : Location) (params : List Identifier)
    (args : List Value) (body : Exec Unit) (inside : Nat → Session → List Event) :
    Session → List Event :=
  inTurn (heardCall frame name location args) (noteCall name location args) fun _ =>
    inTurn (historyInCall name location params args inside)
      (activate name location (declare params args >>= fun _ => body)) (heardResume frame)

mutual

/-- The history of an expression. -/
def historyOfExpr (fuel calls frame : Nat) (e : Expr) : Session → List Event :=
  match fuel with
  | 0 => noEvents
  | fuel + 1 =>
      match e with
      | .number .. | .text .. | .ident _ | .func .. => noEvents
      | .array _ elements =>
          historyOfArray (evaluate fuel calls) (historyOfExpr fuel calls frame) frame elements
      | .unary _ _ operand => historyOfExpr fuel calls frame operand
      | .binary _ _ left right =>
          inTurn (historyOfExpr fuel calls frame left) (evaluate fuel calls left) fun _ =>
            historyOfExpr fuel calls frame right
      | .index location base key =>
          inTurn (historyOfExpr fuel calls frame base) (evaluate fuel calls base) fun a =>
            inTurn noEvents (arrayOf .index location a) fun _ => historyOfExpr fuel calls frame key
      | .select _ base _ => historyOfExpr fuel calls frame base
      | .paren _ inner => historyOfExpr fuel calls frame inner
      | .call location callee args =>
          if callee.isPrint then
            historyOfPrint (evaluate fuel calls) (historyOfExpr fuel calls frame) frame location
              args
          else
            inTurn (historyOfExpr fuel calls frame callee) (evaluate fuel calls callee) fun a =>
              inTurn noEvents (functionOf location a) fun f =>
                if f.params.length ≠ args.length then noEvents
                else
                  inTurn (listEach (evaluate fuel calls) (historyOfExpr fuel calls frame) args)
                    (collect (evaluate fuel calls) args) fun values =>
                    ahead (writingCall frame callee.calleeName values) <|
                      match calls with
                      | 0 => heardRefused frame callee.calleeName location values
                      | calls + 1 =>
                          historyOfCall frame callee.calleeName location f.params values
                            (forEach (execute fuel calls) f.body.statements) fun callee =>
                              listEach (execute fuel calls) (historyOfStmt fuel calls callee)
                                f.body.statements
termination_by structural fuel

/-- The history of a statement. -/
def historyOfStmt (fuel calls frame : Nat) (statement : Stmt) : Session → List Event :=
  match fuel with
  | 0 => noEvents
  | fuel + 1 =>
      inTurn (ahead (writingBindings frame) (heardStatement frame statement))
        (noteStatement statement) fun _ =>
          match statement with
          | .assign _ target e =>
              inTurn (historyOfExpr fuel calls frame e) (evaluate fuel calls e)
                (historyOfTarget (evaluate fuel calls) (historyOfExpr fuel calls frame) frame
                  target)
          | .expr _ e => historyOfExpr fuel calls frame e
          | .block body => historyOfBlock (execute fuel calls) (historyOfStmt fuel calls frame) body
          | .cond (.mk _ test body otherwise) =>
              inTurn (historyOfExpr fuel calls frame test) (evaluate fuel calls test) fun v =>
                if v.isTrue then
                  historyOfBlock (execute fuel calls) (historyOfStmt fuel calls frame) body
                else
                  match otherwise with
                  | .nothing => noEvents
                  | .block body => historyOfStmt fuel calls frame (.block body)
                  | .branch next => historyOfStmt fuel calls frame (.cond next)
          | .loop _ test body => historyOfLoop fuel calls frame test body
          | .ret _ none => heardReturn frame .nothing
          | .ret _ (some e) =>
              inTurn (historyOfExpr fuel calls frame e) (evaluate fuel calls e) (heardReturn frame)
          | .empty _ => noEvents
termination_by structural fuel

/-- The history of a loop. -/
def historyOfLoop (fuel calls frame : Nat) (test : Expr) (body : Block) : Session → List Event :=
  match fuel with
  | 0 => noEvents
  | fuel + 1 =>
      inTurn (historyOfExpr fuel calls frame test) (evaluate fuel calls test) fun v =>
        if v.isTrue then
          inTurn (historyOfBlock (execute fuel calls) (historyOfStmt fuel calls frame) body)
            (inScope (forEach (execute fuel calls) body.statements)) fun _ =>
              historyOfLoop fuel calls frame test body
        else noEvents
termination_by structural fuel

end

/-- The history of statements that are executed one after the other. -/
def historyOfList (fuel calls frame : Nat) (statements : List Stmt) : Session → List Event :=
  listEach (execute fuel calls) (historyOfStmt fuel calls frame) statements

/-- The history of a run's statements. -/
def historyOfBody (budget : Budget) (program : Program) (frame : Nat) : Session → List Event :=
  historyOfBlock (execute budget.fuel budget.calls) (historyOfStmt budget.fuel budget.calls frame)
    (.mk default program.statements)

/-- The history of running a source in a session. A source that is no program has none. -/
def historyOfSource (budget : Budget) (source : Source) (s : Session) : List Event :=
  match Program.ofSource source with
  | .ok program => historyOfBody budget program s.frames s.begun
  | .error _ => []

/-- How running a source in a session ends, and its history. -/
inductive Ran (budget : Budget) (s : Session) : List Event → Ending → Session → Prop
  | rejected (fault : SourceFault) : Ran budget s [] (.rejected fault) s
  | finished {program : Program} {t : Session} : programBody budget program s.begun = .done () t →
      Ran budget s (historyOfBody budget program s.frames s.begun) .finished t.pop
  | failed {program : Program} {fault : Fault} {t : Session} :
      programBody budget program s.begun = .failed fault t →
      Ran budget s (historyOfBody budget program s.frames s.begun) (.failed (t.blame fault)) t
  | unfinished {program : Program} : programBody budget program s.begun = .outOfFuel →
      Ran budget s (historyOfBody budget program s.frames s.begun) .unfinished s

theorem ran_of_runSource {budget : Budget} {source : Source} {s t : Session} {ending : Ending}
    (ran : s.runSource budget source = (ending, t)) :
    Ran budget s (historyOfSource budget source s) ending t := by
  unfold historyOfSource
  cases read : Program.ofSource source with
  | error fault =>
      rw [runSource, read] at ran
      cases ran
      exact .rejected fault
  | ok program =>
      rw [runSource_eq read] at ran
      cases here : programBody budget program s.begun with
      | done _ t =>
          rw [here] at ran
          cases ran
          exact .finished here
      | failed fault t =>
          rw [here] at ran
          cases ran
          exact .failed here
      | outOfFuel =>
          rw [here] at ran
          cases ran
          exact .unfinished here

/-! ## Sequences of runs -/

/-- The run has come to an end. -/
def Ending.Ends : Ending → Prop
  | .unfinished => False
  | .finished | .rejected _ | .failed _ => True

/-- The sessions that sequences of runs lead to, with the endings of the runs and all that has been
done in them. -/
inductive Recorded (verbose : Bool) : List Ending → List Event → Session → Prop
  | initial : Recorded verbose [] [] (.initial verbose)
  | run {endings : List Ending} {history : List Event} {s t : Session} {budget : Budget}
      {source : Source} {ending : Ending} :
      Recorded verbose endings history s → s.runSource budget source = (ending, t) →
        ending.Ends →
        Recorded verbose (endings ++ [ending]) (history ++ historyOfSource budget source s) t

end Session

end Mini
