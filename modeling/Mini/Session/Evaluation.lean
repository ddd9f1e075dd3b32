import Mini.Operator
import Mini.Program
import Mini.Session.Exec

/-!
# Evaluating programs

What statements and expressions do to a session.

* A `return` only sets the pending value; the body goes on behind it. A call gives
  the value that is pending at its end, and leaves nothing pending.
* Scopes are closed on every way out of a block or a call. Frames of calls are taken
  off the stack only when the call succeeds, so that a fault can be traced.
* Arguments and array elements are evaluated in order; of an assignment the value
  comes first, then the parts of its target.

Two budgets bound the recursion. `fuel` bounds how deep functions below call each
other and how often a loop goes round; it has no meaning for a program, and running
out of it is no fault. `calls` is the number of calls that may still nest; a program
that nests deeper fails.
-/

namespace Mini

open Text

namespace Exec

/-! ## Steps that need no recursion -/

/-- Adds a step to the log. -/
def note (rule : String) (location : Location) (fields : Details) : Exec Unit := do
  let entry ← orLimit (← get (·.step rule (some location) fields))
  modify (·.record entry)

/-- The value of a name. Two names are the booleans. -/
def name (id : Identifier) : Exec Value := do
  if id.name = "true" then return .boolean true
  else if id.name = "false" then return .boolean false
  else orBlame (some id.location) (← get (·.scopes.get id.name))

/-- The function that a literal stands for in this run. -/
def function (location : Location) (params : List Identifier) (body : Block) : Exec Value := do
  return .function ⟨⟨← get Session.runs, location.line, location.column⟩, params, body⟩

/-- A new array. -/
def newArray (pairs : Pairs) : Exec Value := fun s =>
  .done (.array s.heap.fresh) { s with heap := s.heap.add pairs }

/-- The array that a value refers to. -/
def arrayOf (use : ArrayUse) (location : Location) : Value → Exec Ref
  | .array ref => value ref
  | v => fail (.notArray use v.kind) (some location)

/-- The function that a value is. -/
def functionOf (location : Location) : Value → Exec Function
  | .function f => value f
  | v => fail (.notCallable v.kind) (some location)

/-- The value in an array under a key. -/
def fetch (ref : Ref) (key : Value) : Exec Value := do
  orLimit (← get fun s => s.heap.lookup (s.heap.read ref) key)

/-- Stores a value in an array under a key. -/
def store (ref : Ref) (key v : Value) : Exec Unit := do
  let pairs ← orLimit (← get fun s => s.heap.store (s.heap.read ref) key v)
  modify fun s => { s with heap := s.heap.write ref pairs }

/-- Gives a name a value. -/
def bind (name : String) (v : Value) : Exec Unit := do
  let scopes ← orBlame none (← get (·.scopes.bind name v))
  modify fun s => { s with scopes := scopes }

/-- Binds parameters to arguments in the current scope. -/
def declare : List Identifier → List Value → Exec Unit
  | param :: params, arg :: args => do
      let scopes ← orBlame none (← get (·.scopes.declare param.name arg))
      modify fun s => { s with scopes := scopes }
      declare params args
  | _, _ => value ()

/-- Sets the value that is pending. -/
def setPending (v : Value) : Exec Unit :=
  modify fun s => { s with pending := v }

/-! ## Steps with parts to evaluate -/

section Parts

variable (eval : Expr → Exec Value)

/-- The pairs of an array literal from its element number `position` on. An element
without a key has its number as its key. -/
@[specialize]
def pairs (position : Nat) (sofar : Pairs) : List Element → Exec Pairs
  | [] => value sofar
  | .plain element :: rest => do
      let v ← eval element
      let sofar ← orLimit (← get (·.heap.store sofar (.number position) v))
      pairs (position + 1) sofar rest
  | .keyed _ key element :: rest => do
      let k ← eval key
      let v ← eval element
      let sofar ← orLimit (← get (·.heap.store sofar k v))
      pairs (position + 1) sofar rest

/-- Assigns a value to a target. -/
@[inline]
def assign (target : Expr) (v : Value) : Exec Unit := do
  match target with
  | .ident id => bind id.name v
  | .index location base key =>
      let ref ← arrayOf .assign location (← eval base)
      store ref (← eval key) v
  | .select location base selector =>
      let ref ← arrayOf .assign location (← eval base)
      store ref (← name selector) v
  | other => fail (.notAssignable other.kindName) (some other.location)

/-- Prints the display of the only argument. -/
@[inline]
def print (location : Location) (args : List Expr) : Exec Value := do
  match args with
  | [arg] =>
      let v ← eval arg
      let text ← orLimit (← get (·.heap.display v))
      note "PRINT" location [("output", .text text)]
      modify fun s => { s with output := s.output.push text }
      return .nothing
  | _ => fail (.printArity args.length) (some location)

end Parts

/-! ## Calls -/

/-- The fields that describe a call: the function's name, and in a verbose log the
displays of the arguments. -/
def callFields (name : String) (args : List Value) (s : Session) : Except Limit Details := do
  let described := [("function", Json.text name)]
  if s.log.verbose then
    let texts ← args.mapM s.heap.display
    return described ++ [("args", .list (texts.map .text))]
  else return described

/-- The body of a call in a frame and a scope of its own. The frame stays on the
stack if the body fails. -/
@[inline]
def activate (name : String) (location : Location) (body : Exec Unit) : Exec Value := do
  modify (·.push name (some location))
  let result ← endingWith (inScope do body; get Session.pending) ({ · with pending := .nothing })
  modify Session.pop
  return result

end Exec

/-! ## Expressions and statements -/

/-- The name under which a call is logged and traced. -/
def Expr.calleeName : Expr → String
  | .ident id => id.name
  | _ => "<func>"

/-- Whether an expression is the name of the printing function. -/
def Expr.isPrint : Expr → Bool
  | .ident id => id.name = "print"
  | _ => false

namespace Session

open Exec

mutual

/-- The value of an expression. -/
def evaluate (fuel calls : Nat) (e : Expr) : Exec Value :=
  match fuel with
  | 0 => exhausted
  | fuel + 1 =>
      match e with
      | .number _ n => value (.number n)
      | .text _ s => value (.text s)
      | .ident id => name id
      | .func location params body => function location params body
      | .array _ elements => do newArray (← pairs (evaluate fuel calls) 0 [] elements)
      | .unary location op operand => do
          orBlame (some location) (Operator.unary op (← evaluate fuel calls operand))
      | .binary location op left right => do
          let a ← evaluate fuel calls left
          let b ← evaluate fuel calls right
          orBlame (some location) (Operator.binary op a b)
      | .index location base key => do
          let ref ← arrayOf .index location (← evaluate fuel calls base)
          fetch ref (← evaluate fuel calls key)
      | .select location base selector => do
          let ref ← arrayOf .select location (← evaluate fuel calls base)
          fetch ref (← name selector)
      | .paren _ inner => evaluate fuel calls inner
      | .call location callee args =>
          if callee.isPrint then print (evaluate fuel calls) location args
          else do
            let f ← functionOf location (← evaluate fuel calls callee)
            if f.params.length ≠ args.length then
              fail (.arity f.params.length args.length) (some location)
            else
              let values ← collect (evaluate fuel calls) args
              let fields ← orLimit (← get (callFields callee.calleeName values))
              note "CALL" location fields
              match calls with
              | 0 => fail (.limit .calls) none
              | calls + 1 =>
                  activate callee.calleeName location do
                    declare f.params values
                    forEach (execute fuel calls) f.body.statements

/-- The effect of a statement. -/
def execute (fuel calls : Nat) (statement : Stmt) : Exec Unit :=
  match fuel with
  | 0 => exhausted
  | fuel + 1 => do
      note statement.kindName statement.location []
      match statement with
      | .assign _ target e => assign (evaluate fuel calls) target (← evaluate fuel calls e)
      | .expr _ e => discard (evaluate fuel calls e)
      | .block body => inScope (forEach (execute fuel calls) body.statements)
      | .cond (.mk _ test body otherwise) =>
          if (← evaluate fuel calls test).isTrue then
            inScope (forEach (execute fuel calls) body.statements)
          else
            match otherwise with
            | .nothing => value ()
            | .block body => execute fuel calls (.block body)
            | .branch next => execute fuel calls (.cond next)
      | .loop _ test body => repeatWhile fuel calls test body
      | .ret _ none => setPending .nothing
      | .ret _ (some e) => setPending (← evaluate fuel calls e)
      | .empty _ => value ()

/-- A loop: its block, as long as its condition is true. -/
def repeatWhile (fuel calls : Nat) (test : Expr) (body : Block) : Exec Unit :=
  match fuel with
  | 0 => exhausted
  | fuel + 1 => do
      if (← evaluate fuel calls test).isTrue then
        inScope (forEach (execute fuel calls) body.statements)
        repeatWhile fuel calls test body

end

/-! ## Runs -/

/-- The name of the frame of a run. -/
def topLevel : String :=
  "<top-level>"

/-- The budgets of a run. -/
structure Budget where
  fuel : Nat
  calls : Nat

/-- A fault as it is reported at the end of a run: for a limit the newest step is to
blame. -/
def blame (s : Session) (fault : Fault) : Fault :=
  match fault.cause with
  | .limit _ => ⟨fault.cause, s.log.last.bind Entry.location⟩
  | _ => fault

/-- Runs a program in a session. -/
def run (budget : Budget) (program : Program) (s : Session) : Outcome Unit :=
  let body := inScope (forEach (execute budget.fuel budget.calls) program.statements)
  match body { s.push topLevel none with runs := s.runs + 1 } with
  | .done _ s => .done () s.pop
  | .failed fault s => .failed (s.blame fault) s
  | .outOfFuel => .outOfFuel

/-- How running a source ends. -/
inductive Ending
  | finished
  | rejected (fault : SourceFault)
  | failed (fault : Fault)
  | unfinished

/-- Reads a source and runs it in a session. A source that is no program leaves the
session as it was. -/
def runSource (budget : Budget) (source : Source) (s : Session) : Ending × Session :=
  match Program.ofSource source with
  | .error fault => (.rejected fault, s)
  | .ok program =>
      match s.run budget program with
      | .done _ s => (.finished, s)
      | .failed fault s => (.failed fault, s)
      | .outOfFuel => (.unfinished, s)

end Session

end Mini
