import Mini.Scopes
import Mini.StepLog

/-!
# Sessions

What an interpreter carries from step to step and from run to run: arrays, scopes,
the log, the calls that are going on, the value of the last `return`, and the texts
printed. Runs of one session share all of it, so numbers of steps and frames go on,
and what a failed run left on the stack stays there.
-/

namespace Mini

/-- A call that is going on, or a run at its top level. -/
structure Frame where
  name : String
  id : Nat
  callLocation : Option Location
  deriving DecidableEq, Repr

/-- The state of an interpreter. The stack has the innermost frame first. -/
structure Session where
  heap : Heap
  scopes : Scopes
  log : StepLog
  stack : List Frame
  frames : Nat
  pending : Value
  output : Array String
  runs : Nat

namespace Session

/-- The state before any run. -/
def initial (verbose : Bool) : Session where
  heap := .empty
  scopes := .empty
  log := .initial verbose
  stack := []
  frames := 0
  pending := .nothing
  output := #[]
  runs := 0

/-- Puts a new frame on the stack. -/
def push (s : Session) (name : String) (callLocation : Option Location) : Session :=
  { s with stack := ⟨name, s.frames, callLocation⟩ :: s.stack, frames := s.frames + 1 }

/-- Takes the innermost frame off the stack; the log forgets it. -/
def pop (s : Session) : Session :=
  match s.stack with
  | [] => s
  | frame :: rest => { s with stack := rest, log := s.log.release frame.id }

/-- The next step with the given content, made under the innermost frame. -/
def entry (s : Session) (location : Option Location) (statement : Option String)
    (env : Option (OrderedMap String String)) (details : Option Details) : Entry :=
  s.log.entry (s.stack.head?.map Frame.id) location statement env details

/-- Adds a step to the log. -/
def record (s : Session) (e : Entry) : Session :=
  { s with log := s.log.add e }

/-- A step under the given rule, with further fields: they come after the rule, and
one that is named like it replaces it. A verbose log also gets a snapshot, which may
hit a limit. -/
def step (s : Session) (rule : String) (location : Option Location) (fields : Details) :
    Except Limit Entry := do
  let env ← if s.log.verbose then some <$> s.scopes.snapshot s.heap else pure none
  let details := OrderedMap.putAll [("rule", .text rule)] fields
  return s.entry location (location.map Location.statement) env (some details)

end Session

end Mini
