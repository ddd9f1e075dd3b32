import Mini.Session

/-!
# Executions

An execution takes a session to a session and gives a value, or stops with a fault
and the session as it was then, or does not come to an end within its budget. The
session at a fault matters: what was printed, logged and stored before stays.
-/

namespace Mini

/-- How an execution ends. -/
inductive Outcome (α : Type)
  | done (value : α) (session : Session)
  | failed (fault : Fault) (session : Session)
  | outOfFuel

/-- An execution that gives an `α`. -/
def Exec (α : Type) := Session → Outcome α

namespace Exec

variable {α β : Type}

/-- Gives a value and does nothing. -/
@[always_inline, inline]
def value (a : α) : Exec α :=
  fun s => .done a s

/-- One execution after another; a fault ends both. -/
@[always_inline, inline]
def andThen (x : Exec α) (f : α → Exec β) : Exec β := fun s =>
  match x s with
  | .done a s => f a s
  | .failed fault s => .failed fault s
  | .outOfFuel => .outOfFuel

@[always_inline]
instance : Monad Exec where
  pure := value
  bind := andThen

/-- Stops with a fault. -/
@[inline]
def fail (cause : Cause) (location : Option Location) : Exec α :=
  fun s => .failed ⟨cause, location⟩ s

/-- Stops for want of budget. -/
@[inline]
def exhausted : Exec α :=
  fun _ => .outOfFuel

/-- A part of the session. -/
@[inline]
def get (f : Session → α) : Exec α :=
  fun s => .done (f s) s

/-- Changes the session. -/
@[inline]
def modify (f : Session → Session) : Exec Unit :=
  fun s => .done () (f s)

/-- A value that may be missing for a cause, blamed on a location. -/
@[inline]
def orBlame (location : Option Location) (r : Except Cause α) : Exec α :=
  match r with
  | .ok a => value a
  | .error cause => fail cause location

/-- A value that may be missing because a limit was hit. Which location is blamed
for that is decided when the run ends. -/
@[inline]
def orLimit (r : Except Limit α) : Exec α :=
  match r with
  | .ok a => value a
  | .error limit => fail (.limit limit) none

/-- Changes the session at the end, however the execution ends. -/
@[inline]
def endingWith (x : Exec α) (last : Session → Session) : Exec α := fun s =>
  match x s with
  | .done a s => .done a (last s)
  | .failed fault s => .failed fault (last s)
  | .outOfFuel => .outOfFuel

/-- Opens a scope around an execution. -/
@[inline]
def inScope (x : Exec α) : Exec α := fun s =>
  endingWith x (fun s => { s with scopes := s.scopes.leave }) { s with scopes := s.scopes.enter }

/-- Does something for each item, in order. -/
@[specialize]
def forEach (f : α → Exec Unit) : List α → Exec Unit
  | [] => value ()
  | a :: rest => do
      f a
      forEach f rest

/-- Collects the value for each item, in order. -/
@[specialize]
def collect (f : α → Exec β) : List α → Exec (List β)
  | [] => value []
  | a :: rest => do
      let b ← f a
      let bs ← collect f rest
      return b :: bs

end Exec

end Mini
