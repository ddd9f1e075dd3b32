import Mini.Location
import Mini.OrderedMap
import Mini.Text.Json

/-!
# The log of steps

Every statement, call and print of a run is a step, numbered from zero. A quiet
log keeps no history, since a run may take any number of steps: it only keeps the
newest step, and for each call that is going on the newest step made while that
call was the innermost one. A verbose log keeps all steps, each with a snapshot of
the bindings.
-/

namespace Mini

open Text

/-- What is recorded about a step, by field. -/
abbrev Details := OrderedMap String Json

/-- One step: its number, the frame under which it was made, where it was made and
what stands there, the bindings at that time, and what is recorded about it. -/
structure Entry where
  index : Nat
  frame : Option Nat
  location : Option Location
  statement : Option String
  env : Option (OrderedMap String String)
  details : Option Details

/-- The identifier of a step. -/
def Entry.stateId (e : Entry) : String :=
  "s_" ++ paddedText 6 e.index

/-- The identifier of a frame. -/
def frameId (n : Nat) : String :=
  "f_" ++ paddedText 4 n

/-- The log: whether it is verbose, the steps it keeps, the newest one, the number
of the next one, and the newest one of each frame. -/
structure StepLog where
  verbose : Bool
  entries : Array Entry
  last : Option Entry
  next : Nat
  lastOf : OrderedMap Nat Entry

namespace StepLog

/-- The next step with the given content. -/
def entry (log : StepLog) (frame : Option Nat) (location : Option Location)
    (statement : Option String) (env : Option (OrderedMap String String))
    (details : Option Details) : Entry :=
  ⟨log.next, frame, location, statement, env, details⟩

/-- Adds a step. -/
def add (log : StepLog) (e : Entry) : StepLog where
  verbose := log.verbose
  entries := if log.verbose then log.entries.push e else log.entries
  last := some e
  next := log.next + 1
  lastOf :=
    match e.frame with
    | none => log.lastOf
    | some frame => log.lastOf.put frame e

/-- Forgets a frame that has ended. -/
def release (log : StepLog) (frame : Nat) : StepLog :=
  { log with lastOf := log.lastOf.erase frame }

/-- A log whose only step marks the beginning. -/
def initial (verbose : Bool) : StepLog :=
  let blank : StepLog := ⟨verbose, #[], none, 0, []⟩
  blank.add (blank.entry none none (some "<seed>") none (some [("rule", .text "SEED")]))

end StepLog

end Mini
