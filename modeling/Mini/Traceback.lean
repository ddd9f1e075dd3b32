import Mini.Session

/-!
# Tracebacks

The chain of calls that a fault came through, outermost first, as text or as a JSON
document. Each frame is shown at the newest step made under it, which for a frame
that is waiting for a call is the step of that call; a frame without a step is shown
where it was called.
-/

namespace Mini

open Text

/-- What is reported about a fault: its wording, its place, its rule, and the step
at which it occurred. -/
structure Report where
  message : String
  location : Option Location
  rule : Option String
  step : Option Int
  deriving DecidableEq, Repr

/-- The report of a fault that occurred in a session. -/
def Session.report (s : Session) (fault : Fault) : Report :=
  ⟨fault.cause.message, fault.location, some fault.cause.rule, s.log.last.map fun e => (e.index : Int)⟩

/-- The name of the kind of fault that is reported. -/
def Report.kindName : String :=
  "MiniRuntimeError"

/-- One frame of a traceback. -/
structure TraceFrame where
  name : String
  location : Option Location
  entry : Option Entry

namespace TraceFrame

/-- A frame of the stack, with what the log knows about it. -/
def ofFrame (log : StepLog) (frame : Frame) : TraceFrame :=
  match log.lastOf.find? frame.id with
  | some entry => ⟨frame.name, entry.location, some entry⟩
  | none => ⟨frame.name, frame.callLocation, none⟩

/-- The lines about the place of a frame. -/
def placeLines (t : TraceFrame) : List String :=
  match t.location with
  | none => ["  <unknown location> in " ++ t.name]
  | some l =>
      let line := "  File \"" ++ l.file ++ "\", line " ++ integerText l.line ++ ", in " ++ t.name
      match t.entry.bind Entry.statement with
      | none | some "" => [line]
      | some statement => [line, "    " ++ statement]

/-- A snapshot on one line. -/
def envText (env : OrderedMap String String) : String :=
  ", ".intercalate (env.map fun (name, text) => name ++ "=" ++ text)

/-- The lines about the step of a frame. -/
def stepLines (verbose : Bool) (t : TraceFrame) : List String :=
  match t.entry with
  | none => []
  | some e =>
      let line := "    State log index: " ++ natText e.index ++ "  State id: " ++ e.stateId
      match verbose, e.env with
      | true, some env => [line, "    Env snapshot: " ++ envText env]
      | _, _ => [line]

/-- A location as a JSON object. -/
def locationJson (l : Location) : Json :=
  .object [("file", .text l.file), ("line", .number l.line), ("column", .number l.column),
    ("statement", .text l.statement)]

/-- The members that describe a step. -/
def entryMembers (e : Entry) : List (String × Json) :=
  [("state_id", .text e.stateId), ("step_index", .number e.index)] ++
    (match e.env with
      | none => []
      | some env => [("env_snapshot", .object (env.map fun (name, text) => (name, .text text)))]) ++
    (match e.details with
      | none => []
      | some details => [("step_record", .object details)])

/-- A frame as a JSON object. -/
def json (index : Nat) (t : TraceFrame) : Json :=
  .object <|
    [("frame_index", .number index), ("name", .text t.name)] ++
      (t.location.map fun l => ("source_location", locationJson l)).toList ++
      (t.entry.map entryMembers).getD []

end TraceFrame

namespace Session

/-- The frames of the stack, outermost first. -/
def trace (s : Session) : List TraceFrame :=
  s.stack.reverse.map (TraceFrame.ofFrame s.log)

/-- The line that ends a traceback. -/
def reportLine (report : Report) : String :=
  let place :=
    match report.location with
    | none => ""
    | some l => " at " ++ l.place
  let rule :=
    match report.rule with
    | none | some "" => "runtime"
    | some rule => rule
  Report.kindName ++ ": " ++ report.message ++ place ++ " (rule: " ++ rule ++ ")"

/-- The traceback as text; snapshots are shown if asked for. -/
def traceText (s : Session) (report : Report) (verbose : Bool) : String :=
  "\n".intercalate <|
    ["Traceback (most recent call last):"] ++
      s.trace.flatMap (fun t => t.placeLines ++ t.stepLines verbose) ++
      [reportLine report]

/-- The traceback as a JSON document. -/
def traceJson (s : Session) (report : Report) : Json :=
  .object
    [("error", .object
        [("type", .text Report.kindName), ("message", .text report.message),
          ("failing_step_index", (report.step.map Json.number).getD .null)]),
      ("traceback", .list (s.trace.mapIdx TraceFrame.json))]

end Session

end Mini
