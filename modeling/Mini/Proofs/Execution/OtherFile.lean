import Mini.Proofs.Execution.Grafted
import Mini.Proofs.Grammar.Acceptance
import Mini.Traceback

/-!
# The name of the source

The name of a source stands in the places of its tree, and from there it comes into values, steps
and faults. Nothing looks at it: under another name a source is read alike, and runs alike in any
session whose places have that name.
-/

namespace Mini

attribute [ext] StepLog Session

/-! ## The same under another name -/

/-- The place in another file. -/
def Location.inFile (file : String) (l : Location) : Location :=
  { l with file := file }

/-- All places are put into another file. -/
def Relabelling.toFile (file : String) : Relabelling :=
  { Relabelling.same with place := Location.inFile file }

def Frame.inFile (file : String) (f : Frame) : Frame :=
  { f with callLocation := f.callLocation.map (Location.inFile file) }

def Entry.inFile (file : String) (e : Entry) : Entry :=
  { e with location := e.location.map (Location.inFile file) }

def Fault.inFile (file : String) (f : Fault) : Fault :=
  { f with location := f.location.map (Location.inFile file) }

def StepLog.inFile (file : String) (log : StepLog) : StepLog where
  verbose := log.verbose
  entries := log.entries.map (Entry.inFile file)
  last := log.last.map (Entry.inFile file)
  next := log.next
  lastOf := log.lastOf.map fun item => (item.1, item.2.inFile file)

/-- A session with all its places in another file. -/
def Session.inFile (file : String) (s : Session) : Session where
  heap := ⟨s.heap.arrays.map (Relabelling.toFile file).pairs⟩
  scopes := (Relabelling.toFile file).scopes s.scopes
  log := s.log.inFile file
  stack := s.stack.map (Frame.inFile file)
  frames := s.frames
  pending := (Relabelling.toFile file).value s.pending
  output := s.output
  runs := s.runs

/-- An ending with its place in another file. What is wrong with a source that is no program has
no file. -/
def Session.Ending.inFile (file : String) : Session.Ending → Session.Ending
  | .failed fault => .failed (fault.inFile file)
  | ending => ending

/-- Reading goes alike under another name. -/
theorem Program.ofSource_inFile (file : String) (source : Source) :
    Program.ofSource { source with file := file } =
      (Program.ofSource source).map (Relabelling.toFile file).program := by
  have places : (Source.listing { source with file := file }).locate =
      Grammar.relocate (.toFile file) source.listing.locate := rfl
  rw [ofSource, ofSource, places]
  dsimp only
  cases Token.ofSource source.text with
  | error faults => rfl
  | ok tokens =>
      dsimp only
      rw [ofTokens_relocate (ρ := .toFile file) fun _ => rfl]
      cases Program.ofTokens source.listing.locate tokens <;> rfl

namespace Session

/-! ## Runs -/

/-- A ground on which nothing stands, so that only the places change. -/
def onFile (file : String) (s : Session) : Ground where
  place := Location.inFile file
  under := { initial s.log.verbose with log := ⟨s.log.verbose, #[], none, 0, []⟩ }
  origin := ⟨s.log.verbose, #[], none, s.log.next, []⟩
  steps := 0
  numbered := ⟨fun _ mem => absurd mem List.not_mem_nil, fun _ mem => absurd mem List.not_mem_nil⟩
  line_place _ := rfl
  column_place _ := rfl
  statement_place _ := rfl

section OnFile

variable (file : String) (s : Session)

theorem relabelling_onFile : (onFile file s).relabelling = .toFile file :=
  rfl

theorem entry_onFile : (onFile file s).entry = Entry.inFile file := by
  funext e
  obtain ⟨index, frame, location, statement, env, details⟩ := e
  cases frame <;> rfl

theorem newest_onFile (lastOf : OrderedMap Nat Entry) :
    (onFile file s).newest lastOf = lastOf.map fun item => (item.1, item.2.inFile file) := by
  rw [Ground.newest, entry_onFile]
  rfl

/-- At its beginning the run stands on nothing. -/
theorem running_onFile : (onFile file s).Running s.begun (s.inFile file).begun := by
  refine ⟨⟨?heap, rfl, ⟨rfl, ?entries, ?last, rfl, ?lastOf⟩, ?stack, rfl, rfl, ?output, rfl⟩,
    List.cons_ne_nil _ _⟩
  case heap => exact (Array.empty_append).symm
  case entries =>
    rw [entry_onFile]
    exact ⟨s.log.entries.toList, rfl, Array.toList_map⟩
  case last =>
    rw [entry_onFile]
    show s.log.next = _ ∧ s.log.last = none ∧ s.log.last.map (Entry.inFile file) = none ∨
      ∃ e, s.log.last = some e ∧ s.log.last.map (Entry.inFile file) = _
    cases s.log.last with
    | none => exact .inl ⟨rfl, rfl, rfl⟩
    | some e => exact .inr ⟨e, rfl, rfl⟩
  case lastOf =>
    rw [newest_onFile]
    rfl
  case stack => exact (List.append_nil _).symm
  case output => exact (Array.empty_append).symm

variable {file s}

theorem log_eq_inFile {u w : StepLog} (grafted : (onFile file s).OverLog u w) :
    w = u.inFile file := by
  ext1
  case verbose => exact grafted.verbose
  case entries =>
    obtain ⟨made, entries, entries'⟩ := grafted.entries
    have entries : u.entries.toList = made := entries
    have entries' : w.entries.toList = made.map (onFile file s).entry := entries'
    apply Array.toList_inj.mp
    rw [entries', ← entries, entry_onFile]
    exact Array.toList_map.symm
  case last =>
    rcases grafted.last with ⟨-, nothing, nothing'⟩ | ⟨e, newest, newest'⟩
    · show w.last = u.last.map _
      rw [nothing, nothing']
      rfl
    · show w.last = u.last.map _
      rw [newest, newest', entry_onFile]
      rfl
  case next => exact grafted.next
  case lastOf =>
    have lastOf := grafted.lastOf
    rw [newest_onFile] at lastOf
    exact lastOf

/-- What stands on nothing is the session in the file. -/
theorem eq_inFile_of_over {u w : Session} (grafted : (onFile file s).Over u w) :
    w = u.inFile file := by
  ext1
  case heap => exact congrArg Heap.mk (grafted.heap.trans Array.empty_append)
  case scopes => exact grafted.scopes
  case log => exact log_eq_inFile grafted.log
  case stack => exact grafted.stack.trans (List.append_nil _)
  case frames => exact grafted.frames
  case pending => exact grafted.pending
  case output => exact grafted.output.trans Array.empty_append
  case runs => exact grafted.runs

end OnFile

/-- The session before any run names no file. -/
theorem initial_inFile (file : String) (verbose : Bool) :
    (initial verbose).inFile file = initial verbose := by
  ext1
  case heap => exact congrArg Heap.mk Array.map_empty
  case scopes => exact congrArg (Scopes.mk · none) Array.map_empty
  case log =>
    ext1
    case entries =>
      cases verbose with
      | false => exact Array.map_empty
      | true => exact Array.map_singleton
    case verbose | last | next | lastOf => rfl
  case stack | frames | pending | output | runs => rfl

/-- **The name of a source decides nothing.** In a session whose places have another name, the
source under that name ends alike and leaves the session alike, with the name in its places. -/
theorem runSource_inFile (file : String) (budget : Budget) (source : Source) (s : Session) :
    (s.inFile file).runSource budget { source with file := file } =
      ((s.runSource budget source).1.inFile file, (s.runSource budget source).2.inFile file) := by
  rw [runSource, runSource, Program.ofSource_inFile]
  cases Program.ofSource source with
  | error fault => rfl
  | ok program =>
      have ends := (onFile file s).run (running_onFile file s) rfl budget program
      rw [relabelling_onFile] at ends
      dsimp only [Except.map]
      generalize s.run budget program = o at ends
      generalize (s.inFile file).run budget _ = o' at ends
      cases ends with
      | done grafted =>
          rw [eq_inFile_of_over grafted]
          rfl
      | failed grafted =>
          rw [eq_inFile_of_over grafted]
          rfl
      | outOfFuel => rfl

end Session

end Mini
