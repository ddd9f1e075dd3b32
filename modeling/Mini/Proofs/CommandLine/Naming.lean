import Mini.CommandLine
import Mini.Proofs.Execution.OtherFile
import Mini.Proofs.Text.Utf8

/-!
# A program as a text and as a file

A source has a name: that of its file, or a name for all sources that are given as arguments. What
a command writes about the source has the name in it, wherever it gives a place. A form is a text
with blanks for the name; here it is shown that there is one form for what a command writes, and
that it does not depend on the name.
-/

namespace Mini

open Text

namespace CommandLine

/-! ## Forms -/

/-- A piece of a text that may be a blank for a name: for the name itself, or for the name as a JSON
string. -/
inductive Piece
  | text (s : String)
  | name
  | quotedName

def Piece.fill (name : String) : Piece → String
  | .text s => s
  | .name => name
  | .quotedName => Json.stringText name

/-- A text with blanks for a name. -/
abbrev Form := List Piece

/-- The text with a name in the blanks. -/
def Form.fill (name : String) (form : Form) : String :=
  String.join (form.map (Piece.fill name))

/-- A text that depends on a name is a form, filled in with the name. -/
def HasForm (text : String → String) : Prop :=
  ∃ form : Form, ∀ name, text name = form.fill name

/-- Texts that depend on a name are forms, as many for each name. -/
def HaveForms (texts : String → List String) : Prop :=
  ∃ forms : List Form, ∀ name, texts name = forms.map (Form.fill name)

namespace HasForm

variable {f g : String → String} {α : Type}

theorem piece (p : Piece) : HasForm fun name => p.fill name :=
  ⟨[p], fun _ => by simp [Form.fill]⟩

theorem text (s : String) : HasForm fun _ => s :=
  piece (.text s)

theorem name : HasForm fun name => name :=
  piece .name

theorem append (hf : HasForm f) (hg : HasForm g) : HasForm fun name => f name ++ g name := by
  obtain ⟨form, same⟩ := hf
  obtain ⟨form', same'⟩ := hg
  refine ⟨form ++ form', fun name => ?_⟩
  dsimp only
  rw [same, same', Form.fill, Form.fill, Form.fill, List.map_append, String.join_append]

end HasForm

namespace HaveForms

variable {f : String → String} {fs gs : String → List String} {α : Type}

theorem nil : HaveForms fun _ => [] :=
  ⟨[], fun _ => rfl⟩

theorem cons (hf : HasForm f) (hfs : HaveForms fs) : HaveForms fun name => f name :: fs name := by
  obtain ⟨form, same⟩ := hf
  obtain ⟨forms, same'⟩ := hfs
  refine ⟨form :: forms, fun name => ?_⟩
  dsimp only
  rw [same, same', List.map_cons]

theorem append (hfs : HaveForms fs) (hgs : HaveForms gs) :
    HaveForms fun name => fs name ++ gs name := by
  obtain ⟨forms, same⟩ := hfs
  obtain ⟨forms', same'⟩ := hgs
  refine ⟨forms ++ forms', fun name => ?_⟩
  dsimp only
  rw [same, same', List.map_append]

theorem texts : ∀ lines : List String, HaveForms fun _ => lines
  | [] => nil
  | line :: lines => cons (.text line) (texts lines)

theorem map {f : α → String → String} (each : ∀ a, HasForm (f a)) :
    ∀ items : List α, HaveForms fun name => items.map (f · name)
  | [] => nil
  | item :: items => cons (each item) (map each items)

theorem flatMap {f : α → String → List String} (each : ∀ a, HaveForms (f a)) :
    ∀ items : List α, HaveForms fun name => items.flatMap (f · name)
  | [] => nil
  | item :: items => by
      simp only [List.flatMap_cons]
      exact (each item).append (flatMap each items)

theorem intercalate_forms (separator : String) : ∀ forms : List Form,
    HasForm fun name => separator.intercalate (forms.map (Form.fill name))
  | [] => .text ""
  | [form] => ⟨form, fun _ => String.intercalate_singleton⟩
  | form :: form' :: forms => by
      simp only [List.map_cons, String.intercalate_cons_cons]
      exact (HasForm.append ⟨form, fun _ => rfl⟩ (.text separator)).append
        (intercalate_forms separator (form' :: forms))

theorem intercalate (hfs : HaveForms fs) (separator : String) :
    HasForm fun name => separator.intercalate (fs name) := by
  obtain ⟨forms, same⟩ := hfs
  simp only [same]
  exact intercalate_forms separator forms

theorem unlines_forms : ∀ forms : List Form,
    HasForm fun name => unlines (forms.map (Form.fill name))
  | [] => .text ""
  | form :: forms => by
      simp only [unlines, List.map_cons, String.join_cons]
      exact (HasForm.append ⟨form, fun _ => rfl⟩ (.text "\n")).append (unlines_forms forms)

theorem unlines (hfs : HaveForms fs) : HasForm fun name => unlines (fs name) := by
  obtain ⟨forms, same⟩ := hfs
  simp only [same]
  exact unlines_forms forms

end HaveForms

/-! ## Documents -/

/-- A document that depends on a name has a form at every depth. -/
def HasDocumentForm (document : String → Json) : Prop :=
  ∀ depth, HasForm fun name => (document name).render depth

/-- So have the members of an object. -/
def HaveMemberForms (members : String → List (String × Json)) : Prop :=
  ∀ depth, HaveForms fun name => Json.renderMembers depth (members name)

theorem HaveForms.bracket {fs : String → List String} (hfs : HaveForms fs)
    (opening closing : String) (depth : Nat) : HasForm fun name => Json.bracket opening closing depth (fs name) := by
  obtain ⟨forms, same⟩ := hfs
  simp only [same]
  cases forms with
  | nil => exact .text (opening ++ closing)
  | cons form forms =>
      have items := intercalate_forms ("," ++ Json.newLine (depth + 1)) (form :: forms)
      exact (((HasForm.text _).append items).append (.text _)).append (.text _)

namespace HaveMemberForms

variable {members members' : String → List (String × Json)}

theorem const (members : List (String × Json)) : HaveMemberForms fun _ => members :=
  fun _ => .texts _

theorem single (key : String) {document : String → Json} (h : HasDocumentForm document) :
    HaveMemberForms fun name => [(key, document name)] :=
  fun depth => .cons (.append (.text (Json.stringText key ++ ": ")) (h depth)) .nil

theorem renderMembers_append (depth : Nat) (ms ms' : List (String × Json)) :
    Json.renderMembers depth (ms ++ ms') =
      Json.renderMembers depth ms ++ Json.renderMembers depth ms' := by
  induction ms with
  | nil => rfl
  | cons m ms ih =>
      rw [List.cons_append, Json.renderMembers, Json.renderMembers, ih, List.cons_append]

theorem append (h : HaveMemberForms members) (h' : HaveMemberForms members') :
    HaveMemberForms fun name => members name ++ members' name := by
  intro depth
  simp only [renderMembers_append]
  exact (h depth).append (h' depth)

end HaveMemberForms

namespace HasDocumentForm

theorem name : HasDocumentForm fun name => .text name :=
  fun _ => .piece .quotedName

theorem object {members : String → List (String × Json)} (h : HaveMemberForms members) :
    HasDocumentForm fun name => .object (members name) :=
  fun depth => (h (depth + 1)).bracket _ _ depth

theorem renderElements_eq (depth : Nat) (documents : List Json) :
    Json.renderElements depth documents = documents.map (Json.render depth) := by
  induction documents with
  | nil => rfl
  | cons document documents ih => rw [Json.renderElements, ih, List.map_cons]

theorem list {α : Type} (document : α → String → Json) (each : ∀ a, HasDocumentForm (document a))
    (items : List α) : HasDocumentForm fun name => .list (items.map (document · name)) := by
  intro depth
  have elements : HaveForms fun name =>
      Json.renderElements (depth + 1) (items.map (document · name)) := by
    simp only [renderElements_eq, List.map_map]
    exact .map (fun a => each a (depth + 1)) items
  exact elements.bracket _ _ depth

end HasDocumentForm

/-! ## Tracebacks -/

end CommandLine

/-- A frame of a traceback with its place in another file. -/
def TraceFrame.inFile (file : String) (t : TraceFrame) : TraceFrame where
  name := t.name
  location := t.location.map (Location.inFile file)
  entry := t.entry.map (Entry.inFile file)

def Report.inFile (file : String) (r : Report) : Report :=
  { r with location := r.location.map (Location.inFile file) }

theorem Session.report_inFile (file : String) (s : Session) (fault : Fault) :
    (s.inFile file).report (fault.inFile file) = (s.report fault).inFile file := by
  have step : (s.log.last.map (Entry.inFile file)).map (fun e => (e.index : Int)) =
      s.log.last.map fun e => (e.index : Int) := by
    cases s.log.last <;> rfl
  exact congrArg (Report.mk _ _ _) step

theorem Session.trace_inFile (file : String) (s : Session) :
    (s.inFile file).trace = s.trace.map (TraceFrame.inFile file) := by
  have frames : ∀ frame : Frame, TraceFrame.ofFrame (s.log.inFile file) (frame.inFile file) =
      (TraceFrame.ofFrame s.log frame).inFile file := by
    intro frame
    have found : (s.log.inFile file).lastOf.find? (frame.inFile file).id =
        (s.log.lastOf.find? frame.id).map (Entry.inFile file) :=
      OrderedMap.find?_map (f := id) (fun _ _ same => same) _ _ _
    rw [TraceFrame.ofFrame, TraceFrame.ofFrame, found]
    cases s.log.lastOf.find? frame.id <;> rfl
  rw [trace, trace, List.map_map]
  show (s.stack.map (Frame.inFile file)).reverse.map (TraceFrame.ofFrame (s.log.inFile file)) = _
  rw [← List.map_reverse, List.map_map]
  exact List.map_congr_left fun frame _ => frames frame

namespace CommandLine

/-! Each part of a traceback has a form, from the place up to the document. -/

theorem hasForm_place (l : Location) : HasForm fun name => (l.inFile name).place :=
  (((HasForm.name.append (.text ":")).append (.text (integerText l.line))).append
    (.text ":")).append (.text (integerText l.column))

theorem haveForms_placeLines (t : TraceFrame) :
    HaveForms fun name => (t.inFile name).placeLines := by
  obtain ⟨frame, location, entry⟩ := t
  cases location with
  | none => exact .texts ["  <unknown location> in " ++ frame]
  | some l =>
      have line : HasForm fun name => "  File \"" ++ name ++ "\", line " ++ integerText l.line ++
          ", in " ++ frame :=
        ((((HasForm.text "  File \"").append .name).append (.text "\", line ")).append
          (.text _)).append (.text ", in ") |>.append (.text frame)
      have statement : ∀ name, (entry.map (Entry.inFile name)).bind Entry.statement =
          entry.bind Entry.statement := fun name => by cases entry <;> rfl
      simp only [TraceFrame.inFile, TraceFrame.placeLines, Option.map_some, statement]
      split
      · exact .cons line .nil
      · exact .cons line .nil
      · exact .cons line (.texts _)

theorem stepLines_inFile (name : String) (verbose : Bool) (t : TraceFrame) :
    (t.inFile name).stepLines verbose = t.stepLines verbose := by
  obtain ⟨_, _, entry⟩ := t
  cases entry <;> rfl

theorem hasForm_reportLine (report : Report) :
    HasForm fun name => Session.reportLine (report.inFile name) := by
  obtain ⟨message, location, rule, step⟩ := report
  cases location with
  | none => exact .text (Session.reportLine ⟨message, none, rule, step⟩)
  | some l =>
      have place := (HasForm.text " at ").append (hasForm_place l)
      simp only [Session.reportLine, Report.inFile, Option.map_some]
      exact (((HasForm.text (Report.kindName ++ ": " ++ message)).append place).append
        (.text " (rule: ")).append (.text _) |>.append (.text ")")

theorem hasForm_traceText (s : Session) (report : Report) (verbose : Bool) :
    HasForm fun name => (s.inFile name).traceText (report.inFile name) verbose := by
  have frames : HaveForms fun name => (s.inFile name).trace.flatMap fun t =>
      t.placeLines ++ t.stepLines verbose := by
    simp only [Session.trace_inFile, List.flatMap_map, stepLines_inFile]
    exact .flatMap (fun t => (haveForms_placeLines t).append (.texts _)) s.trace
  exact (((HaveForms.texts ["Traceback (most recent call last):"]).append frames).append
    (.cons (hasForm_reportLine report) .nil)).intercalate "\n"

theorem hasDocumentForm_location (l : Location) :
    HasDocumentForm fun name => TraceFrame.locationJson (l.inFile name) :=
  .object ((HaveMemberForms.single "file" .name).append (.const
    [("line", .number l.line), ("column", .number l.column), ("statement", .text l.statement)]))

theorem hasDocumentForm_frame (index : Nat) (t : TraceFrame) :
    HasDocumentForm fun name => (t.inFile name).json index := by
  obtain ⟨frame, location, entry⟩ := t
  have place : HaveMemberForms fun name => ((location.map (Location.inFile name)).map fun l =>
      ("source_location", TraceFrame.locationJson l)).toList := by
    cases location with
    | none => exact .const []
    | some l => exact .single "source_location" (hasDocumentForm_location l)
  have step : ∀ name, (entry.map (Entry.inFile name)).map TraceFrame.entryMembers =
      entry.map TraceFrame.entryMembers := fun name => by cases entry <;> rfl
  refine .object (((HaveMemberForms.const
    [("frame_index", .number index), ("name", .text frame)]).append place).append ?_)
  simp only [TraceFrame.inFile, step]
  exact .const _

theorem hasDocumentForm_traceJson (s : Session) (report : Report) :
    HasDocumentForm fun name => (s.inFile name).traceJson (report.inFile name) := by
  have numbered : ∀ name, (s.inFile name).trace.mapIdx TraceFrame.json =
      s.trace.zipIdx.map fun item => (item.1.inFile name).json item.2 := by
    intro name
    rw [Session.trace_inFile, List.mapIdx_eq_zipIdx_map, List.zipIdx_map, List.map_map]
    rfl
  have frames : HasDocumentForm fun name =>
      .list ((s.inFile name).trace.mapIdx TraceFrame.json) := by
    simp only [numbered]
    exact .list (fun item name => (item.1.inFile name).json item.2)
      (fun item => hasDocumentForm_frame item.2 item.1) s.trace.zipIdx
  let error : Json := .object
    [("type", .text Report.kindName), ("message", .text report.message),
      ("failing_step_index", (report.step.map Json.number).getD .null)]
  exact .object ((HaveMemberForms.const [("error", error)]).append (.single "traceback" frames))

theorem haveForms_faultLines (arguments : Arguments) (s : Session) (fault : Fault) :
    HaveForms fun name => faultLines arguments (s.inFile name) (fault.inFile name) := by
  simp only [faultLines, Session.report_inFile]
  refine .cons (hasForm_traceText s _ _) ?_
  split
  · exact .cons (hasDocumentForm_traceJson s _ 0) .nil
  · exact .nil

/-! ## Commands -/

theorem hasForm_lexical (fault : LexicalFault) : HasForm fun name => fault.message name :=
  (((((HasForm.name.append (.text ":")).append (.text _)).append (.text ":")).append
    (.text _)).append (.text ": ")).append (.text fault.cause.text)

theorem hasForm_rejection (rejection : Rejection) : HasForm fun name => rejection.message name := by
  cases rejection with
  | unexpected expected found rest =>
      exact ((((((HasForm.name.append (.text ":")).append (.text _)).append (.text ":")).append
        (.text _)).append (.text ": ")).append (.text expected.text))
  | badNumeral fault => exact .text fault.message
  | outOfTokens => exact .text "list index out of range"
  | outOfFuel => exact .text "out of budget"

/-- How a command ends, with blanks for the name of the source in what it complains about. -/
structure ExitForm where
  code : Nat
  stdout : String
  stderr : Form

def ExitForm.fill (name : String) (form : ExitForm) : Exit :=
  ⟨form.code, form.stdout, form.stderr.fill name⟩

theorem HasForm.exit {stderr : String → String} (h : HasForm stderr) (code : Nat)
    (stdout : String) : ∃ form : Except Abort ExitForm, ∀ name,
      Except.ok (Exit.mk code stdout (stderr name)) = form.map (ExitForm.fill name) := by
  obtain ⟨form, filled⟩ := h
  refine ⟨.ok ⟨code, stdout, form⟩, fun name => ?_⟩
  rw [filled]
  rfl

/-- There is one form for what becomes of a text, and the name of the source goes into its
blanks. -/
theorem exists_exitForm (budget : Session.Budget) (arguments : Arguments) (text : String) :
    ∃ form : Except Abort ExitForm, ∀ name,
      runSource budget arguments ⟨name, text⟩ = form.map (ExitForm.fill name) := by
  generalize ran : (Session.initial arguments.verbose).runSource budget ⟨"", text⟩ = ended
  obtain ⟨ending, s⟩ := ended
  have alike : ∀ name, (Session.initial arguments.verbose).runSource budget ⟨name, text⟩ =
      (ending.inFile name, s.inFile name) := by
    intro name
    have moved := Session.runSource_inFile name budget ⟨"", text⟩ (.initial arguments.verbose)
    rw [Session.initial_inFile, ran] at moved
    exact moved
  simp only [runSource, alike]
  cases ending with
  | finished => exact (HasForm.text "").exit 0 (unlines s.output.toList)
  | failed fault =>
      exact (haveForms_faultLines arguments s fault).unlines.exit 1 (unlines s.output.toList)
  | unfinished => exact ⟨.error .unfinished, fun _ => rfl⟩
  | rejected fault =>
      cases fault with
      | lexical faults =>
          have messages := (HaveForms.map hasForm_lexical faults).intercalate "\n"
          have line := (HasForm.text "LexError: ").append messages
          exact (HaveForms.cons line .nil).unlines.exit 1 ""
      | grammar rejection =>
          have message := (HasForm.text "ParseError: ").append (hasForm_rejection rejection)
          cases rejection with
          | badNumeral fault => exact ⟨.error (.numeral fault), fun _ => rfl⟩
          | unexpected | outOfTokens | outOfFuel =>
              exact (HaveForms.cons message .nil).unlines.exit 1 ""

/-- **A program does the same as a text and as a file.** The name of a source decides nothing in any
session. A command that takes a text as the program, and one that takes a file which holds the text
in UTF-8, with the same other flags, end the same way: by the same fault, or with the same code and
output, and complaints of one form in which the names of the sources fill the blanks. -/
theorem run_text_as_file (budget : Session.Budget) :
    (∀ (s : Session) (source : Source) (file : String),
      (s.inFile file).runSource budget { source with file := file } =
        ((s.runSource budget source).1.inFile file, (s.runSource budget source).2.inFile file)) ∧
    ∀ (read : String → Except ReadFault (List UInt8)) (args args' : List String)
      (text name : String) (arguments arguments' : Arguments),
      plan args = .literal text arguments → plan args' = .file name arguments' →
      arguments'.verbose = arguments.verbose → arguments'.traceJson = arguments.traceJson →
      '\r' ∉ text.toList → '\x00' ∉ name.toList → read name = .ok text.toUTF8.data.toList →
      ∃ form : Except Abort ExitForm,
        (∀ name, runSource budget arguments ⟨name, text⟩ = form.map (ExitForm.fill name)) ∧
        run budget read args = form.map (ExitForm.fill literalName) ∧
        run budget read args' = form.map (ExitForm.fill name) := by
  refine ⟨fun s source file => Session.runSource_inFile file budget source s, ?_⟩
  intro read args args' text name arguments arguments' literal file verbose traceJson plain named
    content
  obtain ⟨form, filled⟩ := exists_exitForm budget arguments text
  refine ⟨form, filled, ?_, ?_⟩
  · rw [run, literal]
    exact filled literalName
  · have flags : runSource budget arguments' ⟨name, text⟩ =
        runSource budget arguments ⟨name, text⟩ := by
      simp only [runSource, faultLines, verbose, traceJson]
    rw [run, file]
    dsimp only
    unfold runFile
    rw [if_neg named, content]
    dsimp only
    rw [Utf8.decode_toUTF8]
    dsimp only
    rw [foldLineEnds_of_not_mem plain, String.ofList_toList, flags]
    exact filled name

/-- A program that fails in its second line. -/
def faulty : String :=
  "x = 1;\nprint(x + y);"

/-- A file system in which every file holds it. -/
def everywhere (_ : String) : Except ReadFault (List UInt8) :=
  .ok faulty.toUTF8.data.toList

theorem run_text_as_file_faulty :
    run ⟨30, 10⟩ everywhere ["-source", faulty, "--traceback-json"] ≠
      run ⟨30, 10⟩ everywhere ["--traceback-json", "a.mini"] ∧
    ∃ form : Except Abort ExitForm,
      run ⟨30, 10⟩ everywhere ["-source", faulty, "--traceback-json"] =
        form.map (ExitForm.fill literalName) ∧
      run ⟨30, 10⟩ everywhere ["--traceback-json", "a.mini"] =
        form.map (ExitForm.fill "a.mini") := by
  refine ⟨by decide +kernel, ?_⟩
  obtain ⟨form, -, literal, file⟩ := (run_text_as_file ⟨30, 10⟩).2 everywhere
    ["-source", faulty, "--traceback-json"] ["--traceback-json", "a.mini"] faulty "a.mini"
    ⟨some faulty, true, false, true⟩ ⟨some "a.mini", false, false, true⟩ rfl rfl rfl rfl
    (by decide +kernel) (by decide +kernel) rfl
  exact ⟨form, literal, file⟩

end CommandLine

end Mini
