import Mini.CommandLine
import Mini.Proofs.Execution.Restoration
import Mini.Proofs.Grammar.Totality

/-!
# What a command has no message for

A command that gets a program ends with exit code 0, or with exit code 1 and a complaint: about the
file, about the text, or about the run. A few faults escape that. A name may be impossible for a
file, and a file may hold what is no text. And a number may have more digits than are read, which is
found out while the tokens are read and no message is made of it.
-/

namespace Mini

open Text

/-! ## Sources that are no programs -/

/-- A source whose run was rejected is no program. -/
theorem Session.ofSource_of_rejected {s t : Session} {budget : Budget} {source : Source}
    {fault : SourceFault} (ran : s.runSource budget source = (.rejected fault, t)) :
    Program.ofSource source = .error fault := by
  unfold runSource at ran
  split at ran
  · rename_i read
    cases ran
    exact read
  · split at ran <;> cases ran

namespace CommandLine

/-! ## Complaints -/

/-- A command complains: it ends with exit code 1, and what it writes to the standard error output
has this heading and has these parts in it. -/
structure Complains (heading : String) (parts : List String) (exit : Exit) : Prop where
  code : exit.code = 1
  heading : heading.toList <+: exit.stderr.toList
  parts : ∀ part ∈ parts, part.toList <:+: exit.stderr.toList

theorem infix_intercalate (separator : String) {part : String} {parts : List String}
    (mem : part ∈ parts) : part.toList <:+: (separator.intercalate parts).toList := by
  induction parts with
  | nil => cases mem
  | cons first parts ih =>
      cases parts with
      | nil =>
          have only : [] ++ part.toList ++ [] = (separator.intercalate [first]).toList := by
            rw [List.mem_singleton.mp mem, String.intercalate_singleton, List.append_nil,
              List.nil_append]
          exact ⟨[], [], only⟩
      | cons second parts =>
          rw [String.intercalate_cons_cons, String.toList_append, String.toList_append]
          rcases List.mem_cons.mp mem with rfl | later
          · rw [List.append_assoc]
            exact (List.prefix_append _ _).isInfix
          · exact (ih later).trans (List.suffix_append _ _).isInfix

/-- A heading with a text behind it, on the first of some lines, complains about what the text has
in it. -/
theorem complains_unlines {heading text : String} {parts : List String}
    (named : ∀ part ∈ parts, part.toList <:+: text.toList) (stdout : String) (lines : List String) :
    Complains heading parts ⟨1, stdout, unlines ((heading ++ text) :: lines)⟩ := by
  have whole : (unlines ((heading ++ text) :: lines)).toList =
      heading.toList ++ (text.toList ++ ("\n" ++ unlines lines).toList) := by
    simp only [unlines, List.map_cons, String.join_cons, String.toList_append, List.append_assoc]
  refine ⟨rfl, ?_, fun part mem => ?_⟩
  · rw [whole]
    exact List.prefix_append _ _
  · rw [whole]
    exact (named part mem).trans (List.infix_append' _ _ _)

/-- The complaint about a file has its name and the reason in it. -/
theorem complains_unreadable (name : String) (fault : ReadFault) :
    Complains "Failed to read " [name, fault.text]
      ⟨1, "", unlines
        ["Failed to read " ++ name ++ ": " ++ fault.text ++ ": " ++ quoted name]⟩ := by
  have line : "Failed to read " ++ name ++ ": " ++ fault.text ++ ": " ++ quoted name =
      "Failed to read " ++ (name ++ (": " ++ (fault.text ++ (": " ++ quoted name)))) := by
    simp only [String.append_assoc]
  rw [line]
  refine complains_unlines (List.forall_mem_cons.mpr ⟨?_, List.forall_mem_singleton.mpr ?_⟩) "" []
  · rw [String.toList_append]
    exact (List.prefix_append _ _).isInfix
  · simp only [String.toList_append]
    rw [← List.append_assoc]
    exact List.infix_append' _ _ _

/-- A traceback has its heading in front and the line about the fault behind it. -/
theorem exists_traceText (s : Session) (report : Report) (verbose : Bool) :
    ∃ text, s.traceText report verbose = "Traceback (most recent call last):" ++ text ∧
      (Session.reportLine report).toList <:+: text.toList := by
  let frames := s.trace.flatMap fun t => t.placeLines ++ t.stepLines verbose
  have mem : Session.reportLine report ∈ frames ++ [Session.reportLine report] :=
    List.mem_append_right _ List.mem_cons_self
  have last := infix_intercalate "\n" mem
  obtain ⟨line, lines, same⟩ := List.exists_cons_of_ne_nil (List.ne_nil_of_mem mem)
  rw [same] at last
  refine ⟨"\n" ++ "\n".intercalate (line :: lines), ?_, ?_⟩
  · show "\n".intercalate ("Traceback (most recent call last):" ::
      (frames ++ [Session.reportLine report])) = _
    rw [same, String.intercalate_cons_cons, String.append_assoc]
  · rw [String.toList_append]
    exact last.trans (List.suffix_append _ _).isInfix

/-! ## Sources of a command -/

/-- A command ends with an exit that is a report, or by an escape. -/
def Answered (reports : Exit → Prop) (escapes : Abort → Prop) : Except Abort Exit → Prop
  | .ok exit => reports exit
  | .error abort => escapes abort

theorem Answered.imp {reports reports' : Exit → Prop} {escapes escapes' : Abort → Prop}
    {result : Except Abort Exit} (h : Answered reports escapes result)
    (report : ∀ {exit}, reports exit → reports' exit)
    (escape : ∀ {abort}, escapes abort → escapes' abort) : Answered reports' escapes' result := by
  cases result with
  | ok exit => exact report h
  | error abort => exact escape h

section Source

variable (budget : Session.Budget) (arguments : Arguments) (source : Source)

/-- What a source is reported as: a run without fault, or a complaint about the text or the run. -/
inductive SourceReports : Exit → Prop
  | finished {s : Session} :
      (Session.initial arguments.verbose).runSource budget source = (.finished, s) →
      SourceReports ⟨0, unlines s.output.toList, ""⟩
  | lexical {faults : List LexicalFault} {exit : Exit} :
      Token.ofSource source.text = .error faults → faults ≠ [] →
      Complains "LexError: " (faults.map (·.message source.file)) exit → SourceReports exit
  | unexpected {expected : Expected} {found : Token} {rest : List Token} {exit : Exit} :
      Program.ofSource source = .error (.grammar (.unexpected expected found rest)) →
      Complains "ParseError: "
        [(Rejection.unexpected expected found rest).message source.file] exit →
      SourceReports exit
  | failed {fault : Fault} {s : Session} {exit : Exit} :
      (Session.initial arguments.verbose).runSource budget source = (.failed fault, s) →
      exit.stdout = unlines s.output.toList →
      Complains "Traceback (most recent call last):" [Session.reportLine (s.report fault)] exit →
      SourceReports exit

/-- What no message is made of when a source is read and run: a number that is too long, if the
reading comes as far as the number; and a run that does not end. -/
inductive SourceEscapes : Abort → Prop
  | numeral {tokens : List Token} {t : Token} :
      Token.ofSource source.text = .ok tokens → t ∈ tokens → t.kind = .number →
      digitLimit < t.text.toList.length →
      Program.ofTokens source.listing.locate tokens =
        .error (.badNumeral (.tooLong t.text.toList.length)) →
      SourceEscapes (.numeral (.tooLong t.text.toList.length))
  | unfinished {s : Session} :
      (Session.initial arguments.verbose).runSource budget source = (.unfinished, s) →
      SourceEscapes .unfinished

theorem runSource_answered :
    Answered (SourceReports budget arguments source) (SourceEscapes budget arguments source)
      (runSource budget arguments source) := by
  generalize ran : (Session.initial arguments.verbose).runSource budget source = ended
  obtain ⟨ending, s⟩ := ended
  unfold runSource
  rw [ran]
  cases ending with
  | finished => exact .finished ran
  | unfinished => exact .unfinished ran
  | failed fault =>
      obtain ⟨text, same, named⟩ := exists_traceText s (s.report fault) arguments.verbose
      refine .failed ran rfl ?_
      show Complains _ _ ⟨1, _, unlines (faultLines arguments s fault)⟩
      unfold faultLines
      dsimp only
      rw [same]
      exact complains_unlines (List.forall_mem_singleton.mpr named) _ _
  | rejected fault =>
      have read := Session.ofSource_of_rejected ran
      unfold Program.ofSource at read
      split at read
      · rename_i faults lexed
        cases read
        exact .lexical lexed (Token.faults_ne_nil lexed)
          (complains_unlines (fun _ mem => infix_intercalate "\n" mem) "" [])
      · rename_i tokens lexed
        split at read
        · rename_i rejection rejected
          cases read
          obtain ⟨expected, found, rest, rfl⟩ | ⟨t, mem, kind, long, rfl⟩ :=
            Program.rejection_cases lexed rejected
          · exact .unexpected (Session.ofSource_of_rejected ran)
              (complains_unlines (List.forall_mem_singleton.mpr (List.infix_refl _)) "" [])
          · exact .numeral lexed mem kind long rejected
        · cases read

variable {budget arguments source}

theorem runSource_of_escapes {abort : Abort} (h : SourceEscapes budget arguments source abort) :
    runSource budget arguments source = .error abort := by
  cases h with
  | numeral lexed _ _ _ rejected =>
      unfold runSource Session.runSource Program.ofSource
      simp only [lexed, rejected]
  | unfinished ran =>
      unfold runSource
      rw [ran]

end Source

section Command

variable (budget : Session.Budget) (read : String → Except ReadFault (List UInt8))
variable (arguments : Arguments) (program : String)

/-- The source that a command gets: its argument, or what its file holds, with every line ended the
same way. -/
inductive IsSource : Source → Prop
  | literal : arguments.source = true → IsSource ⟨literalName, program⟩
  | file {bytes : List UInt8} {text : List Char} :
      arguments.source = false → '\x00' ∉ program.toList → read program = .ok bytes →
      Utf8.decode bytes = .ok text → IsSource ⟨program, String.ofList (foldLineEnds text)⟩

/-- What a command reports: that its file cannot be read, or what its source is reported as. -/
inductive Reports : Exit → Prop
  | unreadable {fault : ReadFault} {exit : Exit} :
      arguments.source = false → '\x00' ∉ program.toList → read program = .error fault →
      Complains "Failed to read " [program, fault.text] exit → Reports exit
  | source {source : Source} {exit : Exit} :
      IsSource read arguments program source → SourceReports budget arguments source exit →
      Reports exit

/-- What a command has no message for: a null character in the name of its file, bytes that are no
text, and what no message is made of in its source. -/
inductive Escapes : Abort → Prop
  | nullInName : arguments.source = false → '\x00' ∈ program.toList → Escapes .nullInName
  | undecodable {bytes : List UInt8} {fault : Utf8.Fault} :
      arguments.source = false → '\x00' ∉ program.toList → read program = .ok bytes →
      Utf8.decode bytes = .error fault → Escapes (.undecodable fault)
  | source {source : Source} {abort : Abort} :
      IsSource read arguments program source → SourceEscapes budget arguments source abort →
      Escapes abort

variable {budget read arguments program}

theorem Reports.code {exit : Exit} (h : Reports budget read arguments program exit) :
    exit.code = 0 ∨ exit.code = 1 := by
  cases h with
  | unreadable _ _ _ complains => exact .inr complains.code
  | source _ reports =>
      cases reports with
      | finished => exact .inl rfl
      | lexical _ _ complains | unexpected _ complains | failed _ _ complains =>
          exact .inr complains.code

/-- How a command goes on after its arguments have been accepted. -/
theorem run_of_arguments {args : List String} (accepted : Arguments.ofList args = .ok arguments)
    (given : arguments.program = some program) :
    run budget read args =
      if arguments.source then runSource budget arguments ⟨literalName, program⟩
      else runFile budget arguments program (read program) := by
  unfold run plan
  rw [accepted]
  dsimp only
  rw [given]
  cases arguments.source <;> rfl

theorem run_of_file {args : List String} (accepted : Arguments.ofList args = .ok arguments)
    (given : arguments.program = some program) (file : arguments.source = false) :
    run budget read args = runFile budget arguments program (read program) := by
  rw [run_of_arguments accepted given, if_neg (ne_true_of_eq_false file)]

theorem run_of_isSource {args : List String} (accepted : Arguments.ofList args = .ok arguments)
    (given : arguments.program = some program) {source : Source}
    (isSource : IsSource read arguments program source) :
    run budget read args = runSource budget arguments source := by
  cases isSource with
  | literal literal => rw [run_of_arguments accepted given, if_pos literal]
  | file file named content decoded =>
      rw [run_of_file accepted given file]
      unfold runFile
      rw [if_neg named, content]
      dsimp only
      rw [decoded]

theorem run_of_escapes {args : List String} (accepted : Arguments.ofList args = .ok arguments)
    (given : arguments.program = some program) {abort : Abort}
    (h : Escapes budget read arguments program abort) : run budget read args = .error abort := by
  cases h with
  | nullInName file named =>
      rw [run_of_file accepted given file]
      unfold runFile
      rw [if_pos named]
  | undecodable file named content faulty =>
      rw [run_of_file accepted given file]
      unfold runFile
      rw [if_neg named, content]
      dsimp only
      rw [faulty]
  | source isSource escapes =>
      rw [run_of_isSource accepted given isSource]
      exact runSource_of_escapes escapes

variable (budget read)

theorem run_answered {args : List String} (accepted : Arguments.ofList args = .ok arguments)
    (given : arguments.program = some program) :
    Answered (Reports budget read arguments program) (Escapes budget read arguments program)
      (run budget read args) := by
  have of_source : ∀ source, IsSource read arguments program source →
      Answered (Reports budget read arguments program) (Escapes budget read arguments program)
        (run budget read args) := by
    intro source isSource
    rw [run_of_isSource accepted given isSource]
    exact (runSource_answered budget arguments source).imp (.source isSource) (.source isSource)
  cases literal : arguments.source with
  | true => exact of_source _ (.literal literal)
  | false =>
      by_cases named : '\x00' ∈ program.toList
      · rw [run_of_escapes accepted given (.nullInName literal named)]
        exact .nullInName literal named
      · cases content : read program with
        | error fault =>
            rw [run_of_file accepted given literal]
            unfold runFile
            rw [if_neg named, content]
            exact .unreadable literal named content (complains_unreadable program fault)
        | ok bytes =>
            cases decoded : Utf8.decode bytes with
            | ok text => exact of_source _ (.file literal named content decoded)
            | error fault =>
                have escapes : Escapes budget read arguments program (.undecodable fault) :=
                  .undecodable literal named content decoded
                rw [run_of_escapes accepted given escapes]
                exact escapes

/-- **A command answers with a report, but for these faults.** Whatever file system there is, a
command whose arguments are accepted and name a program ends with exit code 0 and no complaint if
the program runs without a fault. It ends with exit code 1 and a complaint if the file cannot be
read, or the text is no program, or the run fails. And it has no exit code exactly if the name of
the file has a null character in it, if the file is not UTF-8, if the reading comes to a number
that is too long, or if the run does not end. -/
theorem run_reports {args : List String} (accepted : Arguments.ofList args = .ok arguments)
    (given : arguments.program = some program) :
    (∀ abort, run budget read args = .error abort ↔
      Escapes budget read arguments program abort) ∧
    ∀ exit, run budget read args = .ok exit →
      (exit.code = 0 ∨ exit.code = 1) ∧ Reports budget read arguments program exit := by
  have answered := run_answered budget read accepted given
  refine ⟨fun abort => ⟨fun ended => ?_, run_of_escapes accepted given⟩, fun exit ended => ?_⟩
  · rw [ended] at answered
    exact answered
  · rw [ended] at answered
    exact ⟨Reports.code answered, answered⟩

end Command

theorem run_reports_unclosed :
    Arguments.ofList ["-source", "print(1"] = .ok ⟨some "print(1", true, false, false⟩ ∧
    run ⟨30, 10⟩ (fun _ => .error .missing) ["-source", "print(1"] =
      .ok ⟨1, "", "ParseError: <string>:1:8: expected ) at end of call\n"⟩ ∧
    Reports ⟨30, 10⟩ (fun _ => .error .missing) ⟨some "print(1", true, false, false⟩ "print(1"
      ⟨1, "", "ParseError: <string>:1:8: expected ) at end of call\n"⟩ := by
  have ended : run ⟨30, 10⟩ (fun _ => .error .missing) ["-source", "print(1"] =
      .ok ⟨1, "", "ParseError: <string>:1:8: expected ) at end of call\n"⟩ := by
    decide +kernel
  have accepted : Arguments.ofList ["-source", "print(1"] =
      .ok ⟨some "print(1", true, false, false⟩ := rfl
  obtain ⟨-, reports⟩ := run_reports ⟨30, 10⟩ (fun _ => .error .missing) accepted rfl
  exact ⟨accepted, ended, (reports _ ended).2⟩

/-- **Not every failure is reported.** The arguments are accepted, and the file holds one byte that
no text has. -/
theorem run_undecodable :
    Arguments.ofList ["b.mini"] = .ok ⟨some "b.mini", false, false, false⟩ ∧
    run ⟨30, 10⟩ (fun _ => .ok [0xFF]) ["b.mini"] =
      .error (.undecodable ⟨0xFF, 0, 1, .invalidStart⟩) := by
  decide +kernel

end CommandLine

end Mini
