import Mini.Proofs.Execution.Grafted

/-!
# Running again

A session that has been used has arrays, frames, steps and texts from before, and behind a fault
even frames on its stack. A run does not see them. What it prints, how it ends and which steps it
logs is what it would be in a new session; only the numbers of steps and frames go on from where
they were.

A value that is still pending would be seen: a call whose body has no `return` gives it.
-/

namespace Mini

/-- A step with greater numbers. -/
def Entry.later (steps frames : Nat) (e : Entry) : Entry :=
  { e with index := e.index + steps, frame := e.frame.map (· + frames) }

/-- A frame with a greater number. -/
def Frame.later (frames : Nat) (f : Frame) : Frame :=
  { f with id := f.id + frames }

/-- A report with a greater number of its step. -/
def Report.later (steps : Nat) (r : Report) : Report :=
  { r with step := r.step.map (· + (steps : Int)) }

namespace Session

/-! ## The beginning of the run -/

/-- The beginning of the log is a step, and none is taken back. -/
theorem Reachable.next_pos {s : Session} (reachable : Reachable s) : 0 < s.log.next := by
  induction reachable with
  | initial verbose => exact Nat.one_pos
  | @runSource s budget source _ positive =>
      generalize ran : s.runSource budget source = ended
      obtain ⟨ending, t⟩ := ended
      obtain ⟨fault, -, rfl⟩ | ⟨program, -, ⟨-, done⟩ | ⟨fault, -, failed⟩ | ⟨-, rfl⟩⟩ :=
        runSource_cases ran
      · exact positive
      · rw [run_eq] at done
        split at done
        · rename_i here
          cases done
          rw [pop_next]
          have next := (closed_advances.programBody budget program).done here
          exact Nat.lt_of_lt_of_le positive next
        · cases done
        · cases done
      · rw [run_eq] at failed
        split at failed
        · cases failed
        · rename_i here
          cases failed
          have next := (closed_advances.programBody budget program).failed here
          exact Nat.lt_of_lt_of_le positive next
        · cases failed
      · exact positive

/-- A used session as the ground of a run that has the same places in a new one. -/
def Idle.ground {s : Session} (idle : Idle s) : Ground where
  place := id
  under := s
  origin := (initial s.log.verbose).log
  steps := s.log.next - 1
  numbered := idle.numbered
  line_place _ := rfl
  column_place _ := rfl
  statement_place _ := rfl

section Ground

variable {s : Session} (idle : Idle s)

theorem Idle.frame_ground : idle.ground.frame = Frame.later s.frames := by
  funext f
  rw [Ground.frame, Idle.ground, Option.map_id]
  rfl

theorem Idle.entry_ground : idle.ground.entry = Entry.later (s.log.next - 1) s.frames := by
  funext e
  rw [Ground.entry, Idle.ground, Option.map_id]
  rfl

theorem Idle.fault_ground (fault : Fault) : idle.ground.fault fault = fault := by
  rw [Ground.fault, Idle.ground, Option.map_id]
  rfl

/-- At the beginning of the run the session has what was there before and nothing else. -/
theorem Idle.running_begun (positive : 0 < s.log.next) (pending : s.pending = .nothing) :
    idle.ground.Running (initial s.log.verbose).begun s.begun := by
  refine ⟨⟨?heap, ?scopes, ?log, ?stack, ?frames, pending, ?output, ?runs⟩, List.cons_ne_nil _ _⟩
  case heap =>
    show s.heap.arrays = s.heap.arrays ++ (#[] : Array Pairs).map _
    rw [Array.map_empty, Array.append_empty]
  case scopes =>
    show s.scopes = ⟨(#[] : Array Scope).map _, none⟩
    rw [idle.scopes, Array.map_empty]
    rfl
  case log =>
    refine ⟨rfl, ⟨[], (List.append_nil _).symm, (List.append_nil _).symm⟩, .inl ⟨rfl, rfl, rfl⟩, ?_,
      (List.append_nil _).symm⟩
    show s.log.next = 1 + (s.log.next - 1)
    omega
  case stack =>
    show ⟨topLevel, s.frames, none⟩ :: s.stack = ⟨topLevel, 0 + s.frames, none⟩ :: s.stack
    rw [Nat.zero_add]
  case frames => exact Nat.add_comm s.frames 1
  case output => exact (Array.append_empty).symm
  case runs => exact Nat.add_comm s.runs 1

end Ground

/-! ## The run -/

/-- How a session `t` behind a run on top of `s` compares with the session `u` behind the same run
by itself. -/
structure Again (s u t : Session) : Prop where
  output : t.output = s.output ++ u.output
  steps : t.log.next + 1 = u.log.next + s.log.next
  entries : ∃ made, u.log.entries.toList = (initial s.log.verbose).log.entries.toList ++ made ∧
    t.log.entries.toList = s.log.entries.toList ++ made.map (Entry.later (s.log.next - 1) s.frames)
  frames : t.frames = u.frames + s.frames
  stack : t.stack = u.stack.map (Frame.later s.frames) ++ s.stack

theorem Again.of_over {s u t : Session} {idle : Idle s} (positive : 0 < s.log.next)
    (grafted : idle.ground.Over u t) : Again s u t := by
  refine ⟨grafted.output, ?_, ?_, grafted.frames, ?_⟩
  · have next : t.log.next = u.log.next + (s.log.next - 1) := grafted.log.next
    omega
  · have entries := grafted.log.entries
    rw [idle.entry_ground] at entries
    exact entries
  · have stack := grafted.stack
    rw [idle.frame_ground] at stack
    exact stack

/-- A run that changes nothing. -/
theorem Again.nothing (s : Session) : Again s (initial s.log.verbose) s where
  output := Array.append_empty.symm
  steps := Nat.add_comm _ _
  entries := ⟨[], (List.append_nil _).symm, (List.append_nil _).symm⟩
  frames := (Nat.zero_add _).symm
  stack := rfl

/-- **Running again is running afresh.** In a session that any runs have led to, and in which no
value is pending, a source ends as it does in a new session. It prints the same behind what has been
printed, and logs the same steps behind those that have been logged, under the same frames, with
numbers that go on from those before; at a fault its frames lie on top of the old stack, and the
report differs in the number of the step. -/
theorem runSource_again {s : Session} (reachable : Reachable s) (pending : s.pending = .nothing)
    (budget : Budget) (source : Source) :
    (s.runSource budget source).1 = ((initial s.log.verbose).runSource budget source).1 ∧
      Again s ((initial s.log.verbose).runSource budget source).2 (s.runSource budget source).2 ∧
      ∀ fault, (s.runSource budget source).1 = .failed fault →
        (s.runSource budget source).2.report fault =
          (((initial s.log.verbose).runSource budget source).2.report fault).later
            (s.log.next - 1) := by
  have positive := reachable.next_pos
  have running := reachable.idle.running_begun positive pending
  rw [runSource, runSource]
  cases Program.ofSource source with
  | error fault => exact ⟨rfl, .nothing s, fun _ ended => by cases ended⟩
  | ok program =>
      have ends := reachable.idle.ground.run running rfl budget program
      rw [(Relabelling.KeepsTrees.mk (fun _ => rfl) fun _ => rfl).program_eq] at ends
      dsimp only
      generalize (initial s.log.verbose).run budget program = o at ends
      generalize s.run budget program = o' at ends
      cases ends with
      | done grafted => exact ⟨rfl, .of_over positive grafted, fun _ ended => by cases ended⟩
      | @failed fault u t e grafted newest newest' =>
          rw [reachable.idle.fault_ground]
          refine ⟨rfl, .of_over positive grafted, fun _ _ => ?_⟩
          dsimp only
          rw [report, report, newest, newest', reachable.idle.entry_ground]
          rfl
      | outOfFuel => exact ⟨rfl, .nothing s, fun _ ended => by cases ended⟩

/-- A source that prints a number in a call, and fails there. -/
def tiring : Source :=
  ⟨"tiring", "f = func(n) \x7b print(n); return n + y; \x7d; f(1);"⟩

/-- A session in which it has failed twice. -/
def worn : Session :=
  (((initial true).runSource ⟨30, 10⟩ tiring).2.runSource ⟨30, 10⟩ tiring).2

theorem runSource_again_worn :
    Reachable worn ∧ worn.pending = .nothing ∧
      worn.stack.map Frame.name = ["f", topLevel, "f", topLevel] ∧
      ∃ fault, (worn.runSource ⟨30, 10⟩ tiring).1 = .failed fault ∧
        ((initial worn.log.verbose).runSource ⟨30, 10⟩ tiring).1 = .failed fault ∧
        Again worn ((initial worn.log.verbose).runSource ⟨30, 10⟩ tiring).2
          (worn.runSource ⟨30, 10⟩ tiring).2 ∧
        ((worn.runSource ⟨30, 10⟩ tiring).2.report fault).step = some 21 := by
  have reachable : Reachable worn := .runSource _ _ (.runSource _ _ (.initial true))
  have pending : worn.pending = .nothing := by
    have kind : worn.pending.kind = .nothing := by decide +kernel
    cases here : worn.pending with
    | nothing => rfl
    | number | text | boolean | array | function => rw [here] at kind; cases kind
  have failing : (failure? (worn.runSource ⟨30, 10⟩ tiring)).map
      (fun failed => (failed.2.report failed.1).step) = some (some 21) := by decide +kernel
  obtain ⟨⟨fault, t⟩, failed, step⟩ := Option.map_eq_some_iff.mp failing
  obtain ⟨same, again, -⟩ := runSource_again reachable pending ⟨30, 10⟩ tiring
  refine ⟨reachable, pending, by decide +kernel, fault, ?_⟩
  rw [← same]
  rw [of_failure? failed] at again ⊢
  exact ⟨rfl, rfl, again, step⟩

end Session

end Mini
