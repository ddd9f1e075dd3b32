import Mini.Proofs.Execution.Orderly

/-!
# Sessions that runs go through

A sequence of runs goes through many sessions: those between two runs, and those right before each
event of a run, whether or not that run comes to an end. All of them are in order, and their heaps
have evolved by way of the history so far.
-/

namespace Mini.Session

open Exec

/-! ## Sessions in order -/

/-- The sessions that runs go through, with all that has been done before: those between two runs,
and those right before an event of a run, which need not come to an end. -/
inductive Moment (verbose : Bool) : List Event → Session → Prop
  | between {endings : List Ending} {history : List Event} {s : Session} :
      Recorded verbose endings history s → Moment verbose history s
  | within {endings : List Ending} {history before after : List Event} {s : Session}
      {budget : Budget} {source : Source} {e : Event} :
      Recorded verbose endings history s →
      historyOfSource budget source s = before ++ e :: after →
        Moment verbose (history ++ before) e.session

theorem orderly_initial (verbose : Bool) : Orderly [] (initial verbose) := by
  have empty : ∀ ref, (initial verbose).heap.read ref = [] := fun _ => rfl
  refine ⟨fun ref => ?_, fun v binds => ?_, Heap.owns_of_plain fun _ => nofun, fun ref => ?_⟩
  · rw [empty]
    exact fun _ mem => absurd mem List.not_mem_nil
  · obtain ⟨handle, scope, there, -⟩ := binds
    cases there
  · rw [empty]
    exact .nil

theorem Orderly.begun {history : List Event} {s : Session} (orderly : Orderly history s) :
    Orderly history s.begun :=
  orderly.of_stores rfl

/-- A run that has come to an end leaves all in order. -/
theorem Ran.orderly {budget : Budget} {s t : Session} {history events : List Event}
    {ending : Ending} (ran : Ran budget s events ending t) (orderly : Orderly history s)
    (ends : ending.Ends) : Orderly (history ++ events) t := by
  cases ran with
  | rejected fault => rwa [List.append_nil]
  | @finished program u here =>
      exact ((tracked_secures.programBody budget program s.frames).done orderly.begun holding_nil
        here).1.pop
  | @failed program fault t here =>
      exact (tracked_secures.programBody budget program s.frames).failed orderly.begun holding_nil
        here
  | unfinished => exact ends.elim

theorem Recorded.orderly {verbose : Bool} {endings : List Ending} {history : List Event}
    {s : Session} (recorded : Recorded verbose endings history s) : Orderly history s := by
  induction recorded with
  | initial => exact orderly_initial verbose
  | run _ ran ends ih => exact (ran_of_runSource ran).orderly ih ends

theorem Moment.orderly {verbose : Bool} {history : List Event} {s : Session}
    (moment : Moment verbose history s) : Orderly history s := by
  cases moment with
  | between recorded => exact recorded.orderly
  | @within endings history before after s budget source e recorded split =>
      unfold historyOfSource at split
      split at split
      · rename_i program read
        exact (tracked_secures.programBody budget program s.frames).within recorded.orderly.begun
          holding_nil before e after split
      · cases before <;> cases split

/-! ## How the heap evolves -/

theorem Ran.evolution {budget : Budget} {s t : Session} {history events : List Event}
    {ending : Ending} (ran : Ran budget s events ending t) (orderly : Orderly history s)
    (ends : ending.Ends) : Evolution s.heap events t.heap := by
  cases ran with
  | rejected fault => exact .refl _
  | @finished program u here =>
      obtain ⟨h, evolution, ended⟩ :=
        (tracked_secures.programBody budget program s.frames).evolution orderly.begun holding_nil
      rw [pop_heap, ended u (congrArg left? here)]
      exact evolution
  | @failed program fault t here =>
      obtain ⟨h, evolution, ended⟩ :=
        (tracked_secures.programBody budget program s.frames).evolution orderly.begun holding_nil
      rw [ended t (congrArg left? here)]
      exact evolution
  | unfinished => exact ends.elim

theorem Recorded.evolution {verbose : Bool} {endings : List Ending} {history : List Event}
    {s : Session} (recorded : Recorded verbose endings history s) :
    Evolution .empty history s.heap := by
  induction recorded with
  | initial => exact .refl _
  | run recorded ran ends ih =>
      exact ih.trans ((ran_of_runSource ran).evolution recorded.orderly ends)

/-- The heap evolves by way of the history of a run, whether or not the run comes to an end. -/
theorem Recorded.evolution_run {verbose : Bool} {endings : List Ending} {history : List Event}
    {s : Session} (recorded : Recorded verbose endings history s) (budget : Budget)
    (source : Source) : ∃ h, Evolution s.heap (historyOfSource budget source s) h := by
  unfold historyOfSource
  split
  · rename_i program read
    have secures := tracked_secures.programBody budget program s.frames
    obtain ⟨h, evolution, -⟩ := secures.evolution recorded.orderly.begun holding_nil
    exact ⟨h, evolution⟩
  · exact ⟨s.heap, .refl _⟩

/-- The heap of a session that runs go through has evolved from no arrays. -/
theorem Moment.evolution {verbose : Bool} {history : List Event} {s : Session}
    (moment : Moment verbose history s) : Evolution .empty history s.heap := by
  cases moment with
  | between recorded => exact recorded.evolution
  | @within endings history before after s budget source e recorded split =>
      obtain ⟨h, evolution⟩ := recorded.evolution_run budget source
      exact recorded.evolution.trans (split ▸ evolution).split.1

/-! ## Sessions along a history -/

theorem Recorded.moment {verbose : Bool} {endings : List Ending} {history before after : List Event}
    {s : Session} {e : Event} (recorded : Recorded verbose endings history s)
    (split : history = before ++ e :: after) : Moment verbose before e.session := by
  induction recorded generalizing before after with
  | initial => cases before <;> cases split
  | run recorded ran ends ih =>
      rcases split_append split with ⟨rest, inside⟩ | ⟨rest, rfl, behind⟩
      · exact ih inside
      · exact .within recorded behind

/-- Right before each event of a history there is a session that runs go through. -/
theorem Moment.at_event {verbose : Bool} {history before after : List Event} {s : Session}
    {e : Event} (moment : Moment verbose history s) (split : history = before ++ e :: after) :
    Moment verbose before e.session := by
  cases moment with
  | between recorded => exact recorded.moment split
  | @within endings history' before' after' s budget source e' recorded inRun =>
      rcases split_append split with ⟨rest, inside⟩ | ⟨rest, rfl, behind⟩
      · exact recorded.moment inside
      · have whole : historyOfSource budget source s = rest ++ e :: (after ++ e' :: after') := by
          rw [inRun, behind, List.append_assoc, List.cons_append]
        exact .within recorded whole

end Mini.Session
