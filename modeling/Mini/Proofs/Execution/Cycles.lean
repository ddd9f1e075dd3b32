import Mini.Proofs.Execution.NamesOnly
import Mini.Proofs.Execution.Termination
import Mini.Proofs.Heap.Cycles

/-!
# Runs in which no array contains itself

Displays, snapshots and comparisons only go on without end where an array contains itself. A run
makes no such array by putting arrays together, passing them on or sharing them, but only by an
assignment that stores into an array a key or a value from which the array itself is reached. A
program that assigns to no entries never does.
-/

namespace Mini

open Session

/-! ## Heaps without cycles -/

/-- The event stores into an array a key or a value from which the array is reached, and in the heap
behind it the array has what was stored. -/
def Event.Closes (e : Event) (h : Heap) : Prop :=
  ∃ ref key v, e.deed = .assign ref key ∧
    e.session.heap.store (e.session.heap.read ref) key v = .ok (h.read ref) ∧
    e.session.heap.LeadsBack ref key v

theorem Heap.cycleFree_empty : Heap.empty.CycleFree :=
  Stratified.cycleFree (by decide)

theorem Heap.sound_empty : Heap.empty.Sound :=
  fun _ _ mem => nomatch mem

namespace Evolution

variable {h h' : Heap} {events : List Event}

/-- Without stores no cycle arises. -/
theorem cycleFree (evolution : Evolution h events h') (nothing : ∀ e ∈ events, e.stored = none)
    (sound : h.Sound) (free : h.CycleFree) : h'.CycleFree := by
  induction evolution with
  | refl => exact free
  | add owns later ih =>
      have one := (Evolution.add owns (.refl _)).sound sound
      exact ih nothing one (free.add sound owns)
  | @event e _ _ _ _ here leaves later ih =>
      subst here
      obtain ⟨none, nothing⟩ := List.forall_mem_cons.mp nothing
      cases leaves with
      | same => exact ih nothing sound free
      | stored deed =>
          rw [Event.stored, deed] at none
          cases none

/-- Behind an event there is no cycle, unless the event closes one. -/
theorem cycleFree_or_closes {e : Event} {h'' : Heap} (leaves : e.Leaves h')
    (later : Evolution h' [] h'') (sound : e.session.heap.Sound) (free : e.session.heap.CycleFree) :
    h''.CycleFree ∨ e.Closes h'' := by
  have sound' : h'.Sound := (Evolution.event rfl leaves (.refl _)).sound sound
  have onward : h'.CycleFree → h''.CycleFree :=
    later.cycleFree (fun _ mem => absurd mem List.not_mem_nil) sound'
  cases leaves with
  | same => exact .inl (onward free)
  | @stored ref key v pairs deed _ _ stored =>
      by_cases back : e.session.heap.LeadsBack ref key v
      · by_cases there : ref.index < e.session.heap.arrays.size
        · refine .inr ⟨ref, key, v, deed, ?_, back⟩
          have size : (e.session.heap.write ref pairs).arrays.size = e.session.heap.arrays.size :=
            Array.size_setIfInBounds
          have kept := later.evolves.read ref (size ▸ there) List.not_mem_nil
          have read : (e.session.heap.write ref pairs).read ref = pairs :=
            Heap.read_write_self there pairs
          rw [kept, read, stored]
        · rw [Heap.write_of_size_le (Nat.le_of_not_lt there)] at onward
          exact .inl (onward free)
      · exact .inl (onward (free.write stored back))

end Evolution

namespace Session

/-! ## Sessions that runs go through -/

section Moment

variable {verbose : Bool} {history : List Event} {e : Event} {s t : Session}

/-- Before anything has been done there is no cycle. -/
theorem Moment.cycleFree_of_nil (moment : Moment verbose [] s) : s.heap.CycleFree :=
  moment.evolution.cycleFree (fun _ mem => absurd mem List.not_mem_nil) Heap.sound_empty
    Heap.cycleFree_empty

/-- From an event to the next session no cycle arises, unless the event closes one. -/
theorem Moment.cycleFree_or_closes (moment : Moment verbose (history ++ [e]) t)
    (free : e.session.heap.CycleFree) : t.heap.CycleFree ∨ e.Closes t.heap := by
  obtain ⟨before, h, leaves, later⟩ := moment.evolution.split
  exact Evolution.cycleFree_or_closes leaves later (before.sound Heap.sound_empty) free

/-- One step of a run: from its beginning to its first event, from one event to the next, and from
its last event to its end. Without any events a run is one step. -/
inductive Step (verbose : Bool) : Session → Option Event → Session → Prop
  | begins {endings : List Ending} {history after : List Event} {s : Session} {budget : Budget}
      {source : Source} {e : Event} :
      Recorded verbose endings history s → historyOfSource budget source s = e :: after →
        Step verbose s none e.session
  | goesOn {endings : List Ending} {history before after : List Event} {s : Session}
      {budget : Budget} {source : Source} {e e' : Event} :
      Recorded verbose endings history s →
      historyOfSource budget source s = before ++ e :: e' :: after →
        Step verbose e.session (some e) e'.session
  | ends {endings : List Ending} {history before : List Event} {s t : Session} {budget : Budget}
      {source : Source} {ending : Ending} {e : Event} :
      Recorded verbose endings history s → s.runSource budget source = (ending, t) → ending.Ends →
      historyOfSource budget source s = before ++ [e] → Step verbose e.session (some e) t
  | passes {endings : List Ending} {history : List Event} {s t : Session} {budget : Budget}
      {source : Source} {ending : Ending} :
      Recorded verbose endings history s → s.runSource budget source = (ending, t) → ending.Ends →
      historyOfSource budget source s = [] → Step verbose s none t

/-- Between neighbouring events of a history lies one step. -/
theorem Step.of_neighbours {endings : List Ending} {budget : Budget} {source : Source} {e' : Event}
    (recorded : Recorded verbose endings history s) {i : Nat}
    (here : (historyOfSource budget source s)[i]? = some e)
    (next : (historyOfSource budget source s)[i + 1]? = some e') :
    Step verbose e.session (some e) e'.session := by
  obtain ⟨lt, rfl⟩ := List.getElem?_eq_some_iff.mp here
  obtain ⟨lt', rfl⟩ := List.getElem?_eq_some_iff.mp next
  have split := (List.take_append_drop i (historyOfSource budget source s)).symm
  rw [List.drop_eq_getElem_cons lt, List.drop_eq_getElem_cons lt'] at split
  exact .goesOn recorded split

/-- No cycle arises in a step, unless its event closes one. -/
theorem Step.cycleFree_or_closes {deed : Option Event} (step : Step verbose s deed t)
    (free : s.heap.CycleFree) : t.heap.CycleFree ∨ ∃ e, deed = some e ∧ e.Closes t.heap := by
  have quiet : ∀ {h}, s.heap.Sound → Evolution s.heap [] h → h.CycleFree := fun sound evolution =>
    evolution.cycleFree (fun _ mem => absurd mem List.not_mem_nil) sound free
  cases step with
  | @begins endings history after s budget source e recorded split =>
      obtain ⟨h, evolution⟩ := recorded.evolution_run budget source
      rw [split, ← List.nil_append (e :: after)] at evolution
      exact .inl (quiet recorded.orderly.sound evolution.split.1)
  | @goesOn endings history before after s budget source e e' recorded split =>
      have whole : historyOfSource budget source s = (before ++ [e]) ++ e' :: after := by
        rw [split, List.append_assoc, List.singleton_append]
      have moment : Moment verbose ((history ++ before) ++ [e]) e'.session := by
        rw [List.append_assoc]
        exact .within recorded whole
      exact (moment.cycleFree_or_closes free).imp_right fun closes => ⟨e, rfl, closes⟩
  | @ends endings history before s t budget source ending e recorded ran ends split =>
      have moment : Moment verbose ((history ++ before) ++ [e]) t := by
        have all := recorded.run ran ends
        rw [split, ← List.append_assoc] at all
        exact .between all
      exact (moment.cycleFree_or_closes free).imp_right fun closes => ⟨e, rfl, closes⟩
  | passes recorded ran ends split =>
      have evolution := (ran_of_runSource ran).evolution recorded.orderly ends
      rw [split] at evolution
      exact .inl (quiet recorded.orderly.sound evolution)

/-- Where there is a cycle, some event has closed the first one. -/
theorem Moment.exists_closes (moment : Moment verbose history s) (cyclic : ¬s.heap.CycleFree) :
    ∃ before e after t, history = before ++ e :: after ∧ Moment verbose (before ++ [e]) t ∧
      e.session.heap.CycleFree ∧ e.Closes t.heap := by
  induction history using List.reverseRecOn generalizing s with
  | nil => exact absurd moment.cycleFree_of_nil cyclic
  | append_singleton history e ih =>
      by_cases free : e.session.heap.CycleFree
      · have closes := (moment.cycleFree_or_closes free).resolve_left cyclic
        exact ⟨history, e, [], s, rfl, moment, free, closes⟩
      · obtain ⟨before, e', after, t, rfl, moment', free', closes⟩ := ih (moment.at_event rfl) free
        exact ⟨before, e', after ++ [e], t, by simp, moment', free', closes⟩

end Moment

/-! ## Programs without assignments to entries -/

/-- The sessions that runs of one source go through: between two runs, and right before each event
of a run. -/
inductive Visits (source : Source) (verbose : Bool) : Session → Prop
  | between {s : Session} : RunsOf source verbose s → Visits source verbose s
  | within {s : Session} {budget : Budget} {e : Event} : RunsOf source verbose s →
      e ∈ historyOfSource budget source s → Visits source verbose e.session

section NamesOnly

variable {source : Source} {verbose : Bool} {program : Program} {s : Session}
  (read : Program.ofSource source = .ok program) (names : program.NamesOnly)
include read names

theorem RunsOf.recorded (runs : RunsOf source verbose s) : ∃ endings history,
    Recorded verbose endings history s ∧ ∀ e ∈ history, e.stored = none := by
  induction runs with
  | initial => exact ⟨[], [], .initial, fun _ mem => absurd mem List.not_mem_nil⟩
  | @run s budget runs ih =>
      obtain ⟨endings, history, recorded, nothing⟩ := ih
      generalize ran : s.runSource budget source = ended
      obtain ⟨ending, t⟩ := ended
      have stored := (runs.namesOnly read names).nothing_stored read names budget
      have both := List.forall_mem_append.mpr ⟨nothing, stored⟩
      cases ending with
      | finished => exact ⟨_, _, recorded.run ran trivial, both⟩
      | rejected fault => exact ⟨_, _, recorded.run ran trivial, both⟩
      | failed fault => exact ⟨_, _, recorded.run ran trivial, both⟩
      | unfinished =>
          -- a run without end leaves the session as it was
          have ended := ran_of_runSource ran
          generalize historyOfSource budget source s = events at ended
          cases ended
          exact ⟨endings, history, recorded, nothing⟩

theorem Visits.moment (visits : Visits source verbose s) : ∃ history,
    Moment verbose history s ∧ ∀ e ∈ history, e.stored = none := by
  cases visits with
  | between runs =>
      obtain ⟨endings, history, recorded, nothing⟩ := runs.recorded read names
      exact ⟨history, .between recorded, nothing⟩
  | @within s budget e runs mem =>
      obtain ⟨endings, history, recorded, nothing⟩ := runs.recorded read names
      obtain ⟨before, after, split⟩ := List.append_of_mem mem
      have stored := (runs.namesOnly read names).nothing_stored read names budget
      rw [split] at stored
      have front := (List.forall_mem_append.mp stored).1
      exact ⟨_, .within recorded split, List.forall_mem_append.mpr ⟨nothing, front⟩⟩

theorem Visits.cycleFree (visits : Visits source verbose s) : s.heap.CycleFree := by
  obtain ⟨history, moment, nothing⟩ := visits.moment read names
  exact moment.evolution.cycleFree nothing Heap.sound_empty Heap.cycleFree_empty

end NamesOnly

/-- **Arrays come to contain themselves only by being stored into themselves.** In a session whose
arrays form no cycle all displays, comparisons and snapshots come to an end, so a run that fails
because one of them does not leaves a cycle. From there on no step of any run makes a cycle, unless
it is an assignment that stores into an array a key or a value from which this array is reached. So
where there is a cycle, the history shows such an assignment. A program that assigns to no entries
of arrays never comes to a session with a cycle, however often it is run, and no run of it fails for
want of an end. -/
theorem cycles_by_storing (verbose : Bool) :
    (∀ s : Session, s.heap.CycleFree → Terminates s) ∧
    (∀ (s : Session) budget source fault t, s.runSource budget source = (.failed fault, t) →
      fault.cause = .limit .nesting → ¬t.heap.CycleFree) ∧
    (∀ s deed t, Step verbose s deed t → s.heap.CycleFree →
      t.heap.CycleFree ∨ ∃ e, deed = some e ∧ e.Closes t.heap) ∧
    (∀ history s, Moment verbose history s → ¬s.heap.CycleFree →
      ∃ before e after t, history = before ++ e :: after ∧ Moment verbose (before ++ [e]) t ∧
        e.session.heap.CycleFree ∧ e.Closes t.heap) ∧
    ∀ source program, Program.ofSource source = .ok program → program.NamesOnly →
      (∀ s, Visits source verbose s → s.heap.CycleFree ∧ Terminates s) ∧
      ∀ s budget fault, RunsOf source verbose s → (s.runSource budget source).1 = .failed fault →
        fault.cause ≠ .limit .nesting := by
  refine ⟨fun s => terminates_of_cycleFree, fun s budget source fault t => cyclic_of_nesting,
    fun s deed t => Step.cycleFree_or_closes, fun history s => Moment.exists_closes,
    fun source program read names => ⟨fun s visits => ?_, fun s budget fault runs failed => ?_⟩⟩
  · have free := visits.cycleFree read names
    exact ⟨free, terminates_of_cycleFree free⟩
  · intro nesting
    have free := (Visits.between (runs.run budget)).cycleFree read names
    exact cyclic_of_nesting (Prod.ext failed rfl) nesting free

/-- A source that stores an array into one that it holds, and prints it. -/
def knot : Source :=
  ⟨"knot", "a = [1]; b = [a]; a[0] = b; print(a);"⟩

/-- A source that puts an array into another twice, and passes both on. -/
def sharing : Source :=
  ⟨"sharing", "a = [1]; b = [a, a]; f = func(x) { return [x, b]; }; print(f(a));"⟩

theorem cycles_by_storing_knot :
    (∃ s e t, Step false s (some e) t ∧ s.heap.CycleFree ∧ ¬t.heap.CycleFree ∧ e.Closes t.heap) ∧
    (∃ fault t, (initial false).runSource ⟨30, 10⟩ knot = (.failed fault, t) ∧
      fault.cause = .limit .nesting ∧ ¬t.heap.CycleFree ∧
      ∃ e ∈ historyOfSource ⟨30, 10⟩ knot (initial false), ∃ h, e.Closes h) ∧
    ∃ s program, Program.ofSource sharing = .ok program ∧ program.NamesOnly ∧
      Visits sharing false s ∧ s.output.toList = ["[0:[0:1],1:[0:[0:1],1:[0:1]]]"] ∧
      Terminates s := by
  obtain ⟨-, failures, steps, moments, names⟩ := cycles_by_storing false
  refine ⟨?_, ?_, ?_⟩
  · have shown : (((historyOfSource ⟨30, 10⟩ knot (initial false))[8]?.any fun e =>
          e.session.heap.Stratified) &&
        ((historyOfSource ⟨30, 10⟩ knot (initial false))[9]?.any fun e =>
          e.session.heap.display (.array ⟨0⟩) = .error .nesting)) = true := by
      decide +kernel
    obtain ⟨here, there⟩ := Bool.and_eq_true_iff.mp shown
    obtain ⟨e, storing, stratified⟩ := (Option.any_eq_true _ _).mp here
    obtain ⟨e', next, display⟩ := (Option.any_eq_true _ _).mp there
    have free := (of_decide_eq_true stratified).cycleFree
    have cyclic : ¬e'.session.heap.CycleFree := by
      intro free'
      cases Heap.display_error (of_decide_eq_true display) with
      | nesting _ contains => exact free' _ contains
    have step : Step false e.session (some e) e'.session := .of_neighbours .initial storing next
    obtain ⟨closing, same, closes⟩ := (steps _ _ _ step free).resolve_left cyclic
    cases same
    exact ⟨_, e, _, step, free, cyclic, closes⟩
  · have shown : ((failure? ((initial false).runSource ⟨30, 10⟩ knot)).any fun ended =>
        ended.1.cause = .limit .nesting) = true := by
      decide +kernel
    obtain ⟨⟨fault, t⟩, failed, hit⟩ := (Option.any_eq_true _ _).mp shown
    have ran := of_failure? failed
    have nesting : fault.cause = .limit .nesting := of_decide_eq_true hit
    have cyclic := failures _ _ _ _ _ ran nesting
    have recorded := Recorded.initial.run ran trivial
    obtain ⟨before, e, after, u, split, -, -, closes⟩ := moments _ t (.between recorded) cyclic
    refine ⟨fault, t, ran, nesting, cyclic, e, ?_, u.heap, closes⟩
    rw [List.nil_append] at split
    rw [split]
    exact List.mem_append_right _ List.mem_cons_self
  · have read : (Program.ofSource sharing).toOption.map (fun program => decide program.NamesOnly) =
        some true := by
      decide +kernel
    obtain ⟨program, parsed, only⟩ := Option.map_eq_some_iff.mp read
    have output : ((initial false).runSource ⟨30, 10⟩ sharing).2.output.toList =
        ["[0:[0:1],1:[0:[0:1],1:[0:1]]]"] := by
      decide +kernel
    have visits : Visits sharing false ((initial false).runSource ⟨30, 10⟩ sharing).2 :=
      .between (.run _ .initial)
    have ok : Program.ofSource sharing = .ok program := by
      cases both : Program.ofSource sharing with
      | ok other =>
          rw [both] at parsed
          exact congrArg Except.ok (Option.some.inj parsed)
      | error fault =>
          rw [both] at parsed
          cases parsed
    have ends := (names sharing program ok (of_decide_eq_true only)).1 _ visits
    exact ⟨_, program, ok, of_decide_eq_true only, visits, output, ends.2⟩

end Session

end Mini
