import Mathlib.Data.List.DropRight
import Mini.Proofs.Execution.Restoration
import Mini.Proofs.Text.Numeral

/-!
# Keeping the books

Frames come onto the stack and go, steps are logged and entries recorded, in any order and as often
as one likes. What each of these acts does is booked in a ledger, and what the log and the stack of
the session hold can be read off the ledger alone: `Agrees` is kept by every act. So entries are
numbered in the order in which they were made, frames in the order in which they came, and no two
identifiers are equal, whatever their length. The log knows a frame by the newest entry made under
it since it last went, which for a frame that still stands is the newest one at all.

An entry is made under the frame that it names. A step names the frame on top, but what is recorded
by hand may name another frame, or none, while some frame is on top: such an entry does not
become the newest one of the frame on top, and one that names a frame that has gone makes the log
know that frame again.
-/

namespace Mini

/-! ## Identifiers -/

theorem frameId_injective : Function.Injective frameId := by
  intro m n same
  exact Text.paddedText_injective 4 ((String.append_right_inj _).mp same)

theorem Entry.index_eq_of_stateId {e e' : Entry} (same : e.stateId = e'.stateId) :
    e.index = e'.index :=
  Text.paddedText_injective 6 ((String.append_right_inj _).mp same)

/-- Where things are numbered from zero on, identifiers that tell the number are all different. -/
theorem nodup_identifiers {α : Type} {things : List α} {number : α → Nat} {identifier : α → String}
    {n : Nat} (numbers : things.map number = List.range n)
    (tells : ∀ a b, identifier a = identifier b → number a = number b) :
    (things.map identifier).Nodup := by
  have distinct : (things.map number).Nodup := by
    rw [numbers]
    exact List.nodup_range
  rw [List.Nodup, List.pairwise_map] at distinct ⊢
  exact distinct.imp fun differ same => differ (tells _ _ same)

/-! ## Acts and what is booked of them -/

/-- What can be done to the books of a session. An entry can be recorded under any frame, or under
none. In between, arrays and bindings may become any others. -/
inductive Act
  | push (name : String) (callLocation : Option Location)
  | pop
  | log (rule : String) (location : Option Location) (fields : Details)
  | record (frame : Option Nat) (location : Option Location) (statement : Option String)
      (env : Option (OrderedMap String String)) (details : Option Details)
  | meanwhile (heap : Heap) (scopes : Scopes)

namespace Act

/-- An entry that is recorded by hand names the frame on top, if one is. -/
def namesTop (top : Option Nat) : Act → Bool
  | .record frame _ _ _ _ => frame = top
  | .push .. | .pop | .log .. | .meanwhile .. => true

/-- An entry that is recorded by hand names the frame on top, or none. -/
def isInPlace (top : Option Nat) : Act → Bool
  | .record frame _ _ _ _ => frame = none || frame = top
  | .push .. | .pop | .log .. | .meanwhile .. => true

end Act

/-- What an act has done: a frame came onto the stack, or went, or an entry was made while the
frame of the given number, or none, was on top. -/
inductive Booking
  | pushed (frame : Frame)
  | popped (frame : Frame)
  | made (top : Option Nat) (e : Entry)

namespace Booking

/-- The entry that was made. -/
def entry? : Booking → Option Entry
  | .made _ e => some e
  | .pushed _ | .popped _ => none

/-- The frame that came. -/
def frame? : Booking → Option Frame
  | .pushed frame => some frame
  | .popped _ | .made .. => none

/-- The entry that was made under a frame. -/
def under? (id : Nat) : Booking → Option Entry
  | .made _ e => if e.frame = some id then some e else none
  | .pushed _ | .popped _ => none

/-- The entry that was made while a frame was on top, whichever frame it names. -/
def onTop? (id : Nat) : Booking → Option Entry
  | .made top e => if top = some id then some e else none
  | .pushed _ | .popped _ => none

/-- A frame went. -/
def releases (id : Nat) : Booking → Bool
  | .popped frame => frame.id = id
  | .pushed _ | .made .. => false

/-- An entry names the frame on top, if one is. -/
def namesTop : Booking → Bool
  | .made top e => e.frame = top
  | .pushed _ | .popped _ => true

/-- An entry names the frame on top, or none. -/
def isInPlace : Booking → Bool
  | .made top e => e.frame = none || e.frame = top
  | .pushed _ | .popped _ => true

end Booking

/-- All bookings, oldest first. -/
abbrev Ledger := List Booking

namespace Ledger

/-- The entries that were made. -/
def entries (ledger : Ledger) : List Entry :=
  ledger.filterMap Booking.entry?

/-- The frames that came. -/
def frames (ledger : Ledger) : List Frame :=
  ledger.filterMap Booking.frame?

/-- The newest entry made under a frame. -/
def newest (ledger : Ledger) (id : Nat) : Option Entry :=
  (ledger.filterMap (·.under? id)).getLast?

/-- The newest entry made while a frame was on top. -/
def newestOnTop (ledger : Ledger) (id : Nat) : Option Entry :=
  (ledger.filterMap (·.onTop? id)).getLast?

/-- A frame went at some time. -/
def released (ledger : Ledger) (id : Nat) : Bool :=
  ledger.any (·.releases id)

/-- What was booked since a frame last went: all, if it never did. -/
def sinceRelease (ledger : Ledger) (id : Nat) : Ledger :=
  ledger.rtakeWhile fun b => !b.releases id

/-! ### One more booking -/

theorem entries_concat (ledger : Ledger) (b : Booking) :
    entries (ledger ++ [b]) = ledger.entries ++ b.entry?.toList := by
  simp only [entries, List.filterMap_append, List.filterMap_cons, List.filterMap_nil]
  cases b.entry? <;> rfl

theorem frames_concat (ledger : Ledger) (b : Booking) :
    frames (ledger ++ [b]) = ledger.frames ++ b.frame?.toList := by
  simp only [frames, List.filterMap_append, List.filterMap_cons, List.filterMap_nil]
  cases b.frame? <;> rfl

theorem released_concat (ledger : Ledger) (b : Booking) (id : Nat) :
    released (ledger ++ [b]) id = (ledger.released id || b.releases id) := by
  simp [released]

theorem newest_concat (ledger : Ledger) (b : Booking) (id : Nat) :
    newest (ledger ++ [b]) id = (b.under? id).or (ledger.newest id) := by
  simp only [newest, List.filterMap_append, List.filterMap_cons, List.filterMap_nil]
  cases b.under? id <;> simp

theorem newest_sinceRelease_concat (ledger : Ledger) (b : Booking) (id : Nat) :
    newest (sinceRelease (ledger ++ [b]) id) id =
      if b.releases id then none else (b.under? id).or (newest (ledger.sinceRelease id) id) := by
  rw [sinceRelease, List.rtakeWhile_concat]
  by_cases gone : b.releases id = true
  · simp [gone, newest]
  · simp only [gone, Bool.not_false, if_true, newest_concat]
    rfl

/-- A frame that never went has the newest entry of all. -/
theorem newest_sinceRelease_of_not_released {ledger : Ledger} {id : Nat}
    (stands : ledger.released id = false) :
    newest (ledger.sinceRelease id) id = ledger.newest id := by
  have whole : ledger.sinceRelease id = ledger := by
    refine List.rtakeWhile_eq_self_iff.mpr fun b mem => ?_
    simpa using List.any_eq_false.mp stands b mem
  rw [whole]

/-- If every entry names the frame on top, it comes to the same whether the newest one is sought
by the frame that it names or by the one that was on top. -/
theorem newest_eq_newestOnTop {ledger : Ledger} (tops : ∀ b ∈ ledger, b.namesTop = true)
    (id : Nat) : ledger.newest id = ledger.newestOnTop id := by
  have same : ∀ b ∈ ledger, b.under? id = b.onTop? id := by
    intro b mem
    cases b with
    | pushed | popped => rfl
    | made top e =>
        have names : e.frame = top := by simpa [Booking.namesTop] using tops _ mem
        rw [Booking.under?, Booking.onTop?, names]
  rw [newest, newestOnTop, List.filterMap_congr same]

end Ledger

namespace Session

/-- The number of the frame on top. -/
def topId (s : Session) : Option Nat :=
  s.stack.head?.map Frame.id

/-- The session behind an act. To take a frame off an empty stack does nothing, nor does a step
whose snapshot hits a limit. -/
def perform (s : Session) : Act → Session
  | .push name callLocation => s.push name callLocation
  | .pop => s.pop
  | .log rule location fields =>
      match s.step rule location fields with
      | .ok e => s.record e
      | .error _ => s
  | .record frame location statement env details =>
      s.record (s.log.entry frame location statement env details)
  | .meanwhile heap scopes => { s with heap := heap, scopes := scopes }

/-- What is booked of an act. -/
def booking? (s : Session) : Act → Option Booking
  | .push name callLocation => (s.push name callLocation).stack.head?.map .pushed
  | .pop => s.stack.head?.map .popped
  | .log rule location fields => (s.step rule location fields).toOption.map (.made s.topId)
  | .record frame location statement env details =>
      some (.made s.topId (s.log.entry frame location statement env details))
  | .meanwhile _ _ => none

/-- The session behind a sequence of acts. -/
def performAll (s : Session) (acts : List Act) : Session :=
  acts.foldl perform s

/-- What is booked of a sequence of acts. -/
def bookings (s : Session) : List Act → Ledger
  | [] => []
  | act :: acts => (s.booking? act).toList ++ (s.perform act).bookings acts

/-- Every act of a sequence is as it should be where a certain frame, or none, is on top. -/
def each (p : Option Nat → Act → Bool) (s : Session) : List Act → Bool
  | [] => true
  | act :: acts => p s.topId act && (s.perform act).each p acts

/-- The entry with which every log begins. -/
def seed : Entry :=
  ⟨0, none, none, some "<seed>", none, some [("rule", .text "SEED")]⟩

/-- The ledger of a sequence of acts on a new session. -/
def ledgerOf (verbose : Bool) (acts : List Act) : Ledger :=
  .made none seed :: (initial verbose).bookings acts

/-! ### Acts and their bookings -/

theorem forall_bookings {p : Option Nat → Act → Bool} {q : Booking → Bool}
    (booked : ∀ (s : Session) (act : Act), p s.topId act = true →
      ∀ b ∈ (s.booking? act).toList, q b = true)
    {s : Session} {acts : List Act} (all : s.each p acts = true) :
    ∀ b ∈ s.bookings acts, q b = true := by
  induction acts generalizing s with
  | nil =>
      intro b mem
      exact absurd mem List.not_mem_nil
  | cons act acts ih =>
      rw [each, Bool.and_eq_true] at all
      intro b mem
      rcases List.mem_append.mp mem with here | later
      · exact booked s act all.1 b here
      · exact ih all.2 b later

/-- A step always names the frame on top, so only what is recorded by hand may not. -/
theorem namesTop_of_booked (s : Session) (act : Act) (names : act.namesTop s.topId = true) :
    ∀ b ∈ (s.booking? act).toList, b.namesTop = true := by
  intro b mem
  cases act with
  | push name callLocation =>
      rw [List.mem_singleton.mp mem]
      rfl
  | pop =>
      obtain ⟨frame, -, rfl⟩ := Option.map_eq_some_iff.mp (Option.mem_toList.mp mem)
      rfl
  | log rule location fields =>
      rw [booking?] at mem
      cases made : s.step rule location fields with
      | error limit =>
          rw [made] at mem
          exact absurd mem List.not_mem_nil
      | ok e =>
          rw [made] at mem
          rw [List.mem_singleton.mp mem]
          exact decide_eq_true (frame_of_step made)
  | record frame location statement env details =>
      rw [List.mem_singleton.mp mem]
      exact names
  | meanwhile heap scopes => exact absurd mem List.not_mem_nil

theorem isInPlace_of_booked (s : Session) (act : Act) (inPlace : act.isInPlace s.topId = true) :
    ∀ b ∈ (s.booking? act).toList, b.isInPlace = true := by
  intro b mem
  have weaken : b.namesTop = true → b.isInPlace = true := by
    cases b with
    | pushed | popped => exact fun _ => rfl
    | made top e => simpa [Booking.namesTop, Booking.isInPlace] using Or.inr
  cases act with
  | record frame location statement env details =>
      rw [List.mem_singleton.mp mem]
      exact inPlace
  | push | pop | log | meanwhile => exact weaken (namesTop_of_booked s _ rfl b mem)

/-! ## Entries of the log -/

/-- The log has numbered the entries of the ledger in order, its newest one is theirs, and it
retains all of them or none. -/
structure Counts (log : StepLog) (ledger : Ledger) : Prop where
  indices : ledger.entries.map Entry.index = List.range log.next
  last : log.last = ledger.entries.getLast?
  retained : log.entries.toList = if log.verbose then ledger.entries else []

namespace Counts

variable {log : StepLog} {ledger : Ledger}

/-- A booking without an entry leaves the log alone. -/
theorem quiet (h : Counts log ledger) {b : Booking} (quiet : b.entry? = none) :
    Counts log (ledger ++ [b]) := by
  have same : Ledger.entries (ledger ++ [b]) = ledger.entries := by
    simp [Ledger.entries_concat, quiet]
  constructor
  · rw [same, h.indices]
  · rw [same, h.last]
  · rw [same, h.retained]

theorem release (h : Counts log ledger) (id : Nat) : Counts (log.release id) ledger :=
  ⟨h.indices, h.last, h.retained⟩

theorem add (h : Counts log ledger) {e : Entry} (index : e.index = log.next) {b : Booking}
    (made : b.entry? = some e) : Counts (log.add e) (ledger ++ [b]) := by
  have more : Ledger.entries (ledger ++ [b]) = ledger.entries ++ [e] := by
    simp [Ledger.entries_concat, made]
  constructor
  · rw [more, List.map_append, h.indices]
    simp [StepLog.add, List.range_succ, index]
  · rw [more, List.getLast?_concat]
    rfl
  · rw [more]
    by_cases verbose : log.verbose = true <;> simp [StepLog.add, verbose, h.retained]

/-- The entry in a place has the number of that place. -/
theorem index_eq (h : Counts log ledger) {n : Nat} {e : Entry}
    (there : ledger.entries[n]? = some e) : e.index = n := by
  have number : (List.range log.next)[n]? = some e.index := by
    rw [← h.indices, List.getElem?_map, there]
    rfl
  obtain ⟨inside, number⟩ := List.getElem?_eq_some_iff.mp number
  rw [List.getElem_range] at number
  exact number.symm

end Counts

/-! ## Frames on the stack -/

/-- Frames have been numbered in the order in which they came, and those on the stack are apart
from each other and from all that went. -/
structure Stacks (stack : List Frame) (next : Nat) (ledger : Ledger) : Prop where
  opened : ledger.frames.map Frame.id = List.range next
  numbered : ∀ frame ∈ stack, frame.id < next
  distinct : (stack.map Frame.id).Nodup
  released : ∀ id, ledger.released id = true → id < next ∧ id ∉ stack.map Frame.id

namespace Stacks

variable {stack : List Frame} {next : Nat} {ledger : Ledger}

theorem made (h : Stacks stack next ledger) (top : Option Nat) (e : Entry) :
    Stacks stack next (ledger ++ [.made top e]) := by
  refine ⟨?_, h.numbered, h.distinct, ?_⟩
  · rw [Ledger.frames_concat, ← h.opened]
    simp [Booking.frame?]
  · intro id gone
    rw [Ledger.released_concat] at gone
    exact h.released id (by simpa [Booking.releases] using gone)

/-- A frame that comes has a number that no frame has had. -/
theorem push (h : Stacks stack next ledger) {frame : Frame} (new : frame.id = next) :
    Stacks (frame :: stack) (next + 1) (ledger ++ [.pushed frame]) := by
  -- all frames so far have smaller numbers, also those that went
  have unused : next ∉ stack.map Frame.id := by
    intro mem
    obtain ⟨older, there, same⟩ := List.mem_map.mp mem
    exact absurd (h.numbered older there) (by omega)
  constructor
  · rw [Ledger.frames_concat, List.map_append, h.opened, List.range_succ]
    simp [Booking.frame?, new]
  · intro older mem
    rcases List.mem_cons.mp mem with rfl | mem
    · omega
    · exact Nat.lt_succ_of_lt (h.numbered older mem)
  · rw [List.map_cons, new]
    exact List.nodup_cons.mpr ⟨unused, h.distinct⟩
  · intro id gone
    rw [Ledger.released_concat] at gone
    obtain ⟨lt, away⟩ := h.released id (by simpa [Booking.releases] using gone)
    refine ⟨Nat.lt_succ_of_lt lt, ?_⟩
    rw [List.map_cons, new, List.mem_cons, not_or]
    exact ⟨Nat.ne_of_lt lt, away⟩

theorem pop {frame : Frame} (h : Stacks (frame :: stack) next ledger) :
    Stacks stack next (ledger ++ [.popped frame]) := by
  obtain ⟨away, distinct⟩ := List.nodup_cons.mp h.distinct
  refine ⟨?_, fun older mem => h.numbered older (List.mem_cons_of_mem _ mem), distinct, ?_⟩
  · rw [Ledger.frames_concat, ← h.opened]
    simp [Booking.frame?]
  · intro id gone
    rw [Ledger.released_concat, Bool.or_eq_true] at gone
    rcases gone with before | now
    · obtain ⟨lt, out⟩ := h.released id before
      exact ⟨lt, fun mem => out (List.mem_cons_of_mem _ mem)⟩
    · have same : frame.id = id := by simpa [Booking.releases] using now
      rw [← same]
      exact ⟨h.numbered frame List.mem_cons_self, away⟩

theorem not_released (h : Stacks stack next ledger) {frame : Frame} (mem : frame ∈ stack) :
    ledger.released frame.id = false := by
  by_contra gone
  have out := (h.released frame.id (by simpa using gone)).2
  exact out (List.mem_map.mpr ⟨frame, mem, rfl⟩)

end Stacks

/-! ## Frames that the log knows -/

/-- The log knows frames by the newest entry since they last went. If entries have only been made
in place, it knows none but those on the stack. -/
structure Knows (lastOf : OrderedMap Nat Entry) (stack : List Frame) (ledger : Ledger) :
    Prop where
  distinct : lastOf.keys.Nodup
  newest : ∀ id, lastOf.find? id = (ledger.sinceRelease id).newest id
  standing : (∀ b ∈ ledger, b.isInPlace = true) →
    ∀ id ∈ lastOf.keys, id ∈ stack.map Frame.id

namespace Knows

variable {lastOf : OrderedMap Nat Entry} {stack : List Frame} {ledger : Ledger}

theorem standing_before (h : Knows lastOf stack ledger) {b : Booking}
    (inPlace : ∀ b' ∈ ledger ++ [b], b'.isInPlace = true) :
    ∀ id ∈ lastOf.keys, id ∈ stack.map Frame.id :=
  h.standing fun b' mem => inPlace b' (List.mem_append_left _ mem)

theorem push (h : Knows lastOf stack ledger) (frame : Frame) :
    Knows lastOf (frame :: stack) (ledger ++ [.pushed frame]) := by
  refine ⟨h.distinct, fun id => ?_, fun inPlace id mem => ?_⟩
  · rw [Ledger.newest_sinceRelease_concat, h.newest]
    simp [Booking.releases, Booking.under?]
  · exact List.mem_cons_of_mem _ (h.standing_before inPlace id mem)

/-- A frame that goes is forgotten. -/
theorem pop {frame : Frame} (h : Knows lastOf (frame :: stack) ledger) :
    Knows (lastOf.erase frame.id) stack (ledger ++ [.popped frame]) := by
  refine ⟨?_, fun id => ?_, fun inPlace id mem => ?_⟩
  · rw [OrderedMap.keys_erase]
    exact h.distinct.erase _
  · rw [Ledger.newest_sinceRelease_concat]
    by_cases same : frame.id = id
    · rw [← same, OrderedMap.find?_erase_self h.distinct]
      simp [Booking.releases]
    · rw [OrderedMap.find?_erase_of_ne _ same, h.newest]
      simp [Booking.releases, Booking.under?, same]
  · rw [OrderedMap.keys_erase, h.distinct.mem_erase_iff] at mem
    obtain ⟨other, mem⟩ := mem
    exact List.mem_of_ne_of_mem other (h.standing_before inPlace id mem)

/-- An entry becomes the newest one of the frame that it names. -/
theorem add {log : StepLog} (h : Knows log.lastOf stack ledger) (e : Entry) :
    Knows (log.add e).lastOf stack (ledger ++ [.made (stack.head?.map Frame.id) e]) := by
  have newest : ∀ id, Ledger.newest (Ledger.sinceRelease
      (ledger ++ [.made (stack.head?.map Frame.id) e]) id) id =
      if e.frame = some id then some e else log.lastOf.find? id := by
    intro id
    rw [Ledger.newest_sinceRelease_concat, h.newest]
    by_cases named : e.frame = some id <;> simp [Booking.releases, Booking.under?, named]
  cases under : e.frame with
  | none =>
      have same : (log.add e).lastOf = log.lastOf := by rw [StepLog.add, under]
      rw [same]
      refine ⟨h.distinct, fun id => ?_, fun inPlace => ?_⟩
      · rw [newest, under]
        simp
      · exact h.standing_before inPlace
  | some frame =>
      have put : (log.add e).lastOf = log.lastOf.put frame e := by rw [StepLog.add, under]
      rw [put]
      refine ⟨OrderedMap.nodup_keys_put h.distinct _ _, fun id => ?_, fun inPlace id mem => ?_⟩
      · rw [newest, under]
        by_cases same : frame = id
        · rw [← same, OrderedMap.find?_put_self]
          simp
        · rw [OrderedMap.find?_put_of_ne _ _ same]
          simp [same]
      · rcases OrderedMap.mem_keys_put mem with old | rfl
        · exact h.standing_before inPlace id old
        · -- an entry in its place that names a frame at all names the one on top
          have here := inPlace (.made (stack.head?.map Frame.id) e)
            (List.mem_append_right _ List.mem_cons_self)
          have top : some id = stack.head?.map Frame.id := by
            simpa [Booking.isInPlace, under] using here
          obtain ⟨frame, head, same⟩ := Option.map_eq_some_iff.mp top.symm
          exact List.mem_map.mpr ⟨frame, List.mem_of_mem_head? head, same⟩

end Knows

/-! ## Sessions that agree with a ledger -/

/-- What a session holds is what the ledger tells. -/
structure Agrees (s : Session) (ledger : Ledger) : Prop where
  counts : Counts s.log ledger
  stands : Stacks s.stack s.frames ledger
  knows : Knows s.log.lastOf s.stack ledger

theorem agrees_initial (verbose : Bool) : Agrees (initial verbose) [.made none seed] := by
  refine ⟨⟨rfl, rfl, ?_⟩, ⟨rfl, by simp [initial], by simp [initial], ?_⟩, ⟨.nil, ?_, ?_⟩⟩
  · cases verbose <;> rfl
  · intro id gone
    simp [Ledger.released, Booking.releases] at gone
  · exact fun _ => rfl
  · exact fun _ _ mem => absurd mem List.not_mem_nil

namespace Agrees

variable {s : Session} {ledger : Ledger}

theorem record (h : Agrees s ledger) {e : Entry} (index : e.index = s.log.next) :
    Agrees (s.record e) (ledger ++ [.made s.topId e]) :=
  ⟨h.counts.add index rfl, h.stands.made _ _, h.knows.add e⟩

/-- A session agrees, behind any act, with the ledger in which that act is booked. -/
theorem perform (h : Agrees s ledger) (act : Act) :
    Agrees (s.perform act) (ledger ++ (s.booking? act).toList) := by
  cases act with
  | push name callLocation =>
      exact ⟨h.counts.quiet rfl, h.stands.push rfl, h.knows.push _⟩
  | pop =>
      show Agrees s.pop (ledger ++ (s.stack.head?.map Booking.popped).toList)
      unfold Session.pop
      obtain ⟨counts, stands, knows⟩ := h
      cases stack : s.stack with
      | nil =>
          -- nothing goes, and nothing is booked
          rw [List.head?_nil, Option.map_none, Option.toList_none, List.append_nil]
          exact ⟨counts, stands, knows⟩
      | cons frame rest =>
          rw [stack] at stands knows
          exact ⟨(counts.release frame.id).quiet rfl, stands.pop, knows.pop⟩
  | log rule location fields =>
      rw [Session.perform, booking?]
      cases made : s.step rule location fields with
      | error limit => exact (List.append_nil ledger).symm ▸ h
      | ok e =>
          obtain ⟨env, rfl⟩ := step_ok made
          exact h.record rfl
  | record frame location statement env details => exact h.record rfl
  | meanwhile heap scopes =>
      rw [booking?, Option.toList_none, List.append_nil]
      exact ⟨h.counts, h.stands, h.knows⟩

theorem performAll (h : Agrees s ledger) (acts : List Act) :
    Agrees (s.performAll acts) (ledger ++ s.bookings acts) := by
  induction acts generalizing s ledger with
  | nil => exact (List.append_nil ledger).symm ▸ h
  | cons act acts ih =>
      rw [bookings, ← List.append_assoc]
      exact ih (h.perform act)

end Agrees

theorem agrees_ledgerOf (verbose : Bool) (acts : List Act) :
    Agrees ((initial verbose).performAll acts) (ledgerOf verbose acts) :=
  (agrees_initial verbose).performAll acts

theorem perform_verbose (s : Session) (act : Act) :
    (s.perform act).log.verbose = s.log.verbose := by
  cases act with
  | push | record | meanwhile => rfl
  | pop => exact pop_verbose s
  | log rule location fields =>
      rw [perform]
      cases s.step rule location fields <;> rfl

theorem performAll_verbose (s : Session) (acts : List Act) :
    (s.performAll acts).log.verbose = s.log.verbose := by
  induction acts generalizing s with
  | nil => rfl
  | cons act acts ih => exact (ih (s.perform act)).trans (perform_verbose s act)

/-- **The books tell what has been done.** Whatever acts are carried out on a new session, in
whatever order: the entries are numbered in the order in which they were made, no two of them have
the same identifier, nor have any two frames that came. The newest entry is the last one made, and
a verbose log retains all of them in order, another one none. A frame is known by the newest entry
made under it since it last went. For a frame on the stack that is the newest one made under it at
all, and, if whatever is recorded by hand names the frame on top, the newest one made while it was
on top. If it names the frame on top or none, no frame is known that is not on the stack. -/
theorem books_tell (verbose : Bool) (acts : List Act) :
    let s := (initial verbose).performAll acts
    let ledger := ledgerOf verbose acts
    (∀ (n : Nat) (e : Entry), ledger.entries[n]? = some e → e.index = n) ∧
      (ledger.entries.map Entry.stateId).Nodup ∧
      (ledger.frames.map fun frame => frameId frame.id).Nodup ∧
      s.log.last = ledger.entries.getLast? ∧
      s.log.entries.toList = (if verbose then ledger.entries else []) ∧
      (∀ id, s.log.lastOf.find? id = (ledger.sinceRelease id).newest id) ∧
      (∀ frame ∈ s.stack, s.log.lastOf.find? frame.id = ledger.newest frame.id) ∧
      ((initial verbose).each Act.namesTop acts = true →
        ∀ frame ∈ s.stack, s.log.lastOf.find? frame.id = ledger.newestOnTop frame.id) ∧
      ((initial verbose).each Act.isInPlace acts = true →
        ∀ id, id ∉ s.stack.map Frame.id → s.log.lastOf.find? id = none) := by
  intro s ledger
  have agrees : Agrees s ledger := agrees_ledgerOf verbose acts
  have standing : ∀ frame ∈ s.stack, s.log.lastOf.find? frame.id = ledger.newest frame.id := by
    -- no number is given to two frames, so one that stands has never gone
    intro frame mem
    rw [agrees.knows.newest]
    exact Ledger.newest_sinceRelease_of_not_released (agrees.stands.not_released mem)
  refine ⟨fun n e => agrees.counts.index_eq,
    nodup_identifiers agrees.counts.indices fun _ _ => Entry.index_eq_of_stateId,
    nodup_identifiers agrees.stands.opened fun _ _ same => frameId_injective same,
    agrees.counts.last, ?_, agrees.knows.newest, standing, ?_, ?_⟩
  · rw [agrees.counts.retained, performAll_verbose]
    rfl
  · intro names frame mem
    have tops : ∀ b ∈ ledger, b.namesTop = true :=
      List.forall_mem_cons.mpr ⟨rfl, forall_bookings namesTop_of_booked names⟩
    rw [standing frame mem, Ledger.newest_eq_newestOnTop tops]
  · intro inPlace id away
    have places : ∀ b ∈ ledger, b.isInPlace = true :=
      List.forall_mem_cons.mpr ⟨rfl, forall_bookings isInPlace_of_booked inPlace⟩
    rw [OrderedMap.find?_eq_none_iff]
    exact fun known => away (agrees.knows.standing places id known)

/-- A call in a call and a step under each of them. Behind the inner call an entry is recorded by
hand under the outer one. -/
def twoCalls : List Act :=
  [.push "f" none, .log "A" none [], .push "g" none, .log "B" none [], .pop,
    .record (some 0) none (some "c") none none]

/-- Behind these acts the outer call is known by the last entry, and the inner one, which has a
step of its own in the log, is not known any more. -/
theorem books_tell_twoCalls :
    let s := (initial true).performAll twoCalls
    let ledger := ledgerOf true twoCalls
    (initial true).each Act.namesTop twoCalls = true ∧
      (initial true).each Act.isInPlace twoCalls = true ∧
      s.stack.map Frame.id = [0] ∧ s.log.entries.toList = ledger.entries ∧
      s.log.lastOf.find? 0 = ledger.newestOnTop 0 ∧
      (ledger.newestOnTop 0).map Entry.index = some 3 ∧
      s.log.lastOf.find? 1 = none ∧ (ledger.newest 1).map Entry.index = some 2 := by
  have stack : ((initial true).performAll twoCalls).stack = [⟨"f", 0, none⟩] := rfl
  obtain ⟨-, -, -, -, retained, -, -, onTop, gone⟩ := books_tell true twoCalls
  intro s ledger
  refine ⟨rfl, rfl, congrArg (List.map Frame.id) stack, retained, ?_, rfl, ?_, rfl⟩
  · exact onTop rfl ⟨"f", 0, none⟩ (stack ▸ List.mem_cons_self)
  · refine gone rfl 1 ?_
    rw [stack]
    decide

/-- A call with a step, and then an entry that is recorded under no frame. -/
def unframed : List Act :=
  [.push "f" none, .log "A" (some ⟨"t", 1, 1, "a"⟩) [],
    .record none (some ⟨"t", 2, 1, "b"⟩) (some "b") none none]

/-- **What is recorded by hand need not be recorded under the frame on top.** An entry that names
no frame is the newest one made while the call is on top, but the call is still known by its step.
And when the call has gone, an entry that names it makes it known again. -/
theorem known_unframed :
    let s := (initial false).performAll unframed
    let t := (initial false).performAll (unframed ++ [.pop, .record (some 0) none none none none])
    s.stack.map Frame.id = [0] ∧
      ((ledgerOf false unframed).newestOnTop 0).map Entry.index = some 2 ∧
      (s.log.lastOf.find? 0).map Entry.index = some 1 ∧
      t.stack = [] ∧ (t.log.lastOf.find? 0).map Entry.index = some 3 :=
  ⟨rfl, rfl, rfl, rfl, rfl⟩

end Session

end Mini
