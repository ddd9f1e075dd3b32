import Mini.Proofs.Execution.History
import Mini.Proofs.Heap.Touched

/-!
# How a heap evolves

Only two kinds of steps change the heap. The end of an array literal adds an array, whose keys and
values are there already. An assignment to an entry of an array stores a value, and that is an event
of the history. So a history, with the session right before each event, gives an account of all
heaps on the way: from each event to the next there are new arrays and what the event itself has
stored, and nothing else.
-/

namespace Mini

/-- The array into which an assignment stores. -/
def Event.stored (e : Event) : Option Ref :=
  match e.deed with
  | .assign ref _ => some ref
  | _ => none

/-- The arrays into which a value has been stored by an assignment. -/
def storedIn (events : List Event) : List Ref :=
  events.filterMap Event.stored

theorem storedIn_append (events more : List Event) :
    storedIn (events ++ more) = storedIn events ++ storedIn more :=
  List.filterMap_append

theorem storedIn_of_quiet {events : List Event} (quiet : ∀ e ∈ events, e.stored = none) :
    storedIn events = [] :=
  List.filterMap_eq_nil_iff.mpr quiet

theorem Heap.ownsPairs_of_store {h : Heap} {pairs pairs' : Pairs} {key v : Value}
    (owns : h.OwnsPairs pairs) (ownsKey : h.Owns key) (ownsValue : h.Owns v)
    (stored : h.store pairs key v = .ok pairs') : h.OwnsPairs pairs' :=
  forall_stored stored owns ownsKey ownsValue

/-! ## Evolutions -/

/-- The heap right behind an event. It is another one only if the event assigns a value under a key
of an array; both of them are there. -/
inductive Event.Leaves (e : Event) : Heap → Prop
  | same : e.stored = none → e.Leaves e.session.heap
  | stored {ref : Ref} {key v : Value} {pairs : Pairs} :
      e.deed = .assign ref key → e.session.heap.Owns key → e.session.heap.Owns v →
      e.session.heap.store (e.session.heap.read ref) key v = .ok pairs →
      e.Leaves (e.session.heap.write ref pairs)

/-- A heap evolves into another one by way of events and of new arrays between them. -/
inductive Evolution : Heap → List Event → Heap → Prop
  | refl (h : Heap) : Evolution h [] h
  | add {h h' : Heap} {events : List Event} {pairs : Pairs} :
      h.OwnsPairs pairs → Evolution (h.add pairs) events h' → Evolution h events h'
  | event {e : Event} {h h' h'' : Heap} {events : List Event} :
      e.session.heap = h → e.Leaves h' → Evolution h' events h'' → Evolution h (e :: events) h''

namespace Evolution

variable {h h' h'' : Heap} {events more : List Event}

theorem trans (first : Evolution h events h') (later : Evolution h' more h'') :
    Evolution h (events ++ more) h'' := by
  induction first with
  | refl => exact later
  | add owns _ ih => exact .add owns (ih later)
  | event here leaves _ ih => exact .event here leaves (ih later)

/-- Events that store nothing, one after another with no new arrays. -/
theorem still (same : ∀ e ∈ events, e.stored = none ∧ e.session.heap = h) :
    Evolution h events h := by
  induction events with
  | nil => exact .refl h
  | cons e events ih =>
      obtain ⟨⟨nothing, here⟩, same⟩ := List.forall_mem_cons.mp same
      exact .event here (here ▸ .same nothing) (ih same)

/-- At an event the heap is as the events in front of it have made it. -/
theorem split {before after : List Event} {e : Event}
    (evolution : Evolution h (before ++ e :: after) h') :
    Evolution h before e.session.heap ∧ ∃ h'', e.Leaves h'' ∧ Evolution h'' after h' := by
  generalize all : before ++ e :: after = events at evolution
  induction evolution generalizing before with
  | refl => cases before <;> cases all
  | add owns _ ih =>
      obtain ⟨front, back⟩ := ih all
      exact ⟨.add owns front, back⟩
  | event here leaves later ih =>
      cases before with
      | nil =>
          cases all
          subst here
          exact ⟨.refl _, _, leaves, later⟩
      | cons first before =>
          obtain ⟨rfl, rest⟩ := List.cons.inj all
          obtain ⟨front, back⟩ := ih rest
          exact ⟨.event here leaves front, back⟩

theorem evolves (evolution : Evolution h events h') : h.Evolves (storedIn events) h' := by
  induction evolution with
  | refl h => exact .refl h
  | add owns _ ih => exact (Heap.Evolves.add _ _).trans ih
  | @event e _ _ _ events here leaves _ ih =>
      subst here
      rw [← List.singleton_append, storedIn_append]
      refine Heap.Evolves.trans ?_ ih
      cases leaves with
      | same nothing =>
          have none : storedIn [e] = [] := List.filterMap_cons_none nothing
          exact none ▸ .refl _
      | @stored ref _ _ pairs deed _ _ _ =>
          have one : storedIn [e] = [ref] :=
            List.filterMap_cons_some (by rw [Event.stored, deed])
          exact one ▸ .write _ ref pairs

theorem sound (evolution : Evolution h events h') (sound : h.Sound) : h'.Sound := by
  induction evolution with
  | refl => exact sound
  | add owns _ ih => exact ih (sound.add owns)
  | event here leaves _ ih =>
      subst here
      refine ih ?_
      cases leaves with
      | same => exact sound
      | @stored ref _ _ _ _ ownsKey owns stored =>
          exact sound.write (Heap.ownsPairs_of_store (sound ref) ownsKey owns stored) ref

end Evolution

end Mini
