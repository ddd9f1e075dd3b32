import Mini.Proofs.Execution.Evolution

/-!
# Where a key was put

A new key is only put behind keys that it is unequal to. That does not keep the keys of an array
unequal for good: an array may be a key, and storing into it, or into an array inside it, can make
it equal to another one. It is the only way. So what can be kept up for the keys of an array is an
account of the past: where each was put into that array behind those in front of it, unequal to all
of them, and that it is unequal to each of them still, or touched by what has been stored since.
-/

namespace Mini

/-- The event puts a value under a key of an array, with the given keys in it: an assignment to that
array, or an element of the literal that becomes it. -/
def Event.Puts (e : Event) (ref : Ref) (keys : List Value) (key : Value) : Prop :=
  match e.deed with
  | .assign array new => array = ref ∧ new = key ∧ e.session.heap.keys ref = keys
  | .build array sofar new => array = some ref ∧ new = key ∧ sofar = keys
  | _ => False

/-- The history shows where a key was put into an array behind those in front of it, unequal to each
of them; and it is unequal to each of them in the heap, or touched by what has been stored since. -/
def PutBehind (history : List Event) (h : Heap) (ref : Ref) (front : List Value) (key : Value) :
    Prop :=
  ∃ before e after, history = before ++ e :: after ∧ e.Puts ref front key ∧
    ∀ k ∈ front, e.session.heap.same k key = .ok false ∧ h.Apart (storedIn (e :: after)) k key

/-- An element stands in one of two lists in a row. -/
theorem split_append {α : Type} {front back before after : List α} {a : α}
    (split : front ++ back = before ++ a :: after) :
    (∃ rest, front = before ++ a :: rest) ∨
      ∃ rest, before = front ++ rest ∧ back = rest ++ a :: after := by
  rcases List.append_eq_append_iff.mp split with ⟨rest, same, split⟩ | ⟨rest, same, split⟩
  · exact .inr ⟨rest, same, split⟩
  · cases rest with
    | nil => exact .inr ⟨[], by simp [same], split.symm⟩
    | cons first rest =>
        obtain ⟨rfl, -⟩ := List.cons.inj split
        exact .inl ⟨rest, same⟩

/-- Each key of some pairs has been put into an array behind those in front of it. -/
def KeysPut (history : List Event) (h : Heap) (ref : Ref) (pairs : Pairs) : Prop :=
  ∀ front key back, pairs.map Prod.fst = front ++ key :: back → PutBehind history h ref front key

namespace KeysPut

variable {history more : List Event} {h h' : Heap} {ref : Ref} {pairs pairs' : Pairs}
  {key v : Value}

theorem nil : KeysPut history h ref [] :=
  fun front _ _ none => absurd none.symm (List.append_ne_nil_of_right_ne_nil front nofun)

theorem evolves (put : KeysPut history h ref pairs) (sound : h.Sound) (owns : h.OwnsPairs pairs)
    (evolves : h.Evolves (storedIn more) h') : KeysPut (history ++ more) h' ref pairs := by
  intro front key back keys
  obtain ⟨before, e, after, rfl, puts, unequal⟩ := put front key back keys
  have ownsKey : ∀ k ∈ front ++ key :: back, h.Owns k := by
    rw [← keys]
    intro k mem
    obtain ⟨pair, inside, rfl⟩ := List.mem_map.mp mem
    exact (owns pair inside).1
  refine ⟨before, e, after ++ more, by simp, puts, fun k mem => ⟨(unequal k mem).1, ?_⟩⟩
  have apart := (unequal k mem).2.evolves evolves sound (ownsKey k (List.mem_append_left _ mem))
    (ownsKey key (by simp))
  rwa [← storedIn_append] at apart

/-- An event puts a value under a key, whether or not the key is new. -/
theorem put {e : Event} (put : KeysPut history e.session.heap ref pairs)
    (sound : e.session.heap.Sound) (owns : e.session.heap.OwnsPairs pairs)
    (ownsKey : e.session.heap.Owns key) (evolves : e.session.heap.Evolves (storedIn [e]) h')
    (puts : e.Puts ref (pairs.map Prod.fst) key)
    (stored : e.session.heap.store pairs key v = .ok pairs') :
    KeysPut (history ++ [e]) h' ref pairs' := by
  have still := put.evolves sound owns evolves
  rcases Heap.keys_stored stored with ⟨-, keys⟩ | ⟨unequal, keys⟩
  -- a key that was there keeps its place, and no key is new
  · rw [KeysPut, keys]
    exact still
  -- the new key comes last, and the event that puts it there is the newest
  · intro front last back split
    rw [keys] at split
    rcases split_append split with ⟨rest, inside⟩ | ⟨rest, rfl, behind⟩
    · exact still front last rest inside
    · obtain ⟨rfl, rfl, rfl⟩ : rest = [] ∧ last = key ∧ back = [] := by
        simpa [List.singleton_eq_append_iff] using behind
      refine ⟨history, e, [], rfl, by rwa [List.append_nil], fun k mem => ?_⟩
      rw [List.append_nil] at mem
      obtain ⟨pair, inside, rfl⟩ := List.mem_map.mp mem
      exact ⟨unequal pair inside,
        evolves.apart_of_unequal sound (owns pair inside).1 ownsKey (unequal pair inside)⟩

end KeysPut

end Mini
