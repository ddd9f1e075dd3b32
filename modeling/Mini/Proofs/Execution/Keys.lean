import Mini.Proofs.Execution.Moments

/-!
# Keys of arrays

In any session that runs go through, the history shows of each key of an array where it was put
behind the keys in front of it, unequal to all of them: by an assignment to that very array, or as
an element of the literal that became it. Keys that are no arrays are unequal for good. An array
that is a key can come to equal another one, and only by an assignment that stores into an array
which one of the two reaches.
-/

namespace Mini.Session

theorem pairwise_of_splits {R : α → α → Prop} : ∀ {as : List α},
    (∀ front a back, as = front ++ a :: back → ∀ b ∈ front, R b a) → as.Pairwise R
  | [], _ => .nil
  | a :: rest, related => by
      refine .cons (fun b mem => ?_) (pairwise_of_splits fun front b back split c mem => ?_)
      · obtain ⟨front, back, rfl⟩ := List.append_of_mem mem
        exact related (a :: front) b back rfl a List.mem_cons_self
      · exact related (a :: front) b back (split ▸ rfl) c (List.mem_cons_of_mem _ mem)

/-- Keys that are no arrays are unequal for good. -/
theorem keys_unequal_of_plain {verbose : Bool} {history : List Event} {s : Session}
    (moment : Moment verbose history s) {ref : Ref}
    (plain : ∀ k ∈ s.heap.keys ref, ∀ r, k ≠ .array r) :
    (s.heap.keys ref).Pairwise fun k k' => s.heap.same k k' = .ok false := by
  refine pairwise_of_splits fun front key back keys k mem => ?_
  obtain ⟨before, e, after, -, -, unequal⟩ := moment.orderly.keys ref front key back keys
  rcases (unequal k mem).2 with unequal | ⟨⟨r, s, array, -⟩, -⟩
  · exact unequal
  · refine absurd array (plain k ?_ r)
    rw [keys]
    exact List.mem_append_left _ mem

/-- **Keys that are equal have come to be equal.** In every session that runs go through, the
history shows of each key of an array where it was put into that array behind the keys that are in
front of it: by an assignment to the array, or as an element of the literal that became it. It was
unequal to each of them then. It is unequal to each of them still, unless the two are different
arrays one of which reaches an array into which a value has been stored by an assignment since then.
Where all keys of an array are unequal, every entry is found by its own key, for reading and for
storing, and no key matches two entries. -/
theorem keys_parted {verbose : Bool} {history : List Event} {s : Session}
    (moment : Moment verbose history s) (ref : Ref) :
    (∀ front key back, s.heap.keys ref = front ++ key :: back →
        PutBehind history s.heap ref front key) ∧
      ((s.heap.keys ref).Pairwise (fun k k' => s.heap.same k k' = .ok false) →
        (∀ before k v after, s.heap.read ref = before ++ (k, v) :: after →
          s.heap.lookup (s.heap.read ref) k = .ok v ∧
            ∀ w, s.heap.store (s.heap.read ref) k w = .ok (before ++ (k, w) :: after)) ∧
        ∀ key, (s.heap.keys ref).Pairwise fun k k' =>
          ¬(s.heap.same k key = .ok true ∧ s.heap.same k' key = .ok true)) := by
  refine ⟨moment.orderly.keys ref, fun unequal => ⟨?_, fun key => ?_⟩⟩
  · intro before k v after entries
    rw [Heap.keys, entries, List.map_append, List.pairwise_append] at unequal
    have passed : ∀ pair ∈ before, s.heap.same pair.1 k = .ok false := fun pair mem =>
      unequal.2.2 pair.1 (List.mem_map.mpr ⟨pair, mem, rfl⟩) k List.mem_cons_self
    rw [entries]
    exact ⟨Heap.lookup_own passed, Heap.store_own passed⟩
  · exact unequal.imp Heap.not_both_same

/-- A source that has arrays as keys and stores into one of them, which stays unequal to the
others. -/
def filing : Source :=
  ⟨"filing", "a = [7]; m = [a: 3, \"k\": 4, [7, 8]: 5]; a[1] = 9; print(m[a]);"⟩

theorem keys_parted_filing :
    ∃ history s, Moment false history s ∧ s.output.toList = ["3"] ∧
      (s.heap.keys ⟨2⟩).length = 3 ∧
      (∀ front key back, s.heap.keys ⟨2⟩ = front ++ key :: back →
        PutBehind history s.heap ⟨2⟩ front key) ∧
      ∀ before k v after, s.heap.read ⟨2⟩ = before ++ (k, v) :: after →
        s.heap.lookup (s.heap.read ⟨2⟩) k = .ok v := by
  have shown : (finish? ((initial false).runSource ⟨30, 10⟩ filing)).map (fun s =>
      decide (s.output.toList = ["3"] ∧ (s.heap.keys ⟨2⟩).length = 3 ∧
        (s.heap.keys ⟨2⟩).Pairwise fun k k' => s.heap.same k k' = .ok false)) = some true := by
    decide +kernel
  obtain ⟨s, finished, shown⟩ := Option.map_eq_some_iff.mp shown
  obtain ⟨output, length, unequal⟩ := of_decide_eq_true shown
  have moment : Moment false _ s := .between (Recorded.initial.run (of_finish? finished) trivial)
  obtain ⟨put, found⟩ := keys_parted moment ⟨2⟩
  refine ⟨_, s, moment, output, length, put, fun before k v after entries => ?_⟩
  exact ((found unequal).1 before k v after entries).1

/-- A source that makes two keys of one array equal. -/
def clash : Source :=
  ⟨"clash", "a = []; b = [1]; m = [a: 1, b: 2]; a[0] = 1; print(m[b]);"⟩

/-- The keys of two entries whose values are one and two. -/
def keysOfOneAndTwo? : Pairs → Option (Value × Value)
  | [(k, .number 1), (k', .number 2)] => some (k, k')
  | _ => none

theorem of_keysOfOneAndTwo? {pairs : Pairs} {k k' : Value}
    (h : keysOfOneAndTwo? pairs = some (k, k')) : pairs = [(k, .number 1), (k', .number 2)] := by
  unfold keysOfOneAndTwo? at h
  split at h
  · cases h
    rfl
  · cases h

/-- The keys of an array need not be unequal, and then an entry is not found by its own key: the
array put in as the first key is stored into, and after that equals the second one. -/
theorem keys_equal_clash :
    ∃ history s, (initial false).runSource ⟨30, 10⟩ clash = (.finished, s) ∧
      Moment false history s ∧ s.output.toList = ["1"] ∧
      ∃ k k', s.heap.read ⟨2⟩ = [(k, .number 1), (k', .number 2)] ∧
        s.heap.same k k' = .ok true ∧
        s.heap.lookup (s.heap.read ⟨2⟩) k' = .ok (.number 1) := by
  have shown : ((finish? ((initial false).runSource ⟨30, 10⟩ clash)).bind fun s =>
      (keysOfOneAndTwo? (s.heap.read ⟨2⟩)).map fun keys =>
        decide (s.output.toList = ["1"] ∧ s.heap.same keys.1 keys.2 = .ok true)) = some true := by
    decide +kernel
  obtain ⟨s, finished, shown⟩ := Option.bind_eq_some_iff.mp shown
  obtain ⟨⟨k, k'⟩, keys, shown⟩ := Option.map_eq_some_iff.mp shown
  obtain ⟨output, equal⟩ := of_decide_eq_true shown
  have ran := of_finish? finished
  have entries := of_keysOfOneAndTwo? keys
  refine ⟨_, s, ran, .between (Recorded.initial.run ran trivial), output, k, k', entries, equal, ?_⟩
  rw [entries, Heap.lookup, equal]
  rfl

end Mini.Session
