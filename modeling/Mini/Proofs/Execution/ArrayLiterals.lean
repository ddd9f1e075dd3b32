import Mini.Proofs.Heap.Table

/-!
# Array literals

The elements of an array literal are evaluated one after another and give its entries: an element
with a key gives what its key and its value amount to, and an element without one has the number of
elements in front of it as its key. The array that is built holds the entries as a table. Numbers
that count elements and keys that are written share one space of keys, so an entry may overwrite
one in front of it, from either kind, but it never changes places.
-/

namespace Mini

open Exec

/-! ## Elements in turn -/

/-- Elements of an array literal that are evaluated from number `position` on, one after another
and each in the session that the one before has left, give entries. -/
inductive Exec.Enumerates (eval : Expr → Exec Value) :
    Nat → List Element → Session → Pairs → Session → Prop
  | nil {position : Nat} {s : Session} : Enumerates eval position [] s [] s
  | plain {position : Nat} {element : Expr} {rest : List Element} {s u t : Session} {v : Value}
      {entries : Pairs} :
      eval element s = .done v u → Enumerates eval (position + 1) rest u entries t →
      Enumerates eval position (.plain element :: rest) s ((.number position, v) :: entries) t
  | keyed {position : Nat} {location : Location} {key element : Expr} {rest : List Element}
      {s u w t : Session} {k v : Value} {entries : Pairs} :
      eval key s = .done k u → eval element u = .done v w →
      Enumerates eval (position + 1) rest w entries t →
      Enumerates eval position (.keyed location key element :: rest) s ((k, v) :: entries) t

namespace Exec.Enumerates

variable {eval : Expr → Exec Value} {position : Nat} {elements : List Element} {s t : Session}
  {entries : Pairs}

theorem length_eq (enumerates : Enumerates eval position elements s entries t) :
    entries.length = elements.length := by
  induction enumerates with
  | nil => rfl
  | plain _ _ ih => exact congrArg (· + 1) ih
  | keyed _ _ _ ih => exact congrArg (· + 1) ih

/-- An element without a key has its number as its key. -/
theorem key_plain (enumerates : Enumerates eval position elements s entries t) {i : Nat}
    {element : Expr} (there : elements[i]? = some (.plain element)) :
    (entries.map Prod.fst)[i]? = some (.number (position + i : Nat)) := by
  induction enumerates generalizing i with
  | nil => cases there
  | plain _ _ ih =>
      cases i with
      | zero => rfl
      | succ i =>
          refine (ih there).trans ?_
          rw [Nat.add_right_comm]
          rfl
  | keyed _ _ _ ih =>
      cases i with
      | zero => cases there
      | succ i =>
          refine (ih there).trans ?_
          rw [Nat.add_right_comm]
          rfl

/-- Elements without keys have one number after another. -/
theorem keys_bare (enumerates : Enumerates eval 0 elements s entries t)
    (bare : ∀ element ∈ elements, ∃ e, element = Element.plain e) :
    entries.map Prod.fst = (List.range elements.length).map fun i : Nat => Value.number i := by
  refine List.ext_getElem? fun i => ?_
  by_cases inside : i < elements.length
  · obtain ⟨e, same⟩ := bare elements[i] (List.getElem_mem inside)
    rw [enumerates.key_plain (List.getElem?_eq_some_iff.mpr ⟨inside, same⟩), Nat.zero_add,
      List.getElem?_map, List.getElem?_range inside]
    rfl
  · have behind := Nat.le_of_not_lt inside
    rw [List.getElem?_eq_none, List.getElem?_eq_none]
    · rw [List.length_map, List.length_range]
      exact behind
    · rw [List.length_map, enumerates.length_eq]
      exact behind

end Exec.Enumerates

/-! ## Keys that are no arrays -/

namespace Heap

variable {key : Value} (plain : ∀ ref, key ≠ .array ref)
include plain

theorem decides_of_plain (h : Heap) (pairs : Pairs) : h.Decides pairs key := by
  intro pair _
  cases key with
  | array ref => exact absurd rfl (plain ref)
  | nothing | number | text | boolean | function => cases pair.1 <;> exact ⟨_, rfl⟩

/-- What is stored under a key that is no array does not depend on the heap. -/
theorem store_of_plain (h h' : Heap) (pairs : Pairs) (v : Value) :
    h.store pairs key v = h'.store pairs key v :=
  store_congr (fun _ _ => sameWithin_of_not_arrays (fun _ ref _ => plain ref) _ _ _ _) v

end Heap

/-- Numbers that count are unequal. -/
theorem Heap.firsts_range (h : Heap) (n : Nat) :
    h.firsts ((List.range n).map fun i : Nat => Value.number i) =
      (List.range n).map fun i : Nat => Value.number i := by
  refine firsts_eq_self (List.pairwise_map.mpr (List.nodup_range.imp fun {i j} differ same => ?_))
  have equal : decide ((i : Int) = j) = true := Except.ok.inj same
  exact differ (Int.ofNat_inj.mp (of_decide_eq_true equal))

/-! ## Elements that are stored -/

/-- The pairs with one more element, behind which the session is as it was. -/
theorem Exec.exists_store_of_done {α : Type} {sofar : Pairs} {key v : Value} {next : Pairs → Exec α}
    {a : α} {s t : Session}
    (done : (do
      let sofar ← orLimit (← get (·.heap.store sofar key v))
      next sofar : Exec α) s = .done a t) :
    ∃ pairs, s.heap.store sofar key v = .ok pairs ∧ next pairs s = .done a t := by
  rw [← bind_assoc, bind_apply, lookUp_apply] at done
  cases stored : s.heap.store sofar key v with
  | ok pairs =>
      rw [stored] at done
      exact ⟨pairs, rfl, done⟩
  | error limit =>
      rw [stored] at done
      cases done

/-- The pairs that are built tabulate the entries, on top of those that there are. -/
theorem Exec.enumerates_of_pairs {eval : Expr → Exec Value} {position : Nat} {sofar table : Pairs}
    {elements : List Element} {s t : Session}
    (built : pairs eval position sofar elements s = .done table t) :
    ∃ entries, Enumerates eval position elements s entries t ∧
      ((∀ entry ∈ entries, ∀ ref, entry.1 ≠ .array ref) → ∀ (h : Heap) (before : Pairs),
        h.Tabulates before sofar → h.Tabulates (before ++ entries) table) := by
  induction elements generalizing position sofar s with
  | nil =>
      cases built
      exact ⟨[], .nil, fun _ h before tabulates => (List.append_nil before).symm ▸ tabulates⟩
  | cons element elements ih =>
      -- what comes behind the first element goes on from the pairs that this has been stored in
      have step : ∀ {k v : Value} {u : Session} {sofar' entries : Pairs},
          u.heap.store sofar k v = .ok sofar' →
          ((∀ entry ∈ entries, ∀ ref, entry.1 ≠ .array ref) → ∀ (h : Heap) (before : Pairs),
            h.Tabulates before sofar' → h.Tabulates (before ++ entries) table) →
          (∀ entry ∈ (k, v) :: entries, ∀ ref, entry.1 ≠ .array ref) →
          ∀ (h : Heap) (before : Pairs), h.Tabulates before sofar →
            h.Tabulates (before ++ (k, v) :: entries) table := by
        intro k v u sofar' entries stored later plain h before tabulates
        obtain ⟨key, plain⟩ := List.forall_mem_cons.mp plain
        rw [List.append_cons]
        refine later plain h _ (tabulates.store ?_)
        rw [Heap.store_of_plain key h u.heap, stored]
      cases element with
      | plain element =>
          obtain ⟨v, u, value, built⟩ := bind_done built
          obtain ⟨sofar', stored, built⟩ := exists_store_of_done built
          obtain ⟨entries, enumerates, later⟩ := ih built
          exact ⟨_, .plain value enumerates, step stored later⟩
      | keyed location key element =>
          obtain ⟨k, u, key, built⟩ := bind_done built
          obtain ⟨v, w, value, built⟩ := bind_done built
          obtain ⟨sofar', stored, built⟩ := exists_store_of_done built
          obtain ⟨entries, enumerates, later⟩ := ih built
          exact ⟨_, .keyed key value enumerates, step stored later⟩

/-! ## Array literals -/

namespace Session

variable {fuel calls : Nat} {location : Location} {elements : List Element} {s t : Session}
  {v : Value}

/-- **An array literal is a table of its elements.** Its elements are evaluated in turn, and those
without a key have the number of elements in front of them as their key. If no key is an array, then
no two keys of the array are equal, the keys stand in the order in which they come first among the
elements, and under each there is the value of the last element with an equal key, which is also
what is read. So an entry is there unless an equal key comes later, and without any keys the array
has the numbers from zero on. -/
theorem tabulates_elements (done : evaluate fuel calls (.array location elements) s = .done v t) :
    ∃ below ref entries u, fuel = below + 1 ∧ v = .array ref ∧
      Enumerates (evaluate below calls) 0 elements s entries u ∧
      entries.length = elements.length ∧
      (∀ (i : Nat) (element : Expr), elements[i]? = some (.plain element) →
        (entries.map Prod.fst)[i]? = some (.number i)) ∧
      ((∀ entry ∈ entries, ∀ ref, entry.1 ≠ .array ref) →
        t.heap.Tabulates entries (t.heap.read ref) ∧
        (∀ key, (∀ ref, key ≠ .array ref) →
          t.heap.get ref key = .ok ((t.heap.latest entries key).getD .nothing)) ∧
        (∀ before k w after, entries = before ++ (k, w) :: after →
          (∀ entry ∈ after, t.heap.same entry.1 k ≠ .ok true) →
          ∃ pair ∈ t.heap.read ref, t.heap.same pair.1 k = .ok true ∧ pair.2 = w) ∧
        ((∀ element ∈ elements, ∃ e, element = Element.plain e) →
          t.heap.keys ref = (List.range elements.length).map fun i : Nat => Value.number i)) := by
  cases fuel with
  | zero => cases done
  | succ below =>
      obtain ⟨table, u, built, made⟩ := bind_done (x := pairs (evaluate below calls) 0 [] elements)
        (f := newArray) (by simpa only [evaluate] using done)
      obtain ⟨entries, enumerates, tabulates⟩ := enumerates_of_pairs built
      cases made
      refine ⟨below, _, entries, u, rfl, rfl, enumerates, enumerates.length_eq, ?_, fun plain => ?_⟩
      · intro i element there
        simpa only [Nat.zero_add] using enumerates.key_plain there
      · have read : (u.heap.add table).read u.heap.fresh = table := Heap.read_fresh _ _
        have tabulates : (u.heap.add table).Tabulates entries table :=
          tabulates plain _ [] Heap.tabulates_nil
        refine ⟨read.symm ▸ tabulates, fun key plain => ?_, fun before k w after split last => ?_,
          fun bare => ?_⟩
        · rw [Heap.get, read]
          exact tabulates.lookup (Heap.decides_of_plain plain _ _)
        · rw [read]
          have inside : (k, w) ∈ entries := split ▸ List.mem_append_right _ List.mem_cons_self
          exact tabulates.kept (Heap.decides_of_plain (plain _ inside) _ _) split last
        · rw [Heap.keys, read, tabulates.order, enumerates.keys_bare bare, Heap.firsts_range]

/-- Two numbers of elements that are also written as keys, one in front and one behind, a call, and
a text as a key. -/
def ledger : List Element :=
  let identity : Expr := .func default [⟨default, "x"⟩]
    (.mk default [.ret default (some (.ident ⟨default, "x"⟩))])
  [.plain (.number default 5), .keyed default (.number default 0) (.number default 6),
    .keyed default (.text default "k") (.number default 7),
    .plain (.call default identity [.number default 8]),
    .keyed default (.number default 1) (.number default 9),
    .keyed default (.number default 3) (.number default 10)]

theorem tabulates_elements_ledger :
    ∃ t entries u, evaluate 9 9 (.array default ledger) (initial false) = .done (.array ⟨0⟩) t ∧
      Enumerates (evaluate 8 9) 0 ledger (initial false) entries u ∧
      t.heap.Tabulates entries (t.heap.read ⟨0⟩) ∧
      t.heap.keys ⟨0⟩ = [.number 0, .text "k", .number 3, .number 1] ∧
      t.heap.get ⟨0⟩ (.number 3) = .ok (.number 10) := by
  have done : ∃ t, evaluate 9 9 (.array default ledger) (initial false) = .done (.array ⟨0⟩) t :=
    ⟨_, rfl⟩
  obtain ⟨t, done⟩ := done
  obtain ⟨below, ref, entries, u, fuel, same, enumerates, -, -, table⟩ := tabulates_elements done
  cases fuel
  cases same
  obtain ⟨v, split⟩ : ∃ v, entries = [(.number 0, .number 5), (.number 0, .number 6),
      (.text "k", .number 7), (.number 3, v), (.number 1, .number 9), (.number 3, .number 10)] := by
    obtain _ | ⟨⟨⟩, enumerates⟩ := enumerates
    obtain _ | _ | ⟨⟨⟩, ⟨⟩, enumerates⟩ := enumerates
    obtain _ | _ | ⟨⟨⟩, ⟨⟩, enumerates⟩ := enumerates
    obtain _ | ⟨-, enumerates⟩ := enumerates
    obtain _ | _ | ⟨⟨⟩, ⟨⟩, enumerates⟩ := enumerates
    obtain _ | _ | ⟨⟨⟩, ⟨⟩, enumerates⟩ := enumerates
    obtain _ | _ | _ := enumerates
    exact ⟨_, rfl⟩
  have plain : ∀ entry ∈ entries, ∀ ref, entry.1 ≠ .array ref := by simp [split]
  obtain ⟨tabulates, read, -, -⟩ := table plain
  refine ⟨t, entries, u, done, enumerates, tabulates, ?_, ?_⟩
  · rw [Heap.keys, tabulates.order, split]
    rfl
  · rw [read _ fun ref => Value.noConfusion, split]
    rfl

end Session

end Mini
