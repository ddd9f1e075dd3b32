import Mini.Proofs.Execution.Steps
import Mini.Proofs.Heap.Touched
import Mini.Proofs.Heap.Unfolding

/-!
# Arrays as finite maps in order of insertion

What is stored under a key is read under it and under no other, an entry keeps its place, and the
value that was stored last counts. This is so as long as storing does not change what keys are
equal, and that can only happen to keys which contain the array itself. An array that began empty
has one entry for each of the keys that were stored under and are equal, at the place of the first
of them, with the value that came with the last.
-/

namespace Mini.Heap

variable {h : Heap} {ref : Ref}

/-! ## Reading and storing -/

/-- The value in an array under a key. -/
def get (h : Heap) (ref : Ref) (key : Value) : Except Limit Value :=
  h.lookup (h.read ref) key

/-- The heap with a value stored in an array under a key. -/
def set (h : Heap) (ref : Ref) (key v : Value) : Except Limit Heap :=
  (h.store (h.read ref) key v).map (h.write ref)

/-- The heap with one value after another stored in an array. -/
def setAll (h : Heap) (ref : Ref) (entries : Pairs) : Except Limit Heap :=
  entries.foldlM (fun h entry => h.set ref entry.1 entry.2) h

theorem fetch_eq (key : Value) (s : Session) :
    Exec.fetch ref key s =
      match s.heap.get ref key with
      | .ok v => .done v s
      | .error limit => .failed ⟨.limit limit, none⟩ s := by
  unfold Exec.fetch
  rw [Exec.lookUp_apply, get]
  cases s.heap.lookup (s.heap.read ref) key <;> rfl

theorem store_eq (key v : Value) (s : Session) :
    Exec.store ref key v s =
      match s.heap.set ref key v with
      | .ok h => .done () { s with heap := h }
      | .error limit => .failed ⟨.limit limit, none⟩ s := by
  rw [Exec.store_apply, set]
  cases s.heap.store (s.heap.read ref) key v <;> rfl

theorem set_of_store {key v : Value} {pairs : Pairs}
    (stored : h.store (h.read ref) key v = .ok pairs) :
    h.set ref key v = .ok (h.write ref pairs) := by
  rw [set, stored]
  rfl

theorem setAll_concat {entries : Pairs} {h' : Heap} (key v : Value)
    (before : h.setAll ref entries = .ok h') :
    h.setAll ref (entries ++ [(key, v)]) = h'.set ref key v := by
  unfold setAll at before ⊢
  rw [List.foldlM_append, before]
  show (h'.set ref key v >>= fun h => pure h) = _
  rw [bind_pure]

/-! ## Arrays that are written -/

theorem write_write (h : Heap) (ref : Ref) (pairs pairs' : Pairs) :
    (h.write ref pairs).write ref pairs' = h.write ref pairs' := by
  rw [write, write, write, Array.setIfInBounds_setIfInBounds]

theorem write_read (h : Heap) (ref : Ref) : h.write ref (h.read ref) = h := by
  obtain ⟨arrays⟩ := h
  refine congrArg Heap.mk (Array.ext_getElem? fun i => ?_)
  rw [Array.getElem?_setIfInBounds]
  split
  · next same =>
      subst same
      split
      · next there =>
          rw [Heap.read, Array.getElem?_eq_getElem there]
          rfl
      · next missing => rw [Array.getElem?_eq_none (Nat.le_of_not_lt missing)]
  · rfl

/-! ## Keys that do not contain the array -/

/-- A key in which no array contains itself, and which does not contain a certain array. -/
structure Foreign (h : Heap) (ref : Ref) (key : Value) : Prop where
  grounded : h.Grounded key
  outside : ¬h.Reaches key (.array ref)

/-- Where arrays only hold arrays made before them, a key made before the array does not contain
it. -/
theorem Stratified.foreign (stratified : h.Stratified) {key : Value}
    (before : key.isBefore ref.index) : h.Foreign ref key := by
  refine ⟨stratified.cycleFree.grounded key, fun reaches => ?_⟩
  rcases Relation.reflTransGen_iff_eq_or_transGen.mp reaches with same | through
  · rw [← same] at before
    exact Nat.lt_irrefl _ (of_decide_eq_true before)
  · cases key with
    | array other =>
        exact Nat.lt_asymm (stratified.index_lt through) (of_decide_eq_true before)
    | nothing | number | text | boolean | function =>
        obtain ⟨_, holds, -⟩ := Relation.TransGen.head'_iff.mp through
        cases holds

namespace Foreign

variable {key key' : Value} (foreign : h.Foreign ref key) (foreign' : h.Foreign ref key')
include foreign foreign'

theorem exists_same : ∃ b, h.same key key' = .ok b := by
  obtain ⟨t, unfolds⟩ := foreign.grounded.exists_unfolds
  obtain ⟨u, other⟩ := foreign'.grounded.exists_unfolds
  exact ⟨_, unfolds.same other⟩

/-- Whether two keys are equal does not depend on the array that they do not contain. -/
theorem same_write (pairs : Pairs) : (h.write ref pairs).same key key' = h.same key key' := by
  have depth : (h.write ref pairs).depth = h.depth := by
    rw [Heap.depth, Heap.write, Array.size_setIfInBounds, Heap.depth]
  have kept : ∀ {v : Value}, ¬h.Reaches v (.array ref) → ∀ other, h.Reaches v (.array other) →
      (h.write ref pairs).read other = h.read other := by
    intro v outside other reaches
    refine read_write_of_ne ?_ pairs
    rintro rfl
    exact outside reaches
  rw [Heap.same, depth]
  exact sameWithin_congr (kept foreign.outside) (kept foreign'.outside)

end Foreign

section Keys

variable {pairs table : Pairs} {key : Value}
  (foreign : h.Foreign ref key) (keys : ∀ pair ∈ pairs, h.Foreign ref pair.1)
include foreign keys

theorem Foreign.decides : h.Decides pairs key :=
  fun pair mem => (keys pair mem).exists_same foreign

theorem Foreign.lookup_write : (h.write ref table).lookup pairs key = h.lookup pairs key :=
  lookup_congr fun pair mem => (keys pair mem).same_write foreign table

theorem Foreign.store_write (v : Value) :
    (h.write ref table).store pairs key v = h.store pairs key v :=
  store_congr (fun pair mem => (keys pair mem).same_write foreign table) v

end Keys

/-! ## First and last of equal keys -/

/-- The keys that equal none in front of them. -/
def firsts (h : Heap) : List Value → List Value
  | [] => []
  | key :: keys => key :: (h.firsts keys).filter fun k => h.same key k ≠ .ok true

/-- The value that comes with the last of the keys that equal a key. -/
def latest (h : Heap) (entries : Pairs) (key : Value) : Option Value :=
  (entries.reverse.find? fun entry => h.same entry.1 key = .ok true).map Prod.snd

theorem mem_of_mem_firsts {key : Value} {keys : List Value} (mem : key ∈ h.firsts keys) :
    key ∈ keys := by
  induction keys with
  | nil => exact mem
  | cons first keys ih =>
      rcases List.mem_cons.mp mem with rfl | mem
      · exact List.mem_cons_self
      · exact List.mem_cons_of_mem _ (ih (List.mem_filter.mp mem).1)

theorem firsts_concat (keys : List Value) (key : Value) :
    h.firsts (keys ++ [key]) =
      h.firsts keys ++ [key].filter fun key => ∀ k ∈ keys, h.same k key ≠ .ok true := by
  induction keys with
  | nil => simp [firsts]
  | cons first keys ih =>
      rw [List.cons_append, firsts, ih, List.filter_append, List.filter_filter, firsts,
        List.cons_append]
      simp only [List.forall_mem_cons, Bool.decide_and]

theorem firsts_concat_old {keys : List Value} {key k : Value} (mem : k ∈ keys)
    (equal : h.same k key = .ok true) : h.firsts (keys ++ [key]) = h.firsts keys := by
  have old : ¬∀ k ∈ keys, h.same k key ≠ .ok true := fun new => new k mem equal
  simp [firsts_concat, old]

theorem firsts_concat_new {keys : List Value} {key : Value}
    (new : ∀ k ∈ keys, h.same k key ≠ .ok true) :
    h.firsts (keys ++ [key]) = h.firsts keys ++ [key] := by
  simpa [firsts_concat] using new

theorem firsts_eq_self {keys : List Value}
    (unequal : keys.Pairwise fun k k' => h.same k k' ≠ .ok true) : h.firsts keys = keys := by
  induction keys with
  | nil => rfl
  | cons key keys ih =>
      obtain ⟨apart, unequal⟩ := List.pairwise_cons.mp unequal
      rw [firsts, ih unequal, List.filter_eq_self.mpr fun k mem => decide_eq_true (apart k mem)]

theorem latest_concat (entries : Pairs) (entry : Value × Value) (key : Value) :
    h.latest (entries ++ [entry]) key =
      if h.same entry.1 key = .ok true then some entry.2 else h.latest entries key := by
  rw [latest, List.reverse_append, List.reverse_singleton, List.singleton_append,
    List.find?_cons]
  by_cases equal : h.same entry.1 key = .ok true
  · simp [equal]
  · simp [equal, latest]

/-- A key that equals one of some keys equals one of those that equal none in front of them. -/
theorem exists_mem_firsts {keys : List Value} {key k : Value} (mem : k ∈ keys)
    (equal : h.same k key = .ok true) : ∃ first ∈ h.firsts keys, h.same first key = .ok true := by
  induction keys with
  | nil => cases mem
  | cons first keys ih =>
      by_cases here : h.same first key = .ok true
      · exact ⟨first, List.mem_cons_self, here⟩
      · rcases List.mem_cons.mp mem with rfl | mem
        · exact absurd equal here
        · obtain ⟨next, mem, equal⟩ := ih mem
          refine ⟨next, List.mem_cons_of_mem _ (List.mem_filter.mpr ⟨mem, ?_⟩), equal⟩
          refine decide_eq_true fun between : h.SameAt h.depth first next => here ?_
          exact between.trans equal

theorem latest_congr {key key' : Value} (equal : h.same key key' = .ok true) (entries : Pairs) :
    h.latest entries key = h.latest entries key' := by
  have equal : h.SameAt h.depth key key' := equal
  have alike : ∀ k, h.same k key = .ok true ↔ h.same k key' = .ok true := fun k =>
    ⟨fun same => SameAt.trans same equal, fun same => SameAt.trans same equal.symm⟩
  simp only [latest, alike]

theorem latest_eq_none {entries : Pairs} {key : Value}
    (unequal : ∀ entry ∈ entries, h.same entry.1 key ≠ .ok true) : h.latest entries key = none := by
  rw [latest, Option.map_eq_none_iff, List.find?_eq_none]
  intro entry mem
  simpa using unequal entry (List.mem_reverse.mp mem)

theorem latest_eq_some {before after : Pairs} {key v : Value}
    (unequal : ∀ entry ∈ after, h.same entry.1 key ≠ .ok true) :
    h.latest (before ++ (key, v) :: after) key = some v := by
  induction after using List.reverseRecOn with
  | nil =>
      rw [latest_concat]
      exact if_pos (sameWithin_self _ key)
  | append_singleton after entry ih =>
      obtain ⟨unequal, last⟩ := List.forall_mem_append.mp unequal
      rw [← List.cons_append, ← List.append_assoc, latest_concat,
        if_neg (last entry List.mem_cons_self)]
      exact ih unequal

theorem not_same_swap {k k' : Value} (unequal : h.same k k' = .ok false) :
    h.same k' k ≠ .ok true :=
  fun equal => not_both_same unequal ⟨sameWithin_self _ k, equal⟩

/-! ## Tables -/

/-- The pairs of an array that holds some entries, which were stored one after another: no two keys
are equal, they stand in the order in which the first of equal keys were stored, and each has the
value that was stored with the last. -/
structure Tabulates (h : Heap) (entries table : Pairs) : Prop where
  unequal : (table.map Prod.fst).Pairwise fun k k' => h.same k k' = .ok false
  order : table.map Prod.fst = h.firsts (entries.map Prod.fst)
  last : ∀ pair ∈ table, h.latest entries pair.1 = some pair.2

theorem tabulates_nil : h.Tabulates [] [] :=
  ⟨.nil, rfl, fun _ mem => absurd mem List.not_mem_nil⟩

namespace Tabulates

variable {entries table : Pairs} (tabulates : h.Tabulates entries table) {key : Value}
include tabulates

/-- A key has a slot exactly if it equals that of an entry. -/
theorem lacks_iff (decides : h.Decides table key) :
    h.Lacks table key ↔ ∀ k ∈ entries.map Prod.fst, h.same k key ≠ .ok true := by
  constructor
  · intro lacks k mem equal
    obtain ⟨first, mem, equal⟩ := exists_mem_firsts mem equal
    rw [← tabulates.order] at mem
    obtain ⟨pair, inside, rfl⟩ := List.mem_map.mp mem
    have unequal := lacks pair inside
    rw [equal] at unequal
    cases unequal
  · intro unequal pair mem
    have first : pair.1 ∈ h.firsts (entries.map Prod.fst) :=
      tabulates.order ▸ List.mem_map_of_mem mem
    obtain ⟨b, compared⟩ := decides pair mem
    cases b with
    | true => exact absurd compared (unequal pair.1 (mem_of_mem_firsts first))
    | false => exact compared

/-- The keys are keys of entries. -/
theorem forall_key {P : Value → Prop} (each : ∀ entry ∈ entries, P entry.1) :
    ∀ pair ∈ table, P pair.1 := by
  intro pair mem
  have first : pair.1 ∈ h.firsts (entries.map Prod.fst) :=
    tabulates.order ▸ List.mem_map_of_mem mem
  obtain ⟨entry, mem, same⟩ := List.mem_map.mp (mem_of_mem_firsts first)
  exact same ▸ each entry mem

/-- One more value is stored. -/
theorem store {table' : Pairs} {v : Value} (stored : h.store table key v = .ok table') :
    h.Tabulates (entries ++ [(key, v)]) table' := by
  rcases store_slot stored with ⟨before, k, w, after, rfl, lacks, equal, rfl⟩ | ⟨lacks, rfl⟩
  · have keys : (before ++ (k, v) :: after).map Prod.fst =
        (before ++ (k, w) :: after).map Prod.fst := by
      rw [List.map_append, List.map_append, List.map_cons, List.map_cons]
    refine ⟨keys ▸ tabulates.unequal, ?_, fun pair mem => ?_⟩
    · have first : k ∈ entries.map Prod.fst := by
        refine mem_of_mem_firsts (h := h) (tabulates.order ▸ ?_)
        exact List.mem_map_of_mem (List.mem_append_right _ List.mem_cons_self)
      rw [keys, tabulates.order, List.map_append]
      exact (firsts_concat_old first equal).symm
    · rw [latest_concat]
      rcases List.mem_append.mp mem with mem | mem
      · rw [if_neg (not_same_swap (lacks pair mem))]
        exact tabulates.last pair (List.mem_append_left _ mem)
      · rcases List.mem_cons.mp mem with rfl | mem
        · exact if_pos (SameAt.symm equal)
        · have unequal : h.same k pair.1 = .ok false := by
            have all := tabulates.unequal
            rw [List.map_append, List.map_cons] at all
            exact (List.pairwise_cons.mp (List.pairwise_append.mp all).2.1).1 pair.1
              (List.mem_map_of_mem mem)
          have differ : h.same key pair.1 ≠ .ok true := fun other =>
            not_both_same unequal ⟨equal, SameAt.symm other⟩
          rw [if_neg differ]
          exact tabulates.last pair (List.mem_append_right _ (List.mem_cons_of_mem _ mem))
  · refine ⟨?_, ?_, fun pair mem => ?_⟩
    · rw [List.map_append, List.map_singleton]
      refine List.pairwise_append.mpr ⟨tabulates.unequal, List.pairwise_singleton _ _, ?_⟩
      intro k mem new single
      obtain ⟨pair, inside, rfl⟩ := List.mem_map.mp mem
      rw [List.mem_singleton.mp single]
      exact lacks pair inside
    · have new := (tabulates.lacks_iff fun pair mem => ⟨false, lacks pair mem⟩).mp lacks
      rw [List.map_append, List.map_append, tabulates.order]
      exact (firsts_concat_new new).symm
    · rw [latest_concat]
      rcases List.mem_append.mp mem with mem | mem
      · rw [if_neg (not_same_swap (lacks pair mem))]
        exact tabulates.last pair mem
      · rw [List.mem_singleton.mp mem]
        exact if_pos (sameWithin_self _ key)

/-- What is read is the value that was stored last under an equal key. -/
theorem lookup (decides : h.Decides table key) :
    h.lookup table key = .ok ((h.latest entries key).getD .nothing) := by
  rcases decides.slot with lacks | ⟨before, k, v, after, rfl, lacks, equal⟩
  · have unequal := (tabulates.lacks_iff decides).mp lacks
    rw [lacks.lookup, latest_eq_none fun entry mem => unequal _ (List.mem_map_of_mem mem)]
    rfl
  · rw [lacks.lookup_first equal, ← latest_congr equal,
      tabulates.last (k, v) (List.mem_append_right _ List.mem_cons_self)]
    rfl

/-- An entry is kept unless an equal key comes later. -/
theorem kept {before after : Pairs} {v : Value} (decides : h.Decides table key)
    (split : entries = before ++ (key, v) :: after)
    (last : ∀ entry ∈ after, h.same entry.1 key ≠ .ok true) :
    ∃ pair ∈ table, h.same pair.1 key = .ok true ∧ pair.2 = v := by
  rcases decides.slot with lacks | ⟨front, k, w, rest, rfl, -, equal⟩
  · have inside : key ∈ entries.map Prod.fst := by
      rw [split]
      exact List.mem_map_of_mem (List.mem_append_right _ List.mem_cons_self)
    exact absurd (sameWithin_self _ key) ((tabulates.lacks_iff decides).mp lacks key inside)
  · have mem : (k, w) ∈ front ++ (k, w) :: rest := List.mem_append_right _ List.mem_cons_self
    have value : some w = some v := by
      rw [← tabulates.last (k, w) mem, latest_congr equal, split, latest_eq_some last]
    exact ⟨(k, w), mem, equal, Option.some.inj value⟩

end Tabulates

/-! ## One array -/

section Array

variable (there : ref.index < h.arrays.size)
include there

theorem get_write {pairs : Pairs} {key : Value} (keys : ∀ pair ∈ pairs, h.Foreign ref pair.1)
    (foreign : h.Foreign ref key) : (h.write ref pairs).get ref key = h.lookup pairs key := by
  rw [get, read_write_self there, foreign.lookup_write keys]

/-- Storing a value in an array that has some pairs gives one whose keys are as foreign. -/
theorem exists_set {pairs : Pairs} {key : Value} (keys : ∀ pair ∈ pairs, h.Foreign ref pair.1)
    (foreign : h.Foreign ref key) (v : Value) :
    ∃ pairs', h.store pairs key v = .ok pairs' ∧
      (h.write ref pairs).set ref key v = .ok (h.write ref pairs') ∧
      ∀ pair ∈ pairs', h.Foreign ref pair.1 := by
  obtain ⟨pairs', stored⟩ := (foreign.decides keys).exists_store v
  refine ⟨pairs', stored, ?_, fun pair mem => ?_⟩
  · rw [set, read_write_self there, foreign.store_write keys, stored]
    show Except.ok ((h.write ref pairs).write ref pairs') = _
    rw [write_write]
  · have each : ∀ pair ∈ pairs, h.Foreign ref pair.1 ∧ True := fun pair mem =>
      ⟨keys pair mem, trivial⟩
    exact (forall_stored (Q := fun _ => True) stored each foreign trivial pair mem).1

/-- What is stored in an array that was empty makes a table. -/
theorem exists_setAll (empty : h.read ref = []) {entries : Pairs}
    (keys : ∀ entry ∈ entries, h.Foreign ref entry.1) :
    ∃ table, h.setAll ref entries = .ok (h.write ref table) ∧ h.Tabulates entries table := by
  induction entries using List.reverseRecOn with
  | nil =>
      have written : h.write ref [] = h := empty ▸ write_read h ref
      exact ⟨[], congrArg Except.ok written.symm, tabulates_nil⟩
  | append_singleton entries entry ih =>
      obtain ⟨keys, new⟩ := List.forall_mem_append.mp keys
      obtain ⟨table, sofar, tabulates⟩ := ih keys
      obtain ⟨table', stored, next, -⟩ :=
        exists_set there (tabulates.forall_key keys) (new entry List.mem_cons_self) entry.2
      exact ⟨table', (setAll_concat _ _ sofar).trans next, tabulates.store stored⟩

/-- **An array is a finite map in order of insertion.** Let its keys, of which some may be equal,
and those that are looked at be free of cycles and not contain the array. Then reading finds the
first of equal keys. What is stored under a key is read under it, and what is read under keys that
are unequal does not change; keys stay where they are, and the key comes behind them exactly if it
equals none; storing twice under a key is storing the second value. And an array that was empty
before any values were stored in it, one after another, holds the entries as a table: it has no two
equal keys, the keys stand in the order in which they came first, and under each there is the value
that was stored last. -/
theorem insertion_ordered :
    ((∀ pair ∈ h.read ref, h.Foreign ref pair.1) → ∀ key v, h.Foreign ref key →
      ((∃ before k w after, h.read ref = before ++ (k, w) :: after ∧ h.Lacks before key ∧
          h.same k key = .ok true ∧ h.get ref key = .ok w) ∨
        h.Lacks (h.read ref) key ∧ h.get ref key = .ok .nothing) ∧
      ∃ h', h.set ref key v = .ok h' ∧ h'.get ref key = .ok v ∧
        (∀ key', h.Foreign ref key' → h.same key' key ≠ .ok true →
          ∃ w, h.get ref key' = .ok w ∧ h'.get ref key' = .ok w) ∧
        ((∃ pair ∈ h.read ref, h.same pair.1 key = .ok true) ∧ h'.keys ref = h.keys ref ∨
          h.Lacks (h.read ref) key ∧ h'.keys ref = h.keys ref ++ [key]) ∧
        ∀ w, ∃ h'', h'.set ref key w = .ok h'' ∧ h.set ref key w = .ok h'') ∧
    (h.read ref = [] → ∀ entries : Pairs, (∀ entry ∈ entries, h.Foreign ref entry.1) →
      ∃ h', h.setAll ref entries = .ok h' ∧ h.Tabulates entries (h'.read ref) ∧
        (∀ key, h.Foreign ref key → h'.get ref key = .ok ((h.latest entries key).getD .nothing)) ∧
        ∀ key key', h.Foreign ref key → h.Foreign ref key' → h'.same key key' = h.same key key') := by
  refine ⟨fun keys key v foreign => ⟨?_, ?_⟩, fun empty entries keys => ?_⟩
  · rcases (foreign.decides keys).slot with lacks | ⟨before, k, w, after, split, lacks, equal⟩
    · exact .inr ⟨lacks, lacks.lookup⟩
    · refine .inl ⟨before, k, w, after, split, lacks, equal, ?_⟩
      rw [get, split]
      exact lacks.lookup_first equal
  · obtain ⟨pairs, stored, -, keys'⟩ := exists_set there keys foreign v
    have read : (h.write ref pairs).read ref = pairs := read_write_self there pairs
    refine ⟨_, set_of_store stored, ?_, fun key' foreign' differ => ?_, ?_, fun w => ?_⟩
    · rw [get_write there keys' foreign, lookup_stored stored]
    · have decides := foreign'.decides keys
      obtain ⟨w, found⟩ := decides.exists_lookup
      refine ⟨w, found, ?_⟩
      rw [get_write there keys' foreign',
        lookup_stored_of_ne stored differ decides (foreign.exists_same foreign'), found]
    · rw [Heap.keys, read]
      exact keys_stored stored
    · obtain ⟨pairs', stored', next, -⟩ := exists_set there keys' foreign w
      refine ⟨_, next, set_of_store ?_⟩
      rw [← store_stored stored, stored']
  · obtain ⟨table, all, tabulates⟩ := exists_setAll there empty keys
    have keys' := tabulates.forall_key keys
    refine ⟨_, all, ?_, fun key foreign => ?_, fun key key' foreign foreign' => ?_⟩
    · rw [read_write_self there]
      exact tabulates
    · rw [get_write there keys' foreign, tabulates.lookup (foreign.decides keys')]
    · exact foreign.same_write foreign' table

end Array

/-- An array with two equal keys, and an empty one. -/
def drawer : Heap :=
  ⟨#[[(.number 0, .text "x")], [(.number 0, .text "x")],
    [(.array ⟨0⟩, .number 1), (.text "k", .number 2), (.array ⟨1⟩, .number 3)], []]⟩

theorem insertion_ordered_drawer :
    (∃ h, drawer.set ⟨2⟩ (.array ⟨1⟩) (.number 4) = .ok h ∧
      h.get ⟨2⟩ (.array ⟨1⟩) = .ok (.number 4) ∧ h.keys ⟨2⟩ = drawer.keys ⟨2⟩) ∧
    ∃ h, drawer.setAll ⟨3⟩
        [(.array ⟨1⟩, .number 5), (.number 7, .number 6), (.array ⟨0⟩, .number 8)] = .ok h ∧
      h.keys ⟨3⟩ = [.array ⟨1⟩, .number 7] ∧ h.get ⟨3⟩ (.array ⟨1⟩) = .ok (.number 8) := by
  have stratified : drawer.Stratified := by decide
  have twin : ∀ ref : Ref, 2 ≤ ref.index → drawer.Foreign ref (.array ⟨1⟩) := fun ref later =>
    stratified.foreign (decide_eq_true later)
  constructor
  · have keys : ∀ pair ∈ drawer.read ⟨2⟩, pair.1.isBefore 2 := by decide
    obtain ⟨h, done, read, -, order, -⟩ := ((insertion_ordered (by decide)).1
      (fun pair mem => stratified.foreign (keys pair mem)) (.array ⟨1⟩) (.number 4)
      (twin ⟨2⟩ (by decide))).2
    refine ⟨h, done, read, ?_⟩
    rcases order with ⟨-, same⟩ | ⟨lacks, -⟩
    · exact same
    · exact absurd (lacks (.array ⟨0⟩, .number 1) List.mem_cons_self) (by decide)
  · have keys : ∀ entry ∈ ([(.array ⟨1⟩, .number 5), (.number 7, .number 6),
        (.array ⟨0⟩, .number 8)] : Pairs), entry.1.isBefore 3 := by decide
    obtain ⟨h, done, tabulates, read, -⟩ := (insertion_ordered (by decide)).2 rfl _
      fun entry mem => stratified.foreign (keys entry mem)
    exact ⟨h, done, tabulates.order.trans rfl, read _ (twin ⟨3⟩ (by decide))⟩

end Mini.Heap
