import Mini.Proofs.Heap.Unfolding

/-!
# Data

What a value made of numbers, truth values and arrays of such values amounts to when its
references are looked through: a finite tree without functions and texts. Its display and its
comparisons are those of the tree.
-/

namespace Mini

mutual

/-- A number, a truth value, or pairs of data. -/
inductive Datum
  | number (n : Int)
  | boolean (b : Bool)
  | array (pairs : DatumPairs)
  deriving DecidableEq

/-- Keys and values, in order. -/
inductive DatumPairs
  | nil
  | cons (key value : Datum) (rest : DatumPairs)
  deriving DecidableEq

end

def DatumPairs.keys : DatumPairs → List Datum
  | .nil => []
  | .cons key _ rest => key :: rest.keys

mutual

/-- The display of a datum. -/
def Datum.text : Datum → String
  | .number n => Text.integerText n
  | .boolean b => if b then "true" else "false"
  | .array pairs => "[" ++ ",".intercalate pairs.texts ++ "]"

def DatumPairs.texts : DatumPairs → List String
  | .nil => []
  | .cons key value rest => (key.text ++ ":" ++ value.text) :: rest.texts

end

mutual

/-- Numbers are not too long, and no array has a key twice. -/
inductive Datum.Proper : Datum → Prop
  | number {n : Int} : Text.writable n = true → Datum.Proper (.number n)
  | boolean {b : Bool} : Datum.Proper (.boolean b)
  | array {pairs : DatumPairs} : pairs.Proper → Datum.Proper (.array pairs)

inductive DatumPairs.Proper : DatumPairs → Prop
  | nil : DatumPairs.Proper .nil
  | cons {key value : Datum} {rest : DatumPairs} : key.Proper → value.Proper →
      key ∉ rest.keys → rest.Proper → DatumPairs.Proper (.cons key value rest)

end

mutual

/-- A datum as a tree. -/
def Datum.tree : Datum → Tree
  | .number n => .number n
  | .boolean b => .boolean b
  | .array pairs => .array pairs.trees

def DatumPairs.trees : DatumPairs → TreePairs
  | .nil => .nil
  | .cons key value rest => .cons key.tree value.tree rest.trees

end

mutual

theorem Datum.eq_of_tree {d e : Datum} (same : d.tree = e.tree) : d = e := by
  match d with
  | .number _ | .boolean _ =>
      cases e <;> cases same
      rfl
  | .array ds =>
      cases e with
      | number | boolean => cases same
      | array es => rw [DatumPairs.eq_of_trees (Tree.array.inj same)]

theorem DatumPairs.eq_of_trees {ds es : DatumPairs} (same : ds.trees = es.trees) : ds = es := by
  match ds with
  | .nil =>
      cases es with
      | nil => rfl
      | cons => cases same
  | .cons k v rest =>
      cases es with
      | nil => cases same
      | cons k' v' rest' =>
          obtain ⟨key, value, later⟩ := TreePairs.cons.inj same
          rw [Datum.eq_of_tree key, Datum.eq_of_tree value, DatumPairs.eq_of_trees later]

end

mutual

theorem Datum.Proper.display_tree {d : Datum} (proper : d.Proper) : d.tree.display = .ok d.text := by
  match proper with
  | .number writable => rw [Datum.tree, Tree.display, Heap.numberText, if_pos writable, Datum.text]
  | .boolean => rfl
  | .array pairs =>
      rw [Datum.tree, Tree.display, pairs.displays_trees]
      rfl
termination_by structural proper

theorem DatumPairs.Proper.displays_trees {ds : DatumPairs} (proper : ds.Proper) :
    ds.trees.displays = .ok ds.texts := by
  match proper with
  | .nil => rfl
  | .cons key value _ rest =>
      rw [DatumPairs.trees, TreePairs.displays, key.display_tree, value.display_tree,
        rest.displays_trees]
      rfl
termination_by structural proper

end

namespace Heap

mutual

/-- A heap shows a datum at a value. -/
inductive Shows (h : Heap) : Value → Datum → Prop
  | number {n : Int} : Shows h (.number n) (.number n)
  | boolean {b : Bool} : Shows h (.boolean b) (.boolean b)
  | array {ref : Ref} {pairs : DatumPairs} : ref.index < h.arrays.size →
      ShowsPairs h (h.read ref) pairs → Shows h (.array ref) (.array pairs)

/-- A heap shows pairs of data at pairs of values. -/
inductive ShowsPairs (h : Heap) : Pairs → DatumPairs → Prop
  | nil : ShowsPairs h [] .nil
  | cons {key value : Value} {pairs : Pairs} {k v : Datum} {rest : DatumPairs} :
      Shows h key k → Shows h value v → ShowsPairs h pairs rest →
      ShowsPairs h ((key, value) :: pairs) (.cons k v rest)

end

variable {h : Heap}

/-! ## Heaps that grow -/

mutual

theorem Shows.extend {h' : Heap} {v : Value} {d : Datum} (shows : h.Shows v d)
    (grows : h.Extends h') : h'.Shows v d := by
  match shows with
  | .number => exact .number
  | .boolean => exact .boolean
  | .array inside pairs =>
      obtain ⟨still, same⟩ := grows.read inside
      have shown := pairs.extend grows
      rw [← same] at shown
      exact .array still shown
termination_by structural shows

theorem ShowsPairs.extend {h' : Heap} {pairs : Pairs} {ds : DatumPairs}
    (shows : h.ShowsPairs pairs ds) (grows : h.Extends h') : h'.ShowsPairs pairs ds := by
  match shows with
  | .nil => exact .nil
  | .cons key value rest => exact .cons (key.extend grows) (value.extend grows) (rest.extend grows)
termination_by structural shows

end

/-! ## Displays and comparisons -/

mutual

/-- A value that shows a datum amounts to its tree. -/
theorem Shows.unfolds {v : Value} {d : Datum} (shows : h.Shows v d) : h.Unfolds v d.tree := by
  match shows with
  | .number => exact .number
  | .boolean => exact .boolean
  | .array _ pairs => exact .array pairs.unfolds
termination_by structural shows

theorem ShowsPairs.unfolds {pairs : Pairs} {ds : DatumPairs} (shows : h.ShowsPairs pairs ds) :
    h.UnfoldsPairs pairs ds.trees := by
  match shows with
  | .nil => exact .nil
  | .cons key value rest => exact .cons key.unfolds value.unfolds rest.unfolds
termination_by structural shows

end

/-- A value shows at most one datum. -/
theorem Shows.unique {v : Value} {d d' : Datum} (shows : h.Shows v d) (also : h.Shows v d') :
    d = d' :=
  Datum.eq_of_tree (shows.unfolds.unique also.unfolds)

/-- The display of a value is that of the datum it shows. -/
theorem Shows.display {v : Value} {d : Datum} (shows : h.Shows v d) (proper : d.Proper) :
    h.display v = .ok d.text :=
  shows.unfolds.display.trans proper.display_tree

/-- Two values are the same exactly if they show the same datum. -/
theorem Shows.same {v w : Value} {d e : Datum} (shows : h.Shows v d) (other : h.Shows w e) :
    h.same v w = .ok (decide (d = e)) := by
  have trees : d.tree = e.tree ↔ d = e := ⟨Datum.eq_of_tree, congrArg Datum.tree⟩
  rw [shows.unfolds.same other.unfolds, decide_eq_decide.mpr trees]

/-! ## Which values are data -/

/-- A value made of numbers that are not too long, truth values and arrays of such values
in which no two keys are the same. -/
inductive IsData (h : Heap) : Value → Prop
  | number {n : Int} : Text.writable n = true → IsData h (.number n)
  | boolean {b : Bool} : IsData h (.boolean b)
  | array {ref : Ref} : ref.index < h.arrays.size → (∀ pair ∈ h.read ref, IsData h pair.1) →
      (∀ pair ∈ h.read ref, IsData h pair.2) →
      (h.read ref).Pairwise (fun pair other => h.same pair.1 other.1 = .ok false) →
      IsData h (.array ref)

theorem ShowsPairs.exists_key {pairs : Pairs} {ds : DatumPairs} {k : Datum} :
    h.ShowsPairs pairs ds → k ∈ ds.keys → ∃ pair ∈ pairs, h.Shows pair.1 k
  | .cons key _ rest, mem => by
      rcases List.mem_cons.mp mem with rfl | mem
      · exact ⟨_, List.mem_cons_self, key⟩
      · obtain ⟨pair, later, shown⟩ := rest.exists_key mem
        exact ⟨pair, List.mem_cons_of_mem _ later, shown⟩

theorem showsPairs_of_parts {pairs : Pairs}
    (keys : ∀ pair ∈ pairs, ∃ d, h.Shows pair.1 d ∧ d.Proper)
    (values : ∀ pair ∈ pairs, ∃ d, h.Shows pair.2 d ∧ d.Proper)
    (apart : pairs.Pairwise fun pair other => h.same pair.1 other.1 = .ok false) :
    ∃ ds, h.ShowsPairs pairs ds ∧ ds.Proper := by
  induction pairs with
  | nil => exact ⟨.nil, .nil, .nil⟩
  | cons pair pairs ih =>
      obtain ⟨differ, apart⟩ := List.pairwise_cons.mp apart
      obtain ⟨ds, shows, proper⟩ := ih (fun p mem => keys p (List.mem_cons_of_mem _ mem))
        (fun p mem => values p (List.mem_cons_of_mem _ mem)) apart
      obtain ⟨k, key, properKey⟩ := keys pair List.mem_cons_self
      obtain ⟨v, value, properValue⟩ := values pair List.mem_cons_self
      have new : k ∉ ds.keys := by
        intro mem
        obtain ⟨other, later, shown⟩ := shows.exists_key mem
        have same := key.same shown
        rw [differ other later] at same
        simp at same
      exact ⟨.cons k v ds, .cons key value shows, .cons properKey properValue new proper⟩

/-- Data are the values that show a proper datum. -/
theorem IsData.shows {v : Value} (data : h.IsData v) : ∃ d, h.Shows v d ∧ d.Proper := by
  induction data with
  | number writable => exact ⟨_, .number, .number writable⟩
  | boolean => exact ⟨_, .boolean, .boolean⟩
  | array inside _ _ apart keys values =>
      obtain ⟨ds, shows, proper⟩ := showsPairs_of_parts keys values apart
      exact ⟨.array ds, .array inside shows, .array proper⟩

end Heap

end Mini
