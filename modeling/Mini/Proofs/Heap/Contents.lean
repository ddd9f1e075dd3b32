import Mathlib.Data.List.Chain
import Mathlib.Data.List.Perm.Subperm
import Mathlib.Data.List.Nodup
import Mathlib.Logic.Relation
import Mini.Heap.Display

/-!
# What arrays contain

The values that an array holds, and the values that are reached through arrays inside
arrays. Looking through the arrays of a value goes on without end exactly where one of
them contains itself: a path that does not come back to an array visits each at most
once, so it is no longer than there are arrays.
-/

namespace Mini.Heap

variable {h : Heap}

/-! ## Containment -/

/-- An array holds its keys and its values. -/
inductive Holds (h : Heap) : Value → Value → Prop
  | key {ref : Ref} {pair : Value × Value} : pair ∈ h.read ref → Holds h (.array ref) pair.1
  | value {ref : Ref} {pair : Value × Value} : pair ∈ h.read ref → Holds h (.array ref) pair.2

/-- A value is reached by looking through arrays, from itself on. -/
def Reaches (h : Heap) : Value → Value → Prop :=
  Relation.ReflTransGen h.Holds

/-- An array that is found by looking through its own contents. -/
def SelfContaining (h : Heap) (ref : Ref) : Prop :=
  Relation.TransGen h.Holds (.array ref) (.array ref)

/-- Only an array of the heap holds anything. -/
theorem Holds.index_lt {ref : Ref} {v : Value} (holds : h.Holds (.array ref) v) :
    ref.index < h.arrays.size := by
  have inside : ∀ {pair : Value × Value}, pair ∈ h.read ref → ref.index < h.arrays.size := by
    intro pair mem
    rcases Nat.lt_or_ge ref.index h.arrays.size with lt | ge
    · exact lt
    · rw [read, Array.getElem?_eq_none ge] at mem
      cases mem
  cases holds with
  | key mem => exact inside mem
  | value mem => exact inside mem

/-! ## Paths through arrays -/

/-- One array holds another. -/
def Inside (h : Heap) (outer inner : Ref) : Prop :=
  h.Holds (.array outer) (.array inner)

theorem pairwise_of_chain {path : List Ref} (chain : path.IsChain h.Inside) :
    path.Pairwise fun outer inner => Relation.TransGen h.Holds (.array outer) (.array inner) := by
  have further : path.IsChain fun outer inner =>
      Relation.TransGen h.Holds (.array outer) (.array inner) :=
    chain.imp fun _ _ holds => Relation.TransGen.single holds
  have trans : IsTrans Ref fun outer inner =>
      Relation.TransGen h.Holds (.array outer) (.array inner) :=
    ⟨fun _ _ _ first later => first.trans later⟩
  exact List.isChain_iff_pairwise.mp further

theorem index_lt_of_chain : ∀ {path : List Ref}, path.IsChain h.Inside →
    ∀ ref ∈ path.dropLast, ref.index < h.arrays.size
  | [], _, ref, mem => by cases mem
  | [_], _, ref, mem => by cases mem
  | outer :: inner :: rest, chain, ref, mem => by
      obtain ⟨holds, chain⟩ := List.isChain_cons_cons.mp chain
      rcases List.mem_cons.mp mem with here | later
      · rw [here]
        exact holds.index_lt
      · exact index_lt_of_chain chain ref later

/-- Arrays of the heap that are all different are no more than there are. -/
theorem length_le_size {path : List Ref} (distinct : path.Nodup)
    (inside : ∀ ref ∈ path, ref.index < h.arrays.size) : path.length ≤ h.arrays.size := by
  have indices : (path.map Ref.index).Nodup := by
    refine List.Nodup.map ?_ distinct
    rintro ⟨_⟩ ⟨_⟩ same
    exact congrArg Ref.mk same
  have subset : path.map Ref.index ⊆ List.range h.arrays.size := by
    intro index mem
    obtain ⟨ref, on, rfl⟩ := List.mem_map.mp mem
    exact List.mem_range.mpr (inside ref on)
  have bound := (List.subperm_of_subset indices subset).length_le
  rwa [List.length_map, List.length_range] at bound

/-- A path that is longer than the heap comes back to some array. -/
theorem selfContaining_of_chain {path : List Ref} (chain : path.IsChain h.Inside)
    (long : h.arrays.size + 1 < path.length) : ∃ ref ∈ path, h.SelfContaining ref := by
  by_contra none
  have distinct : path.Nodup := by
    refine (pairwise_of_chain chain).imp_of_mem ?_
    rintro outer inner mem - through rfl
    exact none ⟨outer, mem, through⟩
  have bound := length_le_size (distinct.sublist path.dropLast_sublist) (index_lt_of_chain chain)
  rw [List.length_dropLast] at bound
  omega

/-- All arrays on a path are reached from the first one. -/
theorem reaches_of_chain {first : Ref} {path : List Ref}
    (chain : (first :: path).IsChain h.Inside) :
    ∀ ref ∈ first :: path, h.Reaches (.array first) (.array ref) := by
  intro ref mem
  rcases List.mem_cons.mp mem with rfl | later
  · exact .refl
  · have through := List.rel_of_pairwise_cons (pairwise_of_chain chain) later
    exact through.to_reflTransGen

/-! ## Heaps that grow -/

/-- A heap has all arrays of another one, as they were there, and maybe more. -/
def Extends (h h' : Heap) : Prop :=
  ∃ more, h'.arrays = h.arrays ++ more

theorem Extends.refl (h : Heap) : h.Extends h :=
  ⟨#[], (Array.append_empty).symm⟩

theorem Extends.trans {h h' h'' : Heap} (first : h.Extends h') (later : h'.Extends h'') :
    h.Extends h'' := by
  obtain ⟨more, same⟩ := first
  obtain ⟨more', same'⟩ := later
  refine ⟨more ++ more', ?_⟩
  rw [same', same, Array.append_assoc]

theorem extends_add (h : Heap) (pairs : Pairs) : h.Extends (h.add pairs) :=
  ⟨#[pairs], Array.push_eq_append⟩

theorem Extends.read {h h' : Heap} (grows : h.Extends h') {ref : Ref}
    (inside : ref.index < h.arrays.size) :
    ref.index < h'.arrays.size ∧ h'.read ref = h.read ref := by
  obtain ⟨more, same⟩ := grows
  constructor
  · rw [same, Array.size_append]
    omega
  · rw [Heap.read, Heap.read, same, Array.getElem?_append_left inside]

/-! ## Values without a display -/

/-- Why a value has no display: somewhere in it there is an array that contains itself,
or a number that is too long. -/
inductive Undisplayable (h : Heap) (v : Value) : Limit → Prop
  | nesting {ref : Ref} : h.Reaches v (.array ref) → h.SelfContaining ref →
      Undisplayable h v .nesting
  | digits {n : Int} : h.Reaches v (.number n) → Text.writable n = false →
      Undisplayable h v .digits

/-- What is wrong with a part is wrong with the whole. -/
theorem Undisplayable.of_holds {v w : Value} {limit : Limit} (part : h.Undisplayable w limit)
    (holds : h.Holds v w) : h.Undisplayable v limit := by
  cases part with
  | nesting reaches contains => exact .nesting (reaches.head holds) contains
  | digits reaches long => exact .digits (reaches.head holds) long

theorem pairTexts_error {join : String → String → String} {text : Value → Except Limit String}
    {limit : Limit} : ∀ {pairs : Pairs}, pairTexts join text pairs = .error limit →
    ∃ pair ∈ pairs, text pair.1 = .error limit ∨ text pair.2 = .error limit
  | [], e => by cases e
  | (key, value) :: rest, e => by
      cases hk : text key with
      | error l =>
          rw [pairTexts, hk] at e
          cases e
          exact ⟨_, List.mem_cons_self, Or.inl hk⟩
      | ok k =>
          cases hv : text value with
          | error l =>
              rw [pairTexts, hk, hv] at e
              cases e
              exact ⟨_, List.mem_cons_self, Or.inr hv⟩
          | ok v =>
              rw [pairTexts, hk, hv] at e
              cases hrest : pairTexts join text rest with
              | ok texts => rw [hrest] at e; cases e
              | error l =>
                  rw [hrest] at e
                  cases e
                  obtain ⟨pair, mem, fails⟩ := pairTexts_error hrest
                  exact ⟨pair, List.mem_cons_of_mem _ mem, fails⟩

/-! ### One level of a display -/

theorem displayWithin_number (depth : Nat) (n : Int) :
    h.displayWithin depth (.number n) = numberText n := by
  cases depth <;> rfl

theorem displayWithin_array_succ (depth : Nat) (ref : Ref) :
    h.displayWithin (depth + 1) (.array ref) =
      match pairTexts (· ++ ":" ++ ·) (h.displayWithin depth) (h.read ref) with
      | .ok items => .ok ("[" ++ ",".intercalate items ++ "]")
      | .error limit => .error limit := by
  show (do
    let items ← pairTexts (· ++ ":" ++ ·) (h.displayWithin depth) (h.read ref)
    return "[" ++ ",".intercalate items ++ "]") = _
  cases pairTexts (· ++ ":" ++ ·) (h.displayWithin depth) (h.read ref) <;> rfl

/-- Only numbers and arrays may be without a display. -/
theorem displayWithin_plain {depth : Nat} {v : Value} {limit : Limit}
    (e : h.displayWithin depth v = .error limit) :
    (∃ n, v = .number n) ∨ ∃ ref, v = .array ref := by
  cases v with
  | number n => exact Or.inl ⟨n, rfl⟩
  | array ref => exact Or.inr ⟨ref, rfl⟩
  | nothing | text | boolean | function => cases depth <;> cases e

theorem numberText_error {n : Int} {limit : Limit} (e : numberText n = .error limit) :
    h.Undisplayable (.number n) limit := by
  unfold numberText at e
  split at e
  · cases e
  · rename_i long
    cases e
    exact .digits .refl (Bool.eq_false_iff.mpr long)

/-- A display up to some depth fails at a number, or at the end of a path that is as long
as the depth. -/
theorem displayWithin_error {depth : Nat} {v : Value} {limit : Limit}
    (e : h.displayWithin depth v = .error limit) :
    h.Undisplayable v limit ∨ limit = .nesting ∧ ∃ first path,
      v = .array first ∧ path.length = depth ∧ (first :: path).IsChain h.Inside := by
  induction depth generalizing v with
  | zero =>
      rcases displayWithin_plain e with ⟨n, rfl⟩ | ⟨ref, rfl⟩
      · rw [displayWithin_number] at e
        exact Or.inl (numberText_error e)
      · cases e
        exact Or.inr ⟨rfl, ref, [], rfl, rfl, .singleton _⟩
  | succ depth ih =>
      rcases displayWithin_plain e with ⟨n, rfl⟩ | ⟨ref, rfl⟩
      · rw [displayWithin_number] at e
        exact Or.inl (numberText_error e)
      · rw [displayWithin_array_succ] at e
        -- a part that fails one level down makes the path one array longer
        have part : ∀ {w : Value}, h.Holds (.array ref) w → h.displayWithin depth w = .error limit →
            h.Undisplayable (.array ref) limit ∨ limit = .nesting ∧ ∃ first path,
              Value.array ref = .array first ∧ path.length = depth + 1 ∧
                (first :: path).IsChain h.Inside := by
          intro w holds fails
          rcases ih fails with found | ⟨nesting, first, path, rfl, length, chain⟩
          · exact Or.inl (found.of_holds holds)
          · have longer : (ref :: first :: path).IsChain h.Inside :=
              List.isChain_cons_cons.mpr ⟨holds, chain⟩
            exact Or.inr ⟨nesting, ref, first :: path, rfl, congrArg (· + 1) length, longer⟩
        cases texts : pairTexts (· ++ ":" ++ ·) (h.displayWithin depth) (h.read ref) with
        | ok items => rw [texts] at e; cases e
        | error l =>
            rw [texts] at e
            cases e
            obtain ⟨pair, mem, fails | fails⟩ := pairTexts_error texts
            · exact part (.key mem) fails
            · exact part (.value mem) fails

/-- **Why a value has no display.** An array in it contains itself, or a number in it is
too long. -/
theorem display_error {v : Value} {limit : Limit} (e : h.display v = .error limit) :
    h.Undisplayable v limit := by
  rcases displayWithin_error e with found | ⟨rfl, first, path, rfl, length, chain⟩
  · exact found
  · have long : h.arrays.size + 1 < (first :: path).length := by
      rw [List.length_cons, length, depth]
      omega
    obtain ⟨ref, mem, contains⟩ := selfContaining_of_chain chain long
    exact .nesting (reaches_of_chain chain ref mem) contains

end Mini.Heap
