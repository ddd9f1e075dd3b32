import Mini.Proofs.Heap.Slots

/-!
# What a stored value can change

Storing a value in an array changes what is seen of every value from which the array is reached,
and of no other. So a comparison of two values gives the same again, however many arrays have been
made and stored into in the meantime, unless one of the two now reaches an array that was stored
into. The depth of the comparison is no matter, although the heap has grown.

Where no two keys of an array are equal, every entry is found by its own key: all keys in front of
it are passed over. And no key whatsoever matches two entries, since equality is transitive.
-/

namespace Mini.Heap

variable {h h' : Heap}

/-! ## Arrays that there are -/

/-- The value is an array that there is, or no array. -/
def Owns (h : Heap) (v : Value) : Prop :=
  ∀ ref, v = .array ref → ref.index < h.arrays.size

/-- Keys and values of pairs are arrays that there are, or no arrays. -/
def OwnsPairs (h : Heap) (pairs : Pairs) : Prop :=
  ∀ pair ∈ pairs, h.Owns pair.1 ∧ h.Owns pair.2

/-- Nothing in an array is an array that there is not. -/
def Sound (h : Heap) : Prop :=
  ∀ ref, h.OwnsPairs (h.read ref)

theorem owns_of_plain {v : Value} (plain : ∀ ref, v ≠ .array ref) : h.Owns v :=
  fun ref same => absurd same (plain ref)

theorem Sound.holds (sound : h.Sound) {ref : Ref} {v : Value} (holds : h.Holds (.array ref) v) :
    h.Owns v := by
  cases holds with
  | key mem => exact (sound ref _ mem).1
  | value mem => exact (sound ref _ mem).2

theorem Sound.reaches (sound : h.Sound) {v w : Value} (owns : h.Owns v) (reaches : h.Reaches v w) :
    h.Owns w := by
  cases reaches with
  | refl => exact owns
  | @tail u _ _ holds =>
      cases u with
      | array ref => exact sound.holds holds
      | nothing | number | text | boolean | function => cases holds

theorem read_write_of_ne {ref other : Ref} (ne : other ≠ ref) (pairs : Pairs) :
    (h.write ref pairs).read other = h.read other := by
  have apart : ref.index ≠ other.index := fun same => ne (by cases ref; cases other; simp_all)
  rw [read, read, write, Array.getElem?_setIfInBounds_ne apart]

theorem read_write_self {ref : Ref} (there : ref.index < h.arrays.size) (pairs : Pairs) :
    (h.write ref pairs).read ref = pairs := by
  rw [read, write, Array.getElem?_setIfInBounds_self_of_lt there]
  rfl

/-- There is nothing to write where there is no array. -/
theorem write_of_size_le {ref : Ref} (le : h.arrays.size ≤ ref.index) (pairs : Pairs) :
    h.write ref pairs = h := by
  rw [write, Array.setIfInBounds_eq_of_size_le le]

/-- An array that is written has the new pairs; others have what they had. -/
theorem read_write (h : Heap) (ref other : Ref) (pairs : Pairs) :
    (h.write ref pairs).read other = h.read other ∨
      other = ref ∧ (h.write ref pairs).read other = pairs := by
  by_cases same : other = ref
  · subst same
    by_cases there : other.index < h.arrays.size
    · exact .inr ⟨rfl, read_write_self there pairs⟩
    · rw [write_of_size_le (Nat.le_of_not_lt there)]
      exact .inl rfl
  · exact .inl (read_write_of_ne same pairs)

theorem read_add_of_ne {other : Ref} (ne : other ≠ h.fresh) (pairs : Pairs) :
    (h.add pairs).read other = h.read other := by
  have apart : other.index ≠ h.arrays.size := fun same => ne (by cases other; exact congrArg _ same)
  rw [read, read, add, Array.getElem?_push, if_neg apart]

theorem read_fresh (h : Heap) (pairs : Pairs) : (h.add pairs).read h.fresh = pairs := by
  rw [read, add, fresh, Array.getElem?_push_size]
  rfl

/-- An array that is added has its pairs; others have what they had. -/
theorem read_add (h : Heap) (pairs : Pairs) (ref : Ref) :
    (h.add pairs).read ref = h.read ref ∨ (h.add pairs).read ref = pairs := by
  by_cases new : ref = h.fresh
  · exact .inr (new ▸ h.read_fresh pairs)
  · exact .inl (read_add_of_ne new pairs)

/-- What holds of the pairs of all arrays, and of those that one is written with, still does. -/
theorem forall_read_write {P : Pairs → Prop} {pairs : Pairs} (each : ∀ ref, P (h.read ref))
    (new : P pairs) (ref other : Ref) : P ((h.write ref pairs).read other) := by
  rcases h.read_write ref other pairs with same | ⟨-, same⟩
  · rw [same]
    exact each other
  · rwa [same]

theorem forall_read_add {P : Pairs → Prop} {pairs : Pairs} (each : ∀ ref, P (h.read ref))
    (new : P pairs) (ref : Ref) : P ((h.add pairs).read ref) := by
  rcases h.read_add pairs ref with same | same
  · rw [same]
    exact each ref
  · rwa [same]

/-! ## Heaps that evolve -/

/-- No array has gone, and of those that there were only the given ones have changed. -/
structure Evolves (h : Heap) (stored : List Ref) (h' : Heap) : Prop where
  size : h.arrays.size ≤ h'.arrays.size
  read : ∀ ref, ref.index < h.arrays.size → ref ∉ stored → h'.read ref = h.read ref

namespace Evolves

variable {stored more : List Ref} {v w : Value}

theorem refl (h : Heap) : h.Evolves [] h :=
  ⟨Nat.le_refl _, fun _ _ _ => rfl⟩

theorem trans {h'' : Heap} (first : h.Evolves stored h') (later : h'.Evolves more h'') :
    h.Evolves (stored ++ more) h'' := by
  refine ⟨Nat.le_trans first.size later.size, fun ref inside new => ?_⟩
  rw [List.mem_append, not_or] at new
  rw [later.read ref (Nat.lt_of_lt_of_le inside first.size) new.2, first.read ref inside new.1]

theorem add (h : Heap) (pairs : Pairs) : h.Evolves [] (h.add pairs) := by
  refine ⟨?_, fun ref inside _ => ((extends_add h pairs).read inside).2⟩
  rw [Heap.add, Array.size_push]
  exact Nat.le_succ _

theorem write (h : Heap) (ref : Ref) (pairs : Pairs) : h.Evolves [ref] (h.write ref pairs) := by
  refine ⟨?_, fun other _ new => read_write_of_ne (List.ne_of_not_mem_cons new) pairs⟩
  rw [Heap.write, Array.size_setIfInBounds]

theorem owns (evolves : h.Evolves stored h') (owns : h.Owns v) : h'.Owns v :=
  fun ref same => Nat.lt_of_lt_of_le (owns ref same) evolves.size

theorem ownsPairs {pairs : Pairs} (evolves : h.Evolves stored h') (owns : h.OwnsPairs pairs) :
    h'.OwnsPairs pairs :=
  fun pair mem => ⟨evolves.owns (owns pair mem).1, evolves.owns (owns pair mem).2⟩

/-- What was reached is still reached, or an array that was stored into is reached instead. -/
theorem reaches (evolves : h.Evolves stored h') (reaches : h.Reaches v w) :
    h'.Reaches v w ∨ ∃ ref ∈ stored, h'.Reaches v (.array ref) := by
  induction reaches with
  | refl => exact .inl .refl
  | @tail u w _ holds ih =>
      rcases ih with reaches | touched
      · cases u with
        | array ref =>
            by_cases mem : ref ∈ stored
            · exact .inr ⟨ref, mem, reaches⟩
            · have same := evolves.read ref holds.index_lt mem
              refine .inl (reaches.tail ?_)
              cases holds with
              | key inside => exact .key (same ▸ inside)
              | value inside => exact .value (same ▸ inside)
        | nothing | number | text | boolean | function => cases holds
      · exact .inr touched

end Evolves

namespace Sound

variable {pairs : Pairs} (sound : h.Sound) (owns : h.OwnsPairs pairs)
include sound owns

theorem add : (h.add pairs).Sound := by
  have evolves : h.Evolves [] (h.add pairs) := .add h pairs
  exact forall_read_add (fun ref => evolves.ownsPairs (sound ref)) (evolves.ownsPairs owns)

theorem write (ref : Ref) : (h.write ref pairs).Sound := by
  have evolves : h.Evolves [ref] (h.write ref pairs) := .write h ref pairs
  exact forall_read_write (fun other => evolves.ownsPairs (sound other)) (evolves.ownsPairs owns) ref

end Sound

/-! ## Comparisons -/

theorem sameAll_congr {same same' : Value → Value → Except Limit Bool} {vs ws : List Value}
    (each : ∀ v ∈ vs, ∀ w ∈ ws, same v w = same' v w) : sameAll same vs ws = sameAll same' vs ws := by
  induction vs generalizing ws with
  | nil => rfl
  | cons v vs ih =>
      cases ws with
      | nil => rfl
      | cons w ws =>
          have rest := ih fun v mem w mem' =>
            each v (List.mem_cons_of_mem _ mem) w (List.mem_cons_of_mem _ mem')
          rw [sameAll_cons, sameAll_cons, each v List.mem_cons_self w List.mem_cons_self, rest]

/-- Where one side is no array, the heap is no matter. -/
theorem sameWithin_of_not_arrays {v w : Value} (plain : ∀ r s, v = .array r → w ≠ .array s)
    (h h' : Heap) (depth depth' : Nat) : h.sameWithin depth v w = h'.sameWithin depth' v w := by
  cases v with
  | array r =>
      cases w with
      | array s => exact absurd rfl (plain r s rfl)
      | nothing | number | text | boolean | function => cases depth <;> cases depth' <;> rfl
  | nothing | number | text | boolean | function =>
      cases w <;> cases depth <;> cases depth' <;> rfl

/-- A comparison is the same in two heaps if the arrays that are reached have the same pairs. -/
theorem sameWithin_congr {depth : Nat} {v w : Value}
    (left : ∀ ref, h.Reaches v (.array ref) → h'.read ref = h.read ref)
    (right : ∀ ref, h.Reaches w (.array ref) → h'.read ref = h.read ref) :
    h'.sameWithin depth v w = h.sameWithin depth v w := by
  induction depth generalizing v w with
  | zero => cases v <;> cases w <;> rfl
  | succ depth ih =>
      by_cases arrays : ∃ r s, v = .array r ∧ w = .array s
      · obtain ⟨r, s, rfl, rfl⟩ := arrays
        have parts : sameAll (h'.sameWithin depth) (flat (h.read r)) (flat (h.read s)) =
            sameAll (h.sameWithin depth) (flat (h.read r)) (flat (h.read s)) := by
          refine sameAll_congr fun x mem y mem' => ?_
          have holds : h.Holds (.array r) x := holds_of_mem_parts mem
          have holds' : h.Holds (.array s) y := holds_of_mem_parts mem'
          exact ih (fun ref reaches => left ref (reaches.head holds))
            fun ref reaches => right ref (reaches.head holds')
        rw [sameWithin_array, sameWithin_array, left r .refl, right s .refl, samePairs_eq_sameAll,
          samePairs_eq_sameAll, parts]
      · exact sameWithin_of_not_arrays (fun r s here there => arrays ⟨r, s, here, there⟩) _ _ _ _

/-- Two values reach none of the given arrays. -/
def Unreached (h : Heap) (stored : List Ref) (v : Value) : Prop :=
  ∀ ref ∈ stored, ¬ h.Reaches v (.array ref)

namespace Evolves

variable {stored more : List Ref} {v w : Value} (evolves : h.Evolves stored h') (sound : h.Sound)
include evolves sound

/-- What a value reaches has the pairs that it had, unless it was stored into. -/
theorem read_reached (owns : h.Owns v) (unreached : h'.Unreached stored v) {ref : Ref}
    (reaches : h.Reaches v (.array ref)) : h'.read ref = h.read ref := by
  refine evolves.read ref (sound.reaches owns reaches ref rfl) fun mem => ?_
  rcases evolves.reaches reaches with still | ⟨other, new, touched⟩
  · exact unreached ref mem still
  · exact unreached other new touched

/-- A comparison is as it was if neither side reaches an array that was stored into. -/
theorem same (owns : h.Owns v) (owns' : h.Owns w) (unreached : h'.Unreached stored v)
    (unreached' : h'.Unreached stored w) : h'.same v w = h.same v w := by
  -- the heap may have grown, and with it the depth up to which it compares
  obtain ⟨more, depth⟩ : ∃ more, h'.depth = h.depth + more :=
    ⟨h'.depth - h.depth, by have size := evolves.size; unfold depth; omega⟩
  have within : h'.sameWithin h'.depth v w = h.sameWithin h'.depth v w :=
    sameWithin_congr (fun _ => evolves.read_reached sound owns unreached)
      fun _ => evolves.read_reached sound owns' unreached'
  rw [Heap.same, within, depth, sameWithin_depth_add]

end Evolves

/-! ## Keys that have come to be equal -/

/-- Two different arrays, one of which reaches one of the given arrays. -/
structure Touched (h : Heap) (stored : List Ref) (v w : Value) : Prop where
  arrays : ∃ r s, v = .array r ∧ w = .array s ∧ r ≠ s
  reached : ∃ ref ∈ stored, h.Reaches v (.array ref) ∨ h.Reaches w (.array ref)

/-- Two values are unequal, or touched by what was stored. -/
def Apart (h : Heap) (stored : List Ref) (v w : Value) : Prop :=
  h.same v w = .ok false ∨ h.Touched stored v w

section Apart

variable {stored more : List Ref} {v w : Value}

theorem Touched.evolves (touched : h.Touched stored v w) (evolves : h.Evolves more h') :
    h'.Touched (stored ++ more) v w := by
  obtain ⟨arrays, ref, mem, reaches⟩ := touched
  refine ⟨arrays, ?_⟩
  have either : ∀ {u : Value}, h.Reaches u (.array ref) →
      ∃ ref ∈ stored ++ more, h'.Reaches u (.array ref) := by
    intro u reaches
    rcases evolves.reaches reaches with still | ⟨other, new, reaches⟩
    · exact ⟨ref, List.mem_append_left _ mem, still⟩
    · exact ⟨other, List.mem_append_right _ new, reaches⟩
  rcases reaches with left | right
  · obtain ⟨ref, mem, reaches⟩ := either left
    exact ⟨ref, mem, .inl reaches⟩
  · obtain ⟨ref, mem, reaches⟩ := either right
    exact ⟨ref, mem, .inr reaches⟩

/-- Unequal values stay unequal, unless they are touched. -/
theorem Evolves.apart_of_unequal (evolves : h.Evolves stored h') (sound : h.Sound)
    (owns : h.Owns v) (owns' : h.Owns w) (unequal : h.same v w = .ok false) :
    h'.Apart stored v w := by
  by_cases touched : ∃ ref ∈ stored, h'.Reaches v (.array ref) ∨ h'.Reaches w (.array ref)
  · by_cases arrays : ∃ r s, v = .array r ∧ w = .array s
    · obtain ⟨r, s, rfl, rfl⟩ := arrays
      refine .inr ⟨⟨r, s, rfl, rfl, ?_⟩, touched⟩
      rintro rfl
      have equal : h.same (.array r) (.array r) = .ok true := sameWithin_self _ _
      rw [equal] at unequal
      cases unequal
    · refine .inl ?_
      rw [← unequal]
      exact sameWithin_of_not_arrays (fun r s here there => arrays ⟨r, s, here, there⟩) _ _ _ _
  · refine .inl ?_
    rw [← unequal]
    exact evolves.same sound owns owns' (fun ref mem reaches => touched ⟨ref, mem, .inl reaches⟩)
      fun ref mem reaches => touched ⟨ref, mem, .inr reaches⟩

theorem Apart.evolves (apart : h.Apart stored v w) (evolves : h.Evolves more h') (sound : h.Sound)
    (owns : h.Owns v) (owns' : h.Owns w) : h'.Apart (stored ++ more) v w := by
  rcases apart with unequal | touched
  · refine (evolves.apart_of_unequal sound owns owns' unequal).imp_right ?_
    rintro ⟨arrays, ref, mem, reaches⟩
    exact ⟨arrays, ref, List.mem_append_right _ mem, reaches⟩
  · exact .inr (touched.evolves evolves)

end Apart

/-! ## Entries and their keys -/

/-- The keys of an array, oldest first. -/
def keys (h : Heap) (ref : Ref) : List Value :=
  (h.read ref).map Prod.fst

section Found

variable {before after : Pairs} {key v : Value}
  (passed : ∀ pair ∈ before, h.same pair.1 key = .ok false)
include passed

/-- An entry is found by its own key if the keys in front of it are unequal to that. -/
theorem lookup_own : h.lookup (before ++ (key, v) :: after) key = .ok v :=
  Lacks.lookup_first passed (sameWithin_self _ key)

/-- A value that is put under its key takes the place of the old one. -/
theorem store_own (new : Value) :
    h.store (before ++ (key, v) :: after) key new = .ok (before ++ (key, new) :: after) :=
  Lacks.store_first passed (sameWithin_self _ key) new

end Found

/-- No key equals two unequal ones. -/
theorem not_both_same {k k' key : Value} (unequal : h.same k k' = .ok false) :
    ¬(h.same k key = .ok true ∧ h.same k' key = .ok true) := by
  rintro ⟨first, second⟩
  have first : h.SameAt h.depth k key := first
  have second : h.SameAt h.depth k' key := second
  have both : h.same k k' = .ok true := first.trans second.symm
  rw [unequal] at both
  cases both

end Mini.Heap
