/-!
# Maps in order of insertion

A finite map as a list of pairs whose order is that in which the keys came in.
Putting a value under a key that is there keeps the key's place; a new key comes
last.
-/

namespace Mini

/-- Pairs of keys and values, oldest key first. -/
abbrev OrderedMap (κ υ : Type) := List (κ × υ)

namespace OrderedMap

variable {κ υ : Type} [DecidableEq κ]

/-- The value under a key. -/
def find? (m : OrderedMap κ υ) (key : κ) : Option υ :=
  match m with
  | [] => none
  | (k, v) :: rest => if k = key then some v else find? rest key

/-- Puts a value under a key. -/
def put (m : OrderedMap κ υ) (key : κ) (value : υ) : OrderedMap κ υ :=
  match m with
  | [] => [(key, value)]
  | (k, v) :: rest => if k = key then (k, value) :: rest else (k, v) :: put rest key value

/-- Puts all entries of another map, in order. -/
def putAll (m entries : OrderedMap κ υ) : OrderedMap κ υ :=
  entries.foldl (fun m entry => put m entry.1 entry.2) m

/-- Takes a key out. -/
def erase (m : OrderedMap κ υ) (key : κ) : OrderedMap κ υ :=
  match m with
  | [] => []
  | (k, v) :: rest => if k = key then rest else (k, v) :: erase rest key

/-- The keys, oldest first. -/
def keys (m : OrderedMap κ υ) : List κ :=
  m.map Prod.fst

theorem find?_put_self (m : OrderedMap κ υ) (key : κ) (value : υ) :
    (m.put key value).find? key = some value := by
  induction m with
  | nil => simp [put, find?]
  | cons entry rest ih =>
      obtain ⟨k, v⟩ := entry
      unfold put
      by_cases h : k = key
      · simp [h, find?]
      · simp [h, find?, ih]

theorem find?_put_of_ne (m : OrderedMap κ υ) {key other : κ} (value : υ) (h : key ≠ other) :
    (m.put key value).find? other = m.find? other := by
  induction m with
  | nil => simp [put, find?, h]
  | cons entry rest ih =>
      obtain ⟨k, v⟩ := entry
      unfold put
      by_cases hk : k = key
      · have : k ≠ other := by rw [hk]; exact h
        simp [hk, find?, h]
      · simp [hk, find?, ih]

/-- A key that is there keeps its place; a new one comes last. -/
theorem keys_put (m : OrderedMap κ υ) (key : κ) (value : υ) :
    (m.put key value).keys = if key ∈ m.keys then m.keys else m.keys ++ [key] := by
  induction m with
  | nil => simp [put, keys]
  | cons entry rest ih =>
      obtain ⟨k, v⟩ := entry
      unfold put
      by_cases h : k = key
      · simp [h, keys]
      · have distinct : key ≠ k := fun e => h e.symm
        simp only [h, if_false, keys, List.map_cons, List.mem_cons, distinct, false_or]
        unfold keys at ih
        rw [ih]
        split <;> simp

theorem find?_eq_none_iff (m : OrderedMap κ υ) (key : κ) :
    m.find? key = none ↔ key ∉ m.keys := by
  induction m with
  | nil => simp [find?, keys]
  | cons entry rest ih =>
      obtain ⟨k, v⟩ := entry
      unfold find?
      by_cases h : k = key
      · simp [h, keys]
      · have distinct : key ≠ k := fun e => h e.symm
        simp only [h, if_false, ih, keys, List.map_cons, List.mem_cons, distinct, false_or]

theorem isSome_find?_iff (m : OrderedMap κ υ) (key : κ) :
    (m.find? key).isSome = true ↔ key ∈ m.keys := by
  rw [Option.isSome_iff_ne_none, Ne, find?_eq_none_iff, Decidable.not_not]

/-- Of two values put under one key the later one counts. -/
theorem put_put (m : OrderedMap κ υ) (key : κ) (first second : υ) :
    (m.put key first).put key second = m.put key second := by
  induction m with
  | nil => simp [put]
  | cons entry rest ih =>
      obtain ⟨k, v⟩ := entry
      by_cases h : k = key
      · simp [h, put]
      · simp [h, put, ih]

theorem erase_of_not_mem {m : OrderedMap κ υ} {key : κ} (new : key ∉ m.keys) :
    m.erase key = m := by
  induction m with
  | nil => rfl
  | cons entry rest ih =>
      obtain ⟨k, v⟩ := entry
      have other : k ≠ key := (List.ne_of_not_mem_cons new).symm
      rw [erase, if_neg other, ih (List.not_mem_of_not_mem_cons new)]

/-- Taking a key out undoes putting it in, if it was not there. -/
theorem erase_put {m : OrderedMap κ υ} {key : κ} (new : key ∉ m.keys) (value : υ) :
    (m.put key value).erase key = m := by
  induction m with
  | nil => simp [put, erase]
  | cons entry rest ih =>
      obtain ⟨k, v⟩ := entry
      have other : k ≠ key := (List.ne_of_not_mem_cons new).symm
      rw [put, if_neg other, erase, if_neg other, ih (List.not_mem_of_not_mem_cons new)]

theorem find?_erase_of_ne (m : OrderedMap κ υ) {key other : κ} (h : key ≠ other) :
    (m.erase key).find? other = m.find? other := by
  induction m with
  | nil => rfl
  | cons entry rest ih =>
      obtain ⟨k, v⟩ := entry
      unfold erase
      by_cases hk : k = key
      · have : k ≠ other := by rw [hk]; exact h
        simp [hk, find?, h]
      · simp [hk, find?, ih]

theorem keys_erase (m : OrderedMap κ υ) (key : κ) : (m.erase key).keys = m.keys.erase key := by
  induction m with
  | nil => rfl
  | cons entry rest ih =>
      obtain ⟨k, v⟩ := entry
      unfold keys at ih ⊢
      rw [erase, List.map_cons, List.erase_cons]
      by_cases h : k = key
      · simp [h]
      · simp [h, ih]

/-- Where no key stands twice, a key that is taken out is gone. -/
theorem find?_erase_self {m : OrderedMap κ υ} (distinct : m.keys.Nodup) (key : κ) :
    (m.erase key).find? key = none := by
  rw [find?_eq_none_iff, keys_erase]
  exact distinct.not_mem_erase

theorem nodup_keys_put {m : OrderedMap κ υ} (distinct : m.keys.Nodup) (key : κ) (value : υ) :
    (m.put key value).keys.Nodup := by
  rw [keys_put]
  split
  · exact distinct
  · rename_i new
    refine List.nodup_append.mpr ⟨distinct, by simp, ?_⟩
    intro k mem k' new' same
    rw [same, List.mem_singleton.mp new'] at mem
    exact new mem

/-- Putting leaves alone what stands in front of the first place of a key. -/
theorem put_append {m : OrderedMap κ υ} {key : κ} (new : key ∉ m.keys) (later : OrderedMap κ υ)
    (value : υ) : OrderedMap.put (m ++ later) key value = m ++ later.put key value := by
  induction m with
  | nil => rfl
  | cons entry rest ih =>
      obtain ⟨k, v⟩ := entry
      have other : k ≠ key := (List.ne_of_not_mem_cons new).symm
      rw [List.cons_append, put, if_neg other, ih (List.not_mem_of_not_mem_cons new),
        List.cons_append]

theorem put_of_not_mem {m : OrderedMap κ υ} {key : κ} (new : key ∉ m.keys) (value : υ) :
    m.put key value = m ++ [(key, value)] := by
  have last := put_append new [] value
  rwa [List.append_nil] at last

theorem erase_append {m : OrderedMap κ υ} {key : κ} (new : key ∉ m.keys)
    (later : OrderedMap κ υ) : OrderedMap.erase (m ++ later) key = m ++ later.erase key := by
  induction m with
  | nil => rfl
  | cons entry rest ih =>
      obtain ⟨k, v⟩ := entry
      have other : k ≠ key := (List.ne_of_not_mem_cons new).symm
      rw [List.cons_append, erase, if_neg other, ih (List.not_mem_of_not_mem_cons new),
        List.cons_append]

/-- Where no key stands twice, every entry is found by its key. -/
theorem find?_of_mem {m : OrderedMap κ υ} (distinct : m.keys.Nodup) {entry : κ × υ}
    (mem : entry ∈ m) : m.find? entry.1 = some entry.2 := by
  induction m with
  | nil => cases mem
  | cons first rest ih =>
      obtain ⟨k, v⟩ := first
      obtain ⟨new, distinct⟩ := List.nodup_cons.mp distinct
      rcases List.mem_cons.mp mem with rfl | mem
      · rw [find?, if_pos rfl]
      · have other : k ≠ entry.1 := fun same =>
          new (List.mem_map.mpr ⟨entry, mem, same.symm⟩)
        rw [find?, if_neg other, ih distinct mem]

/-- Putting brings in no value but the one put. -/
theorem mem_values_put {m : OrderedMap κ υ} {key : κ} {value other : υ}
    (mem : other ∈ (m.put key value).map Prod.snd) : other ∈ m.map Prod.snd ∨ other = value := by
  induction m with
  | nil => exact .inr (List.mem_singleton.mp mem)
  | cons entry rest ih =>
      obtain ⟨k, v⟩ := entry
      rw [put] at mem
      split at mem
      · rcases List.mem_cons.mp mem with same | mem
        · exact .inr same
        · exact .inl (List.mem_cons_of_mem _ mem)
      · rcases List.mem_cons.mp mem with same | mem
        · exact .inl (same ▸ List.mem_cons_self)
        · exact (ih mem).imp_left (List.mem_cons_of_mem _)

/-- What is found is one of the values. -/
theorem mem_values_of_find? {m : OrderedMap κ υ} {key : κ} {value : υ}
    (found : m.find? key = some value) : value ∈ m.map Prod.snd := by
  induction m with
  | nil => cases found
  | cons entry rest ih =>
      obtain ⟨k, v⟩ := entry
      rw [find?] at found
      split at found
      · cases found
        exact List.mem_cons_self
      · exact List.mem_cons_of_mem _ (ih found)

theorem mem_keys_put {m : OrderedMap κ υ} {key other : κ} {value : υ}
    (mem : other ∈ (m.put key value).keys) : other ∈ m.keys ∨ other = key := by
  rw [keys_put] at mem
  split at mem
  · exact .inl mem
  · rcases List.mem_append.mp mem with old | new
    · exact .inl old
    · exact .inr (List.mem_singleton.mp new)

/-! ## New keys and values -/

section MapEntries

variable {κ' υ' : Type} [DecidableEq κ'] {f : κ → κ'} (distinct : ∀ k k', f k = f k' → k = k')
  (g : υ → υ')
include distinct

theorem find?_map (m : OrderedMap κ υ) (key : κ) :
    find? (m.map fun entry => (f entry.1, g entry.2)) (f key) = (m.find? key).map g := by
  induction m with
  | nil => rfl
  | cons entry rest ih =>
      obtain ⟨k, v⟩ := entry
      rw [List.map_cons, find?, find?, ih]
      by_cases same : k = key
      · rw [if_pos same, if_pos (congrArg f same)]
        rfl
      · rw [if_neg same, if_neg fun new => same (distinct k key new)]

/-- Where different keys stay different, it does not matter whether a value is put before or after
keys and values are replaced. -/
theorem put_map (m : OrderedMap κ υ) (key : κ) (value : υ) :
    put (m.map fun entry => (f entry.1, g entry.2)) (f key) (g value) =
      (m.put key value).map fun entry => (f entry.1, g entry.2) := by
  induction m with
  | nil => rfl
  | cons entry rest ih =>
      obtain ⟨k, v⟩ := entry
      rw [List.map_cons, put, put]
      by_cases same : k = key
      · rw [if_pos same, if_pos (congrArg f same), List.map_cons]
      · rw [if_neg same, if_neg fun new => same (distinct k key new), ih, List.map_cons]

theorem erase_map (m : OrderedMap κ υ) (key : κ) :
    erase (m.map fun entry => (f entry.1, g entry.2)) (f key) =
      (m.erase key).map fun entry => (f entry.1, g entry.2) := by
  induction m with
  | nil => rfl
  | cons entry rest ih =>
      obtain ⟨k, v⟩ := entry
      rw [List.map_cons, erase, erase]
      by_cases same : k = key
      · rw [if_pos same, if_pos (congrArg f same)]
      · rw [if_neg same, if_neg fun new => same (distinct k key new), ih, List.map_cons]

end MapEntries

end OrderedMap

end Mini
