import Mini.Proofs.Heap.Touched
import Mini.Proofs.Heap.Unfolding

/-!
# How arrays come to contain themselves

A new array cannot contain itself, and no array can have come to contain itself by its being made,
since nothing holds it yet. Storing into an array only adds ways that begin at this array. If one of
them leads back, it goes through the key or the value that was stored, and from there on its first
way back is one that there was before.
-/

namespace Mini.Heap

variable {h : Heap} {ref : Ref} {pairs : Pairs} {u w : Value}

/-! ## New arrays -/

theorem Owns.ne_fresh {v : Value} (owns : h.Owns v) : v ≠ .array h.fresh := by
  rintro rfl
  exact Nat.lt_irrefl _ (owns h.fresh rfl)

/-- Nothing holds a new array, and what other arrays hold is what they held. -/
theorem holds_add (sound : h.Sound) (owns : h.OwnsPairs pairs) (holds : (h.add pairs).Holds u w) :
    w ≠ .array h.fresh ∧ (u ≠ .array h.fresh → h.Holds u w) := by
  cases u with
  | array r =>
      by_cases new : r = h.fresh
      · subst new
        refine ⟨?_, fun old => absurd rfl old⟩
        have read := h.read_fresh pairs
        cases holds with
        | key mem => exact (owns _ (read ▸ mem)).1.ne_fresh
        | value mem => exact (owns _ (read ▸ mem)).2.ne_fresh
      · have read := read_add_of_ne new pairs
        have old : h.Holds (.array r) w := by
          cases holds with
          | key mem => exact .key (read ▸ mem)
          | value mem => exact .value (read ▸ mem)
        exact ⟨(sound.holds old).ne_fresh, fun _ => old⟩
  | nothing | number | text | boolean | function => cases holds

theorem CycleFree.add (free : h.CycleFree) (sound : h.Sound) (owns : h.OwnsPairs pairs) :
    (h.add pairs).CycleFree := by
  have way : ∀ {u w}, Relation.TransGen (h.add pairs).Holds u w →
      w ≠ .array h.fresh ∧ (u ≠ .array h.fresh → Relation.TransGen h.Holds u w) := by
    intro u w through
    induction through with
    | single holds =>
        obtain ⟨ne, old⟩ := holds_add sound owns holds
        exact ⟨ne, fun away => .single (old away)⟩
    | tail _ holds ih =>
        obtain ⟨ne, old⟩ := holds_add sound owns holds
        exact ⟨ne, fun away => (ih.2 away).tail (old ih.1)⟩
  intro ref contains
  obtain ⟨away, old⟩ := way contains
  exact free ref (old away)

/-! ## Storing into an array -/

/-- Storing a value into an array under a key leads back to the array. -/
def LeadsBack (h : Heap) (ref : Ref) (key v : Value) : Prop :=
  h.Reaches key (.array ref) ∨ h.Reaches v (.array ref)

section Stored

variable {key v : Value} (stored : h.store (h.read ref) key v = .ok pairs)
include stored

/-- What is stored in an array is held by it, and nothing else is new. -/
theorem holds_write (holds : (h.write ref pairs).Holds u w) :
    h.Holds u w ∨ u = .array ref ∧ (w = key ∨ w = v) := by
  cases u with
  | array r =>
      rcases h.read_write ref r pairs with same | ⟨rfl, same⟩
      · refine .inl ?_
        cases holds with
        | key mem => exact .key (same ▸ mem)
        | value mem => exact .value (same ▸ mem)
      · have each := forall_stored stored (P := fun k => (∃ old ∈ h.read r, old.1 = k) ∨ k = key)
          (Q := fun x => (∃ old ∈ h.read r, old.2 = x) ∨ x = v)
          (fun pair mem => ⟨.inl ⟨pair, mem, rfl⟩, .inl ⟨pair, mem, rfl⟩⟩) (.inr rfl) (.inr rfl)
        cases holds with
        | key mem =>
            rcases (each _ (same ▸ mem)).1 with ⟨old, mem, same⟩ | new
            · exact .inl (same ▸ .key mem)
            · exact .inr ⟨rfl, .inl new⟩
        | value mem =>
            rcases (each _ (same ▸ mem)).2 with ⟨old, mem, same⟩ | new
            · exact .inl (same ▸ .value mem)
            · exact .inr ⟨rfl, .inr new⟩
  | nothing | number | text | boolean | function => cases holds

/-- A way to the array is one that there was before. -/
theorem reaches_of_reaches_write (reaches : (h.write ref pairs).Reaches u (.array ref)) :
    h.Reaches u (.array ref) := by
  induction reaches using Relation.ReflTransGen.head_induction_on with
  | refl => exact .refl
  | head holds _ ih =>
      rcases holds_write stored holds with old | ⟨rfl, -⟩
      · exact ih.head old
      · exact .refl

theorem CycleFree.write (free : h.CycleFree) (apart : ¬h.LeadsBack ref key v) :
    (h.write ref pairs).CycleFree := by
  -- a way is one that there was before, or it leads to the array and goes on from what was stored
  have way : ∀ {u w}, Relation.TransGen (h.write ref pairs).Holds u w →
      Relation.TransGen h.Holds u w ∨ ∃ x, (x = key ∨ x = v) ∧
        (h.write ref pairs).Reaches u (.array ref) ∧ (h.write ref pairs).Reaches x w := by
    intro u w through
    induction through with
    | single holds =>
        rcases holds_write stored holds with old | ⟨rfl, new⟩
        · exact .inl (.single old)
        · exact .inr ⟨_, new, .refl, .refl⟩
    | tail before holds ih =>
        rcases holds_write stored holds with old | ⟨rfl, new⟩
        · rcases ih with ih | ⟨x, given, there, further⟩
          · exact .inl (ih.tail old)
          · exact .inr ⟨x, given, there, further.tail holds⟩
        · exact .inr ⟨_, new, before.to_reflTransGen, .refl⟩
  intro r contains
  rcases way contains with old | ⟨x, given, there, further⟩
  · exact free r old
  · have back : h.Reaches x (.array ref) := reaches_of_reaches_write stored (further.trans there)
    rcases given with rfl | rfl
    · exact apart (.inl back)
    · exact apart (.inr back)

end Stored

end Mini.Heap
