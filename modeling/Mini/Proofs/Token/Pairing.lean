import Mini.Proofs.Token.Cutting
import Mini.Proofs.Token.Words

/-!
# Which fragments are joined

Pairs are joined from the left, two at a time. So in a run such as `====` it is the
parity of a place that decides, and a gap begins the count anew. All of this is about
lists of fragments made by hand, too: their texts and positions need not come from a
source text.
-/

namespace Mini.Fragment

/-- The operators of two characters that are joined from two fragments, each as its halves. -/
def compounds : List (String × String) :=
  [("=", "="), ("!", "="), ("<", "="), (">", "="), ("&", "&"), ("|", "|")]

/-- The second fragment completes the first one to an operator, and stands right behind it. -/
def Completes (a b : Fragment) : Prop :=
  (a.text, b.text) ∈ compounds ∧ b.start.offset = a.start.offset + 1

/-- Two neighbours of a list, of which the second one completes the first one. -/
def CompletedAt (fragments : List Fragment) (i : Nat) : Prop :=
  ∃ a ∈ fragments[i]?, ∃ b ∈ fragments[i + 1]?, Completes a b

instance {a b : Fragment} : Decidable (Completes a b) :=
  inferInstanceAs (Decidable (_ ∧ _))

instance {fragments : List Fragment} {i : Nat} : Decidable (CompletedAt fragments i) :=
  inferInstanceAs (Decidable (∃ a ∈ fragments[i]?, ∃ b ∈ fragments[i + 1]?, Completes a b))

/-- Whether the fragment at a place is the second one of a pair. -/
def taken (paired : Nat → Bool) : Nat → Bool
  | 0 => false
  | i + 1 => paired i

/-- The pairs are at the places where a fragment is completed by its neighbour and is not itself the
second one of a pair. -/
def PairsFromLeft (fragments : List Fragment) (paired : Nat → Bool) : Prop :=
  ∀ i, paired i = true ↔ CompletedAt fragments i ∧ taken paired i = false

/-- What is made of the fragment at a place: an operator if it is the first one of a pair, nothing
if it is the second one. -/
def laidAt (fragments : List Fragment) (paired : Nat → Bool) (i : Nat) : List Fragment :=
  if paired i then (fragments[i]?.bind fun a => fragments[i + 1]?.map a.join).toList
  else if taken paired i then [] else fragments[i]?.toList

/-- What is made of all fragments, in order. -/
def laid (fragments : List Fragment) (paired : Nat → Bool) : List Fragment :=
  (List.range fragments.length).flatMap (laidAt fragments paired)

/-! ## Pairs -/

theorem joins_iff {a b : Fragment} : a.joins b = true ↔ Completes a b := by
  unfold joins Completes
  rw [Bool.and_eq_true, decide_eq_true_iff, decide_eq_true_iff]
  apply and_congr_left'
  constructor
  · intro partner
    rcases Lexical.partner?_cases partner with ⟨h | h | h | h, h'⟩ | ⟨h, h'⟩ | ⟨h, h'⟩ <;>
      simp [compounds, h, h']
  · intro mem
    simp only [compounds, List.mem_cons, Prod.mk.injEq, List.not_mem_nil, or_false] at mem
    rcases mem with ⟨h, h'⟩ | ⟨h, h'⟩ | ⟨h, h'⟩ | ⟨h, h'⟩ | ⟨h, h'⟩ | ⟨h, h'⟩ <;>
      simp [partner?, h, h']

theorem completedAt_zero {a b : Fragment} {fragments : List Fragment} :
    CompletedAt (a :: b :: fragments) 0 ↔ a.joins b = true := by
  rw [joins_iff]
  simp [CompletedAt]

theorem completedAt_drop {fragments : List Fragment} {k i : Nat} :
    CompletedAt (fragments.drop k) i ↔ CompletedAt fragments (i + k) := by
  have place : k + i = i + k := Nat.add_comm k i
  have next : k + (i + 1) = i + k + 1 := by omega
  simp only [CompletedAt, List.getElem?_drop, place, next]

/-! ## The places of the pairs -/

/-- The places of the pairs, counted from the left. -/
def pairs (fragments : List Fragment) : Nat → Bool
  | 0 => decide (CompletedAt fragments 0)
  | i + 1 => decide (CompletedAt fragments (i + 1)) && !pairs fragments i

theorem pairsFromLeft_pairs (fragments : List Fragment) :
    PairsFromLeft fragments (pairs fragments) := by
  intro i
  cases i with
  | zero => simp [pairs, taken]
  | succ i => simp [pairs, taken]

/-- Whether a place is one of a pair depends on the places before it only. -/
theorem PairsFromLeft.unique {fragments : List Fragment} {paired paired' : Nat → Bool}
    (h : PairsFromLeft fragments paired) (h' : PairsFromLeft fragments paired') :
    paired' = paired := by
  ext i
  induction i with
  | zero => rw [Bool.eq_iff_iff, h 0, h' 0]; simp only [taken]
  | succ i ih => rw [Bool.eq_iff_iff, h (i + 1), h' (i + 1)]; simp only [taken, ih]

theorem taken_behind {paired : Nat → Bool} {k : Nat} (apart : paired k = false) (i : Nat) :
    taken (fun i => paired (i + (k + 1))) i = taken paired (i + (k + 1)) := by
  cases i with
  | zero =>
      rw [Nat.zero_add]
      exact apart.symm
  | succ i =>
      rw [Nat.succ_add]
      rfl

/-- Behind a place without a pair the count begins anew. -/
theorem PairsFromLeft.drop {fragments : List Fragment} {paired : Nat → Bool} {k : Nat}
    (h : PairsFromLeft fragments paired) (apart : paired k = false) :
    PairsFromLeft (fragments.drop (k + 1)) fun i => paired (i + (k + 1)) := by
  intro i
  rw [completedAt_drop, taken_behind apart]
  exact h (i + (k + 1))

theorem laidAt_drop {fragments : List Fragment} {paired : Nat → Bool} {k : Nat}
    (apart : paired k = false) (i : Nat) :
    laidAt (fragments.drop (k + 1)) (fun i => paired (i + (k + 1))) i =
      laidAt fragments paired (i + (k + 1)) := by
  have place : k + 1 + i = i + (k + 1) := Nat.add_comm _ _
  have next : k + 1 + (i + 1) = i + (k + 1) + 1 := by omega
  simp only [laidAt, taken_behind apart, List.getElem?_drop, place, next]

/-- What is made of the fragments up to a place without a pair, and of those behind it. -/
theorem laid_eq {fragments : List Fragment} {paired : Nat → Bool} {k : Nat}
    (apart : paired k = false) (within : k + 1 ≤ fragments.length) :
    laid fragments paired =
      (List.range (k + 1)).flatMap (laidAt fragments paired) ++
        laid (fragments.drop (k + 1)) fun i => paired (i + (k + 1)) := by
  have split : fragments.length = k + 1 + (fragments.drop (k + 1)).length := by
    rw [List.length_drop]
    omega
  unfold laid
  rw [split, List.range_add, List.flatMap_append, List.flatMap_map]
  congr 2
  ext1 i
  rw [laidAt_drop apart, Nat.add_comm]

/-! ## Joining from the left -/

theorem merge_eq_laid {fragments : List Fragment} {paired : Nat → Bool}
    (h : PairsFromLeft fragments paired) : merge fragments = laid fragments paired := by
  fun_induction merge fragments generalizing paired with
  | case1 => rfl
  | case2 a =>
      have apart : paired 0 = false := by
        rw [← Bool.not_eq_true, h 0]
        simp [CompletedAt]
      simp [laid, laidAt, taken, apart]
  | case3 a b rest joined ih =>
      have first : paired 0 = true := (h 0).mpr ⟨completedAt_zero.mpr joined, rfl⟩
      have apart : paired 1 = false := by
        rw [← Bool.not_eq_true, h 1]
        simp [taken, first]
      rw [laid_eq apart (by simp), ih (h.drop apart)]
      simp [List.range_succ, laidAt, first, apart, taken]
  | case4 a b rest joined ih =>
      have apart : paired 0 = false := by
        rw [← Bool.not_eq_true, h 0, completedAt_zero]
        exact fun both => joined both.1
      rw [laid_eq apart (by simp), ih (h.drop apart)]
      simp [List.range_succ, laidAt, apart, taken]

/-! ## Joining twice -/

theorem length_of_mem_compounds :
    ∀ halves ∈ compounds, halves.1.length = 1 ∧ halves.2.length = 1 := by
  decide

theorem length_join {a b : Fragment} (joined : a.joins b = true) : (a.join b).text.length = 2 := by
  obtain ⟨first, second⟩ := length_of_mem_compounds _ (joins_iff.mp joined).1
  rw [join, String.length_append, first, second]

/-- What joins is one character and another one, so an operator of two characters does not join with
what stands behind it. -/
theorem join_joins {a b : Fragment} (joined : a.joins b = true) (f : Fragment) :
    (a.join b).joins f = false := by
  rw [← Bool.not_eq_true]
  intro again
  have one := (length_of_mem_compounds _ (joins_iff.mp again).1).1
  rw [length_join joined] at one
  cases one

/-- Nor does it join with what stands before it. -/
theorem joins_join {a b : Fragment} (joined : a.joins b = true) (f : Fragment) :
    f.joins (a.join b) = false := by
  rw [← Bool.not_eq_true]
  intro again
  have one := (length_of_mem_compounds _ (joins_iff.mp again).1).2
  rw [length_join joined] at one
  cases one

/-- A fragment that is not completed by its neighbour is not completed by what has become of it. -/
theorem joins_head_merge {a b : Fragment} {rest : List Fragment} (apart : a.joins b = false) :
    ∀ f ∈ (merge (b :: rest)).head?, a.joins f = false := by
  intro f head
  cases rest with
  | nil =>
      simp only [merge, List.head?_cons, Option.mem_some_iff] at head
      rw [← head, apart]
  | cons c rest =>
      rw [merge] at head
      split at head
      · rename_i joined
        rw [List.head?_cons, Option.mem_some_iff] at head
        rw [← head, joins_join joined]
      · rw [List.head?_cons, Option.mem_some_iff] at head
        rw [← head, apart]

theorem isChain_merge (fragments : List Fragment) :
    (merge fragments).IsChain fun a b => a.joins b = false := by
  fun_induction merge fragments with
  | case1 => exact .nil
  | case2 a => exact .singleton a
  | case3 a b rest joined ih =>
      rw [List.isChain_cons]
      exact ⟨fun f _ => join_joins joined f, ih⟩
  | case4 a b rest joined ih =>
      rw [List.isChain_cons]
      exact ⟨joins_head_merge (Bool.eq_false_iff.mpr joined), ih⟩

theorem merge_merge (fragments : List Fragment) : merge (merge fragments) = merge fragments :=
  merge_of_isChain (isChain_merge fragments)

/-- No text is lost, and none is moved. -/
theorem join_texts_merge (fragments : List Fragment) :
    String.join ((merge fragments).map Fragment.text) =
      String.join (fragments.map Fragment.text) := by
  fun_induction merge fragments with
  | case1 => rfl
  | case2 => rfl
  | case3 a b rest joined ih => simp [ih, join, String.append_assoc]
  | case4 a b rest joined ih => simp [ih]

/-- **Operators are joined from the left.** For all lists of fragments, whatever their texts and
positions, there is one way only to choose pairs such that a fragment is the first one of a pair iff
its neighbour completes it and it is not the second one of a pair itself. Joining makes an operator
of each of these pairs and keeps all other fragments as they are and in order. Joining once more
changes nothing, and the texts put together stay the same. -/
theorem merge_leftmost_pairs (fragments : List Fragment) :
    merge (merge fragments) = merge fragments ∧
    String.join ((merge fragments).map Fragment.text) =
      String.join (fragments.map Fragment.text) ∧
    ∃ paired, PairsFromLeft fragments paired ∧
      (∀ paired', PairsFromLeft fragments paired' → paired' = paired) ∧
      merge fragments = laid fragments paired := by
  have chosen := pairsFromLeft_pairs fragments
  refine ⟨merge_merge fragments, join_texts_merge fragments, pairs fragments, chosen, ?_, ?_⟩
  · intro paired' chosen'
    exact chosen.unique chosen'
  · exact merge_eq_laid chosen

example :
    merge [⟨"=", ⟨1, 1, 0⟩⟩, ⟨"=", ⟨1, 2, 1⟩⟩, ⟨"=", ⟨1, 3, 2⟩⟩] =
      [⟨"==", ⟨1, 1, 0⟩⟩, ⟨"=", ⟨1, 3, 2⟩⟩] := by
  decide

end Mini.Fragment
