import Mathlib.LinearAlgebra.Dimension.Constructions
import Mathlib.LinearAlgebra.Dimension.Finite
import Mathlib.LinearAlgebra.Dimension.StrongRankCondition
import Mathlib.Data.Fintype.Order
import Mathlib.Data.List.Lex
import Mathlib.Data.Sum.Order
import Mini.Proofs.Heap.Contents

/-!
# How deep a comparison goes

Two values are compared up to a depth, the number of arrays in the heap and one. A greater depth
changes nothing, so the depth stands for no limit at all. For a display this is so because a path
through arrays comes back to some array. A comparison goes through pairs of arrays, and there are
far more pairs than arrays.

But the pairs on the way of a comparison that comes to an end are not arbitrary: drawn as edges
between arrays they make no cycle. For a pair of equal arrays what sets it apart from the pairs
below is the depth at which the two come to be equal. For a pair of different arrays it is the way
down to the first difference, as a word of positions: of all pairs with a way that comes later in
the dictionary, both arrays look the same at the end of that word. Edges without a cycle are no
more than the points between which they are drawn.
-/

namespace Mini.Heap

variable {h : Heap}

/-! ## One level of a comparison -/

theorem sameWithin_plain {v w : Value} (plain : ∀ ref, v ≠ .array ref) (depth : Nat) :
    h.sameWithin depth v w = h.sameWithin 0 v w := by
  cases depth with
  | zero => rfl
  | succ depth =>
      cases v with
      | array ref => exact absurd rfl (plain ref)
      | nothing | number | text | boolean | function => cases w <;> rfl

theorem sameWithin_array (depth : Nat) (r s : Ref) :
    h.sameWithin (depth + 1) (.array r) (.array s) =
      if r = s then .ok true
      else if (h.read r).length = (h.read s).length then
        samePairs (h.sameWithin depth) (h.read r) (h.read s)
      else .ok false :=
  rfl

theorem samePairs_cons (same : Value → Value → Except Limit Bool) {a b : Bool}
    {key value key' value' : Value} (keys : same key key' = .ok a)
    (values : same value value' = .ok b) (pairs pairs' : Pairs) :
    samePairs same ((key, value) :: pairs) ((key', value') :: pairs') =
      if a && b then samePairs same pairs pairs' else .ok false := by
  rw [samePairs, keys]
  cases a with
  | false => rfl
  | true =>
      show (same value value' >>= _) = _
      rw [values]
      cases b <;> rfl

/-! ## What is compared -/

/-- What a comparison sees of a value without looking into arrays. -/
inductive Outline
  | nothing
  | number (n : Int)
  | text (s : String)
  | boolean (b : Bool)
  | function (id : FunctionId)
  | array (length : Nat)

/-- The outline of a value. -/
def outline (h : Heap) : Value → Outline
  | .nothing => .nothing
  | .number n => .number n
  | .text s => .text s
  | .boolean b => .boolean b
  | .function f => .function f.id
  | .array ref => .array (h.read ref).length

/-- Keys and values in the order in which they are compared. -/
def flat (pairs : Pairs) : List Value :=
  pairs.flatMap fun pair => [pair.1, pair.2]

/-- The parts of a value, which only an array has. -/
def parts (h : Heap) : Value → List Value
  | .array ref => flat (h.read ref)
  | _ => []

theorem length_flat (pairs : Pairs) : (flat pairs).length = 2 * pairs.length := by
  induction pairs with
  | nil => rfl
  | cons pair pairs ih =>
      show (flat pairs).length + 2 = 2 * (pairs.length + 1)
      omega

theorem length_parts {v w : Value} (same : h.outline v = h.outline w) :
    (h.parts v).length = (h.parts w).length := by
  cases v with
  | array r =>
      cases w with
      | array s =>
          have length := Outline.array.inj same
          show (flat _).length = (flat _).length
          rw [length_flat, length_flat, length]
      | nothing | number | text | boolean | function => cases same
  | nothing | number | text | boolean | function =>
      cases w with
      | array s => cases same
      | nothing | number | text | boolean | function => rfl

theorem holds_of_mem_parts {ref : Ref} {v : Value} (mem : v ∈ h.parts (.array ref)) :
    h.Holds (.array ref) v := by
  obtain ⟨pair, inside, mem⟩ := List.mem_flatMap.mp mem
  rcases List.mem_cons.mp mem with rfl | mem
  · exact .key inside
  · rw [List.mem_singleton.mp mem]
    exact .value inside

/-! ## One level of a comparison -/

/-- Compares values in order, up to the first difference. -/
def sameAll (same : Value → Value → Except Limit Bool) : List Value → List Value → Except Limit Bool
  | v :: vs, w :: ws => do if !(← same v w) then return false else sameAll same vs ws
  | _, _ => .ok true

theorem samePairs_eq_sameAll (same : Value → Value → Except Limit Bool) (pairs pairs' : Pairs) :
    samePairs same pairs pairs' = sameAll same (flat pairs) (flat pairs') := by
  induction pairs generalizing pairs' with
  | nil => rfl
  | cons pair pairs ih =>
      cases pairs' with
      | nil => rfl
      | cons pair' pairs' =>
          show (do
            if !(← same pair.1 pair'.1) then return false
            else if !(← same pair.2 pair'.2) then return false
            else samePairs same pairs pairs') = _
          rw [ih]
          rfl

theorem sameAll_cons (same : Value → Value → Except Limit Bool) (v w : Value)
    (vs ws : List Value) :
    sameAll same (v :: vs) (w :: ws) =
      if same v w = .ok true then sameAll same vs ws else same v w := by
  rw [sameAll]
  cases same v w with
  | error limit => rfl
  | ok b => cases b <;> rfl

/-- The values that stand at one position in two lists. -/
def Opposite (vs ws : List Value) (i : Nat) (v w : Value) : Prop :=
  vs[i]? = some v ∧ ws[i]? = some w

theorem exists_opposite {vs ws : List Value} (lengths : vs.length = ws.length) {i : Nat} {v : Value}
    (there : vs[i]? = some v) : ∃ w, ws[i]? = some w := by
  obtain ⟨lt, -⟩ := List.getElem?_eq_some_iff.mp there
  exact ⟨ws[i], List.getElem?_eq_getElem (lengths ▸ lt)⟩

section SameAll

variable {same : Value → Value → Except Limit Bool} {vs ws : List Value}

theorem sameAll_eq_true_iff :
    sameAll same vs ws = .ok true ↔ ∀ i v w, Opposite vs ws i v w → same v w = .ok true := by
  induction vs generalizing ws with
  | nil => exact ⟨fun _ _ _ _ opposite => (nomatch opposite.1), fun _ => rfl⟩
  | cons v vs ih =>
      cases ws with
      | nil => exact ⟨fun _ _ _ _ opposite => (nomatch opposite.2), fun _ => rfl⟩
      | cons w ws =>
          rw [sameAll_cons]
          constructor
          · intro all
            by_cases here : same v w = .ok true
            · rw [if_pos here] at all
              rintro (_ | i) v' w' ⟨left, right⟩
              · cases left
                cases right
                exact here
              · exact ih.mp all i v' w' ⟨left, right⟩
            · rw [if_neg here] at all
              exact absurd all here
          · intro each
            rw [if_pos (each 0 v w ⟨rfl, rfl⟩)]
            exact ih.mpr fun i v' w' opposite => each (i + 1) v' w' opposite

/-- A comparison that does not give true ends with the first pair that is not equal. -/
theorem exists_of_sameAll_ne_true (differ : sameAll same vs ws ≠ .ok true) :
    ∃ i v w, Opposite vs ws i v w ∧ same v w = sameAll same vs ws ∧
      ∀ j < i, ∀ v w, Opposite vs ws j v w → same v w = .ok true := by
  induction vs generalizing ws with
  | nil => exact absurd rfl differ
  | cons v vs ih =>
      cases ws with
      | nil => exact absurd rfl differ
      | cons w ws =>
          rw [sameAll_cons] at differ ⊢
          by_cases here : same v w = .ok true
          · rw [if_pos here] at differ ⊢
            obtain ⟨i, v', w', opposite, first, before⟩ := ih differ
            refine ⟨i + 1, v', w', opposite, first, ?_⟩
            rintro (_ | j) lt x y ⟨left, right⟩
            · cases left
              cases right
              exact here
            · exact before j (Nat.lt_of_succ_lt_succ lt) x y ⟨left, right⟩
          · rw [if_neg here]
            exact ⟨0, v, w, ⟨rfl, rfl⟩, rfl, fun j lt => absurd lt (Nat.not_lt_zero j)⟩

/-- A comparison that has come to an end stays as it is where single comparisons are changed that
have not. -/
theorem sameAll_stable {same' : Value → Value → Except Limit Bool}
    (stable : ∀ v w b, same v w = .ok b → same' v w = .ok b) {b : Bool}
    (ended : sameAll same vs ws = .ok b) : sameAll same' vs ws = .ok b := by
  induction vs generalizing ws with
  | nil => exact ended
  | cons v vs ih =>
      cases ws with
      | nil => exact ended
      | cons w ws =>
          rw [sameAll_cons] at ended ⊢
          by_cases here : same v w = .ok true
          · rw [if_pos here] at ended
            rw [if_pos (stable v w true here)]
            exact ih ended
          · rw [if_neg here] at ended
            rw [stable v w b ended, if_neg (ended ▸ here)]

end SameAll

/-- Values that look different are different. -/
theorem sameWithin_of_outline_ne {depth : Nat} {v w : Value} (differ : h.outline v ≠ h.outline w) :
    h.sameWithin (depth + 1) v w = .ok false := by
  cases v with
  | array r =>
      cases w with
      | array s =>
          have lengths : (h.read r).length ≠ (h.read s).length := fun same =>
            differ (congrArg Outline.array same)
          have apart : r ≠ s := fun same => lengths (by rw [same])
          rw [sameWithin_array, if_neg apart, if_neg lengths]
      | nothing | number | text | boolean | function => rfl
  | nothing | number | text | boolean | function =>
      cases w with
      | array s => rfl
      | nothing | number | text | boolean | function =>
          simp_all [sameWithin, outline]

/-- Values that look the same are the same, unless they are arrays. -/
theorem sameWithin_of_outline_eq {depth : Nat} {v w : Value} (plain : ∀ ref, v ≠ .array ref)
    (same : h.outline v = h.outline w) : h.sameWithin depth v w = .ok true := by
  rw [sameWithin_plain plain]
  cases v with
  | array r => exact absurd rfl (plain r)
  | nothing | number | text | boolean | function =>
      cases w <;> simp_all [sameWithin, outline]

/-- Two arrays that look the same are the same if their parts are. -/
theorem sameWithin_arrays {depth : Nat} {r s : Ref} (differ : r ≠ s)
    (same : h.outline (.array r) = h.outline (.array s)) :
    h.sameWithin (depth + 1) (.array r) (.array s) =
      sameAll (h.sameWithin depth) (h.parts (.array r)) (h.parts (.array s)) := by
  rw [sameWithin_array, if_neg differ, if_pos (Outline.array.inj same), samePairs_eq_sameAll]
  rfl

theorem sameWithin_arrays_zero {r s : Ref} (differ : r ≠ s) :
    h.sameWithin 0 (.array r) (.array s) = .error .nesting := by
  rw [sameWithin, if_neg differ]

theorem sameWithin_self (depth : Nat) (v : Value) : h.sameWithin depth v v = .ok true := by
  cases depth <;> cases v <;> simp [sameWithin]

/-- What a single look at two values can show. -/
inductive Look (h : Heap) : Value → Value → Prop
  | one (v : Value) : Look h v v
  | plain {v w : Value} : (∀ ref, v ≠ .array ref) → h.outline v = h.outline w → Look h v w
  | different {v w : Value} : h.outline v ≠ h.outline w → Look h v w
  | arrays {r s : Ref} : r ≠ s → h.outline (.array r) = h.outline (.array s) →
      Look h (.array r) (.array s)

theorem look (h : Heap) (v w : Value) : h.Look v w := by
  by_cases same : h.outline v = h.outline w
  · cases v with
    | array r =>
        cases w with
        | array s =>
            by_cases one : r = s
            · exact one ▸ .one _
            · exact .arrays one same
        | nothing | number | text | boolean | function => cases same
    | nothing | number | text | boolean | function => exact .plain (fun _ => nofun) same
  · exact .different same

theorem plain_of_outline_eq {v w : Value} (plain : ∀ ref, v ≠ .array ref)
    (same : h.outline v = h.outline w) : ∀ ref, w ≠ .array ref := by
  rintro ref rfl
  cases v with
  | array r => exact plain r rfl
  | nothing | number | text | boolean | function => cases same

/-- Values that look different are not found to be the same at any depth. -/
theorem outline_eq_of_true {depth : Nat} {v w : Value} (same : h.sameWithin depth v w = .ok true) :
    h.outline v = h.outline w := by
  by_contra differ
  have more : h.sameWithin (depth + 1) v w = .ok false := sameWithin_of_outline_ne differ
  cases v with
  | array r =>
      cases depth with
      | succ depth =>
          rw [sameWithin_of_outline_ne differ] at same
          cases same
      | zero =>
          cases w with
          | array s =>
              have apart : r ≠ s := fun one => differ (by rw [one])
              rw [sameWithin_arrays_zero apart] at same
              cases same
          | nothing | number | text | boolean | function => cases same
  | nothing | number | text | boolean | function =>
      rw [sameWithin_plain fun _ same => Value.noConfusion same] at same more
      rw [same] at more
      cases more

/-- More depth changes a comparison only where the depth has not been enough. -/
theorem sameWithin_succ {depth : Nat} {v w : Value} {b : Bool}
    (enough : h.sameWithin depth v w = .ok b) : h.sameWithin (depth + 1) v w = .ok b := by
  induction depth generalizing v w b with
  | zero =>
      cases h.look v w with
      | one =>
          rw [sameWithin_self] at enough ⊢
          exact enough
      | plain plain =>
          rw [sameWithin_plain plain]
          exact enough
      | different differ =>
          rw [sameWithin_of_outline_ne differ]
          cases b with
          | false => rfl
          | true => exact absurd (outline_eq_of_true enough) differ
      | arrays apart =>
          rw [sameWithin_arrays_zero apart] at enough
          cases enough
  | succ depth ih =>
      cases h.look v w with
      | one =>
          rw [sameWithin_self] at enough ⊢
          exact enough
      | plain plain same =>
          rw [sameWithin_of_outline_eq plain same] at enough ⊢
          exact enough
      | different differ =>
          rw [sameWithin_of_outline_ne differ] at enough ⊢
          exact enough
      | arrays apart same =>
          rw [sameWithin_arrays apart same] at enough ⊢
          exact sameAll_stable (fun _ _ _ => ih) enough

theorem sameWithin_of_le {depth depth' : Nat} (le : depth ≤ depth') {v w : Value} {b : Bool}
    (enough : h.sameWithin depth v w = .ok b) : h.sameWithin depth' v w = .ok b := by
  induction le with
  | refl => exact enough
  | step _ ih => exact sameWithin_succ ih

/-! ## Equal values -/

/-- Two values are found to be the same within a depth. -/
def SameAt (h : Heap) (depth : Nat) (v w : Value) : Prop :=
  h.sameWithin depth v w = .ok true

namespace SameAt

variable {depth : Nat} {u v w : Value}

theorem refl (depth : Nat) (v : Value) : h.SameAt depth v v :=
  sameWithin_self depth v

/-- Equal values have equal parts, one level down. -/
theorem parts (same : h.SameAt (depth + 1) v w) {i : Nat} {x y : Value}
    (opposite : Opposite (h.parts v) (h.parts w) i x y) : h.SameAt depth x y := by
  cases h.look v w with
  | one =>
      have one : x = y := Option.some.inj (opposite.1.symm.trans opposite.2)
      exact one ▸ refl depth x
  | plain plain =>
      have none : h.parts v = [] := by
        cases v with
        | array r => exact absurd rfl (plain r)
        | nothing | number | text | boolean | function => rfl
      rw [Opposite, none] at opposite
      cases opposite.1
  | different differ => exact absurd (outline_eq_of_true same) differ
  | arrays apart look =>
      rw [SameAt, sameWithin_arrays apart look] at same
      exact sameAll_eq_true_iff.mp same i x y opposite

theorem of_parts (look : h.outline v = h.outline w)
    (each : ∀ i x y, Opposite (h.parts v) (h.parts w) i x y → h.SameAt depth x y) :
    h.SameAt (depth + 1) v w := by
  cases h.look v w with
  | one => exact refl _ v
  | plain plain => exact sameWithin_of_outline_eq plain look
  | different differ => exact absurd look differ
  | arrays apart =>
      rw [SameAt, sameWithin_arrays apart look]
      exact sameAll_eq_true_iff.mpr each

theorem of_zero (same : h.SameAt 0 v w) : v = w ∨ ∀ ref, v ≠ .array ref := by
  cases h.look v w with
  | one => exact .inl rfl
  | plain plain => exact .inr plain
  | different differ => exact absurd (outline_eq_of_true same) differ
  | arrays apart =>
      rw [SameAt, sameWithin_arrays_zero apart] at same
      cases same

theorem symm (same : h.SameAt depth v w) : h.SameAt depth w v := by
  induction depth generalizing v w with
  | zero =>
      have look := outline_eq_of_true same
      rcases of_zero same with rfl | plain
      · exact same
      · exact sameWithin_of_outline_eq (plain_of_outline_eq plain look) look.symm
  | succ depth ih =>
      refine of_parts (outline_eq_of_true same).symm ?_
      intro i x y opposite
      exact ih (same.parts ⟨opposite.2, opposite.1⟩)

theorem trans (first : h.SameAt depth u v) (later : h.SameAt depth v w) : h.SameAt depth u w := by
  induction depth generalizing u v w with
  | zero =>
      rcases of_zero first with rfl | plain
      · exact later
      · have look := (outline_eq_of_true first).trans (outline_eq_of_true later)
        exact sameWithin_of_outline_eq plain look
  | succ depth ih =>
      have look := outline_eq_of_true first
      refine of_parts (look.trans (outline_eq_of_true later)) ?_
      rintro i x y ⟨left, right⟩
      obtain ⟨z, middle⟩ := exists_opposite (length_parts look) left
      exact ih (first.parts ⟨left, middle⟩) (later.parts ⟨middle, right⟩)

end SameAt

/-! ## Different values -/

/-- How the value looks that is reached by going down to the parts at given positions. -/
def observe (h : Heap) : List Nat → Value → Option Outline
  | [], v => some (h.outline v)
  | i :: word, v => (h.parts v)[i]?.bind (h.observe word)

theorem SameAt.observe {depth : Nat} {v w : Value} (same : h.SameAt depth v w) (word : List Nat) :
    h.observe word v = h.observe word w := by
  induction word generalizing depth v w with
  | nil => exact congrArg some (outline_eq_of_true same)
  | cons i word ih =>
      have lengths := length_parts (outline_eq_of_true same)
      rw [Heap.observe, Heap.observe]
      cases left : (h.parts v)[i]? with
      | none =>
          rw [List.getElem?_eq_none_iff, lengths, ← List.getElem?_eq_none_iff] at left
          rw [left]
      | some x =>
          obtain ⟨y, right⟩ := exists_opposite lengths left
          rw [right]
          have deeper : h.SameAt (depth + 1) v w := sameWithin_succ same
          exact ih (deeper.parts ⟨left, right⟩)

/-- Going down to the parts at given positions, two values look different for the first time at
the end, and all parts on the left of the way are equal. -/
inductive DifferAt (h : Heap) : Value → Value → List Nat → Prop
  | here {v w : Value} : h.outline v ≠ h.outline w → DifferAt h v w []
  | part {v w x y : Value} {i : Nat} {word : List Nat} : h.outline v = h.outline w →
      Opposite (h.parts v) (h.parts w) i x y →
      (∀ j < i, ∀ x y, Opposite (h.parts v) (h.parts w) j x y → ∃ depth, h.SameAt depth x y) →
      DifferAt h x y word → DifferAt h v w (i :: word)

theorem DifferAt.observe_ne {v w : Value} {word : List Nat} (differ : h.DifferAt v w word) :
    h.observe word v ≠ h.observe word w := by
  induction differ with
  | here differ => exact fun same => differ (Option.some.inj same)
  | part _ opposite _ _ ih =>
      rw [observe, observe, opposite.1, opposite.2]
      exact ih

/-- Before the way down to the first difference, in the order of the dictionary, nothing can be
seen of it. -/
theorem DifferAt.observe_eq {v w : Value} {word : List Nat} (differ : h.DifferAt v w word)
    {earlier : List Nat} (lt : earlier < word) : h.observe earlier v = h.observe earlier w := by
  induction differ generalizing earlier with
  | here => exact absurd lt (List.not_lt_nil _)
  | @part v w x y i word look opposite before _ ih =>
      cases earlier with
      | nil => exact congrArg some look
      | cons j earlier =>
          rw [observe, observe]
          rcases List.cons_lt_cons_iff.mp lt with left | ⟨rfl, later⟩
          · obtain ⟨inside, -⟩ := List.getElem?_eq_some_iff.mp opposite.1
            have left_there : (h.parts v)[j]? = some (h.parts v)[j] :=
              List.getElem?_eq_getElem (left.trans inside)
            obtain ⟨y', right_there⟩ := exists_opposite (length_parts look) left_there
            obtain ⟨depth, same⟩ := before j left _ y' ⟨left_there, right_there⟩
            rw [left_there, right_there]
            exact same.observe earlier
          · rw [opposite.1, opposite.2]
            exact ih later

theorem exists_differAt {depth : Nat} {v w : Value} (differ : h.sameWithin depth v w = .ok false) :
    ∃ word, h.DifferAt v w word := by
  have not_true : h.sameWithin depth v w ≠ .ok true := by
    rw [differ]
    nofun
  induction depth generalizing v w with
  | zero =>
      cases h.look v w with
      | one => exact absurd (sameWithin_self _ _) not_true
      | plain plain same => exact absurd (sameWithin_of_outline_eq plain same) not_true
      | different differ => exact ⟨[], .here differ⟩
      | arrays apart =>
          rw [sameWithin_arrays_zero apart] at differ
          cases differ
  | succ depth ih =>
      cases h.look v w with
      | one => exact absurd (sameWithin_self _ _) not_true
      | plain plain same => exact absurd (sameWithin_of_outline_eq plain same) not_true
      | different differ => exact ⟨[], .here differ⟩
      | arrays apart look =>
          rw [sameWithin_arrays apart look] at differ not_true
          obtain ⟨i, x, y, opposite, here, before⟩ := exists_of_sameAll_ne_true not_true
          rw [← here] at differ not_true
          obtain ⟨word, later⟩ := ih differ not_true
          exact ⟨i :: word, .part look opposite
            (fun j lt x y opposite => ⟨depth, before j lt x y opposite⟩) later⟩

/-! ## Pairs on the way of a comparison -/

/-- Pairs of points of which each can be told apart by something that does not tell apart the
later ones are no more than the points: as edges they make no cycle. -/
theorem card_le_of_separated {ι : Type} [Fintype ι] [LinearOrder ι] {n : Nat}
    (first second : ι → Fin n)
    (separated : ∀ i, ∃ marked : Fin n → Prop, marked (first i) ∧ ¬ marked (second i) ∧
      ∀ j, i < j → (marked (first j) ↔ marked (second j))) : Fintype.card ι ≤ n := by
  classical
  let edge : ι → Fin n → ℚ := fun i => Pi.single (first i) 1 - Pi.single (second i) 1
  have independent : LinearIndependent ℚ edge := by
    rw [Fintype.linearIndependent_iff]
    intro weight zero i
    induction i using WellFoundedLT.induction with
    | ind i ih =>
        obtain ⟨marked, inside, outside, together⟩ := separated i
        -- summing over the marked points leaves nothing of the later pairs
        let total : (Fin n → ℚ) →ₗ[ℚ] ℚ := ∑ x with marked x, LinearMap.proj x
        have total_single : ∀ x, total (Pi.single x 1) = if marked x then 1 else 0 := by
          intro x
          simp [total, LinearMap.sum_apply, Pi.single_apply]
        have total_edge : ∀ j, total (edge j) =
            (if marked (first j) then 1 else 0) - (if marked (second j) then 1 else 0) := by
          intro j
          rw [map_sub, total_single, total_single]
        have sum := congrArg total zero
        rw [map_sum, map_zero, Finset.sum_eq_single i] at sum
        · rw [map_smul, total_edge, if_pos inside, if_neg outside] at sum
          simpa using sum
        · intro j _ other
          rw [map_smul, total_edge]
          rcases lt_or_gt_of_ne other with lt | gt
          · rw [ih j lt, zero_smul]
          · rw [if_congr (together j gt) rfl rfl, sub_self, smul_zero]
        · intro absent
          exact absurd (Finset.mem_univ i) absent
  have bound := LinearIndependent.fintype_card_le_finrank independent
  rwa [Module.finrank_fin_fun] at bound

/-- What sets a pair of arrays apart: the way to the first difference, or else how deep they have
to be looked into to find them the same. All words come before all depths, and of two depths the
greater one comes first. -/
abbrev Key :=
  List Nat ⊕ₗ Natᵒᵈ

/-- A pair of different arrays with the way to the first difference, or of equal arrays with the
greatest depth that is not enough for them. -/
inductive Keyed (h : Heap) (r s : Ref) : Key → Prop
  | different {word : List Nat} : h.DifferAt (.array r) (.array s) word →
      Keyed h r s (toLex (.inl word))
  | equal {depth : Nat} : ¬ h.SameAt depth (.array r) (.array s) →
      h.SameAt (depth + 1) (.array r) (.array s) →
      Keyed h r s (toLex (.inr (OrderDual.toDual depth)))

/-- Something that tells the two arrays of a pair from each other, but no two arrays of a pair
whose key comes later. -/
theorem Keyed.separated {r s : Ref} {key : Key} (keyed : h.Keyed r s key) :
    ∃ marked : Ref → Prop, marked r ∧ ¬ marked s ∧
      ∀ {r' s' key'}, h.Keyed r' s' key' → key < key' → (marked r' ↔ marked s') := by
  cases keyed with
  | @different word differ =>
      refine ⟨fun x => h.observe word (.array x) = h.observe word (.array r), rfl,
        fun same => differ.observe_ne same.symm, ?_⟩
      intro r' s' key' keyed lt
      suffices same : h.observe word (.array r') = h.observe word (.array s') by
        show _ = _ ↔ _ = _
        rw [same]
      cases keyed with
      | different differ' => exact differ'.observe_eq (Sum.Lex.inl_lt_inl_iff.mp lt)
      | equal _ same => exact same.observe word
  | @equal depth short =>
      refine ⟨fun x => h.SameAt depth (.array r) (.array x), .refl _ _, short, ?_⟩
      intro r' s' key' keyed lt
      cases keyed with
      | different => exact absurd lt Sum.Lex.not_inr_lt_inl
      | equal _ same =>
          have le := OrderDual.toDual_lt_toDual.mp (Sum.Lex.inr_lt_inr_iff.mp lt)
          have same : h.SameAt depth (.array r') (.array s') := sameWithin_of_le le same
          exact ⟨fun first => first.trans same, fun second => second.trans same.symm⟩

/-- A pair on the way of a comparison. -/
structure Stage (h : Heap) where
  left : Ref
  right : Ref
  key : Key
  keyed : h.Keyed left right key
  left_lt : left.index < h.arrays.size
  right_lt : right.index < h.arrays.size

/-- Stages with different keys are no more than there are arrays. -/
theorem length_stages_le {stages : List (Stage h)} (distinct : (stages.map Stage.key).Nodup) :
    stages.length ≤ h.arrays.size := by
  have find : ∀ key : { key // key ∈ (stages.map Stage.key).toFinset },
      ∃ stage : Stage h, stage.key = key := by
    intro key
    obtain ⟨stage, -, same⟩ := List.mem_map.mp (List.mem_toFinset.mp key.2)
    exact ⟨stage, same⟩
  choose stage stage_key using find
  have bound := card_le_of_separated
    (fun key => (⟨(stage key).left.index, (stage key).left_lt⟩ : Fin h.arrays.size))
    (fun key => ⟨(stage key).right.index, (stage key).right_lt⟩) ?_
  · rwa [Fintype.card_coe, List.toFinset_card_of_nodup distinct, List.length_map] at bound
  · intro key
    obtain ⟨marked, inside, outside, together⟩ := (stage key).keyed.separated
    refine ⟨fun i => marked ⟨i⟩, inside, outside, fun key' lt => together (stage key').keyed ?_⟩
    rwa [stage_key, stage_key]

/-! ## The way of a comparison -/

/-- A comparison that is not decided one level down is one of two arrays, and the first parts that
are not equal are not decided. -/
theorem exists_undecided {depth : Nat} {v w : Value} {limit : Limit}
    (undecided : h.sameWithin (depth + 1) v w = .error limit) :
    ∃ r s i x y, v = .array r ∧ w = .array s ∧ Opposite (h.parts v) (h.parts w) i x y ∧
      h.sameWithin depth x y = .error limit ∧
      (∀ j < i, ∀ x y, Opposite (h.parts v) (h.parts w) j x y → h.SameAt depth x y) ∧
      r.index < h.arrays.size ∧ s.index < h.arrays.size := by
  cases h.look v w with
  | one =>
      rw [sameWithin_self] at undecided
      cases undecided
  | plain plain same =>
      rw [sameWithin_of_outline_eq plain same] at undecided
      cases undecided
  | different differ =>
      rw [sameWithin_of_outline_ne differ] at undecided
      cases undecided
  | @arrays r s apart look =>
      rw [sameWithin_arrays apart look] at undecided
      have not_true : sameAll (h.sameWithin depth) (h.parts (.array r)) (h.parts (.array s)) ≠
          .ok true := by
        rw [undecided]
        nofun
      obtain ⟨i, x, y, opposite, here, before⟩ := exists_of_sameAll_ne_true not_true
      have left := holds_of_mem_parts (List.mem_of_getElem? opposite.1)
      have right := holds_of_mem_parts (List.mem_of_getElem? opposite.2)
      exact ⟨r, s, i, x, y, rfl, rfl, opposite, here.trans undecided, before, left.index_lt,
        right.index_lt⟩

/-- On the way to finding two values the same the depths that are not enough go down. -/
theorem exists_stages_of_same {depth enough : Nat} {v w : Value} {limit : Limit}
    (undecided : h.sameWithin depth v w = .error limit) (same : h.SameAt enough v w) :
    ∃ stages : List (Stage h), stages.length = depth ∧ (stages.map Stage.key).Nodup ∧
      ∀ stage ∈ stages, ∃ short < enough, stage.key = toLex (.inr (OrderDual.toDual short)) := by
  induction depth generalizing v w enough with
  | zero => exact ⟨[], rfl, .nil, fun _ mem => absurd mem List.not_mem_nil⟩
  | succ depth ih =>
      obtain ⟨r, s, i, x, y, rfl, rfl, opposite, undecided', -, left, right⟩ :=
        exists_undecided undecided
      have starts : ¬ h.SameAt 0 (.array r) (.array s) := by
        intro same
        rw [sameWithin_of_le (Nat.zero_le _) same] at undecided
        cases undecided
      obtain ⟨least, short, long⟩ := Nat.exists_not_and_succ_of_not_zero_of_exists
        (p := fun depth => h.SameAt depth (.array r) (.array s)) starts ⟨enough, same⟩
      have before : least < enough := by
        by_contra ge
        exact short (sameWithin_of_le (Nat.le_of_not_lt ge) same)
      obtain ⟨stages, length, distinct, shorter⟩ := ih undecided' (long.parts opposite)
      refine ⟨⟨r, s, _, .equal short long, left, right⟩ :: stages, congrArg (· + 1) length, ?_, ?_⟩
      · refine List.nodup_cons.mpr ⟨fun mem => ?_, distinct⟩
        obtain ⟨stage, inside, one⟩ := List.mem_map.mp mem
        obtain ⟨other, lt, key⟩ := shorter stage inside
        rw [key] at one
        cases one
        exact absurd lt (Nat.lt_irrefl _)
      · intro stage mem
        rcases List.mem_cons.mp mem with rfl | mem
        · exact ⟨least, before, rfl⟩
        · obtain ⟨other, lt, key⟩ := shorter stage mem
          exact ⟨other, lt.trans before, key⟩

/-- On the way to the first difference of two values the words get shorter, until the way turns off
to the left, to parts that are the same. -/
theorem exists_stages_of_different {depth : Nat} {v w : Value} {limit : Limit} {word : List Nat}
    (undecided : h.sameWithin depth v w = .error limit) (differ : h.DifferAt v w word) :
    ∃ stages : List (Stage h), stages.length = depth ∧ (stages.map Stage.key).Nodup ∧
      ∀ stage ∈ stages, ∀ longer : List Nat, stage.key = toLex (.inl longer) →
        longer.length ≤ word.length := by
  induction depth generalizing v w word with
  | zero => exact ⟨[], rfl, .nil, fun _ mem => absurd mem List.not_mem_nil⟩
  | succ depth ih =>
      obtain ⟨r, s, i, x, y, rfl, rfl, opposite, undecided', before, left, right⟩ :=
        exists_undecided undecided
      cases differ with
      | here look =>
          rw [sameWithin_of_outline_ne look] at undecided
          cases undecided
      | @part _ _ x' y' k word look opposite' before' differ' =>
          -- whichever way the comparison goes on, it meets no word as long as this one
          obtain ⟨stages, length, distinct, shorter⟩ : ∃ stages : List (Stage h),
              stages.length = depth ∧ (stages.map Stage.key).Nodup ∧
                ∀ stage ∈ stages, ∀ other : List Nat, stage.key = toLex (.inl other) →
                  other.length ≤ word.length := by
            rcases Nat.lt_trichotomy i k with lt | rfl | gt
            · obtain ⟨enough, same⟩ := before' i lt x y opposite
              obtain ⟨stages, length, distinct, depths⟩ := exists_stages_of_same undecided' same
              refine ⟨stages, length, distinct, fun stage mem other key => ?_⟩
              obtain ⟨short, -, key'⟩ := depths stage mem
              cases key.symm.trans key'
            · cases opposite.1.symm.trans opposite'.1
              cases opposite.2.symm.trans opposite'.2
              exact ih undecided' differ'
            · exact absurd ((before k gt x' y' opposite').observe word) differ'.observe_ne
          refine ⟨⟨r, s, _, .different (.part look opposite' before' differ'), left, right⟩ ::
            stages,
            congrArg (· + 1) length, List.nodup_cons.mpr ⟨fun mem => ?_, distinct⟩, ?_⟩
          · obtain ⟨stage, inside, key⟩ := List.mem_map.mp mem
            exact absurd (shorter stage inside _ key) (by simp)
          · intro stage mem other key
            rcases List.mem_cons.mp mem with rfl | mem
            · cases key
              exact Nat.le_refl _
            · exact Nat.le_succ_of_le (shorter stage mem other key)

theorem limit_of_undecided {depth : Nat} {v w : Value} {limit : Limit}
    (undecided : h.sameWithin depth v w = .error limit) : limit = .nesting := by
  induction depth generalizing v w with
  | zero =>
      cases v with
      | array r =>
          cases w with
          | array s =>
              by_cases one : r = s
              · rw [one, sameWithin_self] at undecided
                cases undecided
              · rw [sameWithin_arrays_zero one] at undecided
                cases undecided
                rfl
          | nothing | number | text | boolean | function => cases undecided
      | nothing | number | text | boolean | function => cases w <;> cases undecided
  | succ depth ih =>
      obtain ⟨_, _, _, x, y, _, _, _, undecided', _⟩ := exists_undecided undecided
      exact ih undecided'

/-- **A comparison gives the same at any greater depth.** -/
theorem sameWithin_depth_add (more : Nat) (v w : Value) :
    h.sameWithin (h.depth + more) v w = h.same v w := by
  cases short : h.same v w with
  | ok b => exact sameWithin_of_le (Nat.le_add_right _ _) short
  | error limit =>
      cases long : h.sameWithin (h.depth + more) v w with
      | error limit' => rw [limit_of_undecided short, limit_of_undecided long]
      | ok b =>
          obtain ⟨stages, length, distinct⟩ : ∃ stages : List (Stage h),
              stages.length = h.depth ∧ (stages.map Stage.key).Nodup := by
            cases b with
            | true =>
                obtain ⟨stages, length, distinct, -⟩ := exists_stages_of_same short long
                exact ⟨stages, length, distinct⟩
            | false =>
                obtain ⟨word, differ⟩ := exists_differAt long
                obtain ⟨stages, length, distinct, -⟩ := exists_stages_of_different short differ
                exact ⟨stages, length, distinct⟩
          have bound := length_stages_le distinct
          rw [length, depth] at bound
          omega

end Mini.Heap
