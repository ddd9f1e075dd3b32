import Mini.Operator
import Mini.Proofs.Heap.Comparison
import Mini.Proofs.Syntax.Rescoped

/-!
# Values of trees with other scopes

A function is told from others by its identity, and otherwise only called. So values whose functions
have bodies with other scopes are displayed, compared and found in arrays alike.
-/

namespace Mini

/-- Values that are the same but for scopes in the bodies of functions. -/
inductive Value.Rescoped : Value → Value → Prop
  | nothing : Rescoped .nothing .nothing
  | number (n : Int) : Rescoped (.number n) (.number n)
  | text (s : String) : Rescoped (.text s) (.text s)
  | boolean (b : Bool) : Rescoped (.boolean b) (.boolean b)
  | array (ref : Ref) : Rescoped (.array ref) (.array ref)
  | function (id : FunctionId) (params : List Identifier) {body body' : Block} :
      Block.Rescoped body body' →
        Rescoped (.function ⟨id, params, body⟩) (.function ⟨id, params, body'⟩)

/-- Pairs that are the same but for scopes in the bodies of functions. -/
inductive PairsRescoped : Pairs → Pairs → Prop
  | nil : PairsRescoped [] []
  | cons {key key' v v' : Value} {pairs pairs' : Pairs} :
      Value.Rescoped key key' → Value.Rescoped v v' → PairsRescoped pairs pairs' →
        PairsRescoped ((key, v) :: pairs) ((key', v') :: pairs')

/-- Heaps that are the same but for scopes in the bodies of functions. -/
structure Heap.Rescoped (h h' : Heap) : Prop where
  size : h'.arrays.size = h.arrays.size
  read : ∀ ref, PairsRescoped (h.read ref) (h'.read ref)

/-- Two answers that are both values in the relation, or the same failure. -/
inductive Both {ε α : Type} (R : α → α → Prop) : Except ε α → Except ε α → Prop
  | ok {a a' : α} : R a a' → Both R (.ok a) (.ok a')
  | error (e : ε) : Both R (.error e) (.error e)

namespace Value.Rescoped

variable {v v' : Value}

theorem refl (v : Value) : Rescoped v v := by
  cases v with
  | nothing => exact .nothing
  | number n => exact .number n
  | text s => exact .text s
  | boolean b => exact .boolean b
  | array ref => exact .array ref
  | function f => exact .function f.id f.params (Block.Rescoped.refl f.body)

theorem kind_eq (h : Rescoped v v') : v'.kind = v.kind := by
  cases h <;> rfl

theorem isTrue_eq (h : Rescoped v v') : v'.isTrue = v.isTrue := by
  cases h <;> rfl

end Value.Rescoped

theorem PairsRescoped.refl (pairs : Pairs) : PairsRescoped pairs pairs := by
  induction pairs with
  | nil => exact .nil
  | cons pair pairs ih => exact .cons (.refl pair.1) (.refl pair.2) ih

theorem Heap.Rescoped.refl (h : Heap) : h.Rescoped h :=
  ⟨rfl, fun ref => .refl (h.read ref)⟩

theorem PairsRescoped.length_eq {pairs pairs' : Pairs} (rescoped : PairsRescoped pairs pairs') :
    pairs'.length = pairs.length := by
  induction rescoped with
  | nil => rfl
  | cons _ _ _ ih => simp [ih]

/-! ## Operators -/

namespace Operator

/-- An operator does not look into functions. -/
theorem binary_rescoped (op : Token) {a a' b b' : Value} (left : Value.Rescoped a a')
    (right : Value.Rescoped b b') : Both Value.Rescoped (binary op a b) (binary op a' b') := by
  have same : binary op a' b' = binary op a b := by
    unfold binary
    rw [left.kind_eq, right.kind_eq]
    cases left <;> cases right <;> rfl
  rw [same]
  cases binary op a b with
  | ok v => exact .ok (.refl v)
  | error cause => exact .error cause

theorem unary_rescoped (op : Token) {a a' : Value} (operand : Value.Rescoped a a') :
    Both Value.Rescoped (unary op a) (unary op a') := by
  unfold unary
  cases op.kind <;> cases operand <;> first
    | exact .error _
    | exact .ok (.refl _)
    | exact .ok (.function _ _ ‹_›)

end Operator

namespace Heap.Rescoped

variable {h h' : Heap} (heap : h.Rescoped h')
include heap

/-! ## Displays and comparisons -/

theorem depth_eq : h'.depth = h.depth := by
  rw [depth, depth, heap.size]

omit heap in
theorem pairTexts_eq {join : String → String → String} {text text' : Value → Except Limit String}
    (same : ∀ {v v'}, Value.Rescoped v v' → text' v' = text v) {pairs pairs' : Pairs}
    (rescoped : PairsRescoped pairs pairs') :
    pairTexts join text' pairs' = pairTexts join text pairs := by
  induction rescoped with
  | nil => rfl
  | cons key v _ ih => rw [pairTexts, pairTexts, same key, same v, ih]

theorem displayWithin_eq (depth : Nat) {v v' : Value} (value : Value.Rescoped v v') :
    h'.displayWithin depth v' = h.displayWithin depth v := by
  induction depth generalizing v v' with
  | zero =>
      cases value with
      | number n => rw [displayWithin_number, displayWithin_number]
      | nothing | text | boolean | array | function => rfl
  | succ depth ih =>
      cases value with
      | array ref =>
          rw [displayWithin_array_succ, displayWithin_array_succ, pairTexts_eq ih (heap.read ref)]
      | number n => rw [displayWithin_number, displayWithin_number]
      | nothing | text | boolean | function => rfl

theorem display_eq {v v' : Value} (value : Value.Rescoped v v') :
    h'.display v' = h.display v := by
  rw [display, display, heap.depth_eq, heap.displayWithin_eq _ value]

omit heap in
theorem samePairs_eq {same same' : Value → Value → Except Limit Bool}
    (alike : ∀ {v v' w w'}, Value.Rescoped v v' → Value.Rescoped w w' → same' v' w' = same v w)
    {first first' second second' : Pairs} (rescoped : PairsRescoped first first')
    (rescoped' : PairsRescoped second second') :
    samePairs same' first' second' = samePairs same first second := by
  induction rescoped generalizing second second' with
  | nil => cases rescoped' <;> rfl
  | cons key v _ ih =>
      cases rescoped' with
      | nil => rfl
      | cons key' v' rest => rw [samePairs, samePairs, alike key key', alike v v', ih rest]

theorem sameWithin_eq (depth : Nat) {v v' w w' : Value} (left : Value.Rescoped v v')
    (right : Value.Rescoped w w') : h'.sameWithin depth v' w' = h.sameWithin depth v w := by
  induction depth generalizing v v' w w' with
  | zero => cases left <;> cases right <;> rfl
  | succ depth ih =>
      cases left with
      | array r =>
          cases right with
          | array s =>
              rw [sameWithin_array, sameWithin_array, (heap.read r).length_eq,
                (heap.read s).length_eq, samePairs_eq ih (heap.read r) (heap.read s)]
          | nothing | number | text | boolean | function => rfl
      | nothing | number | text | boolean | function => cases right <;> rfl

theorem same_eq {v v' w w' : Value} (left : Value.Rescoped v v') (right : Value.Rescoped w w') :
    h'.same v' w' = h.same v w := by
  rw [same, same, heap.depth_eq, heap.sameWithin_eq _ left right]

/-! ## Keys -/

theorem lookup {pairs pairs' : Pairs} {key key' : Value} (rescoped : PairsRescoped pairs pairs')
    (keys : Value.Rescoped key key') :
    Both Value.Rescoped (h.lookup pairs key) (h'.lookup pairs' key') := by
  induction rescoped with
  | nil => exact .ok .nothing
  | @cons k k' v v' _ _ other value _ ih =>
      rw [Heap.lookup, Heap.lookup, heap.same_eq other keys]
      cases h.same k key with
      | error limit => exact .error limit
      | ok equal =>
          cases equal with
          | true => exact .ok value
          | false => exact ih

theorem store {pairs pairs' : Pairs} {key key' v v' : Value}
    (rescoped : PairsRescoped pairs pairs') (keys : Value.Rescoped key key')
    (value : Value.Rescoped v v') :
    Both PairsRescoped (h.store pairs key v) (h'.store pairs' key' v') := by
  induction rescoped with
  | nil => exact .ok (.cons keys value .nil)
  | @cons k k' w w' rest rest' other old later ih =>
      rw [Heap.store, Heap.store, heap.same_eq other keys]
      cases h.same k key with
      | error limit => exact .error limit
      | ok equal =>
          cases equal with
          | true => exact .ok (.cons other value later)
          | false =>
              show Both PairsRescoped ((h.store rest key v).map ((k, w) :: ·))
                ((h'.store rest' key' v').map ((k', w') :: ·))
              generalize h.store rest key v = stored, h'.store rest' key' v' = stored' at ih ⊢
              cases ih with
              | ok pairs => exact .ok (.cons other old pairs)
              | error limit => exact .error limit

/-! ## Changes -/

theorem fresh_eq : h'.fresh = h.fresh := by
  rw [fresh, fresh, heap.size]

theorem add {pairs pairs' : Pairs} (rescoped : PairsRescoped pairs pairs') :
    (h.add pairs).Rescoped (h'.add pairs') := by
  refine ⟨by simp [Heap.add, heap.size], fun ref => ?_⟩
  have old := heap.read ref
  unfold Heap.read Heap.add at *
  simp only [Array.getElem?_push, heap.size]
  split
  · exact rescoped
  · exact old

theorem write (ref : Ref) {pairs pairs' : Pairs} (rescoped : PairsRescoped pairs pairs') :
    (h.write ref pairs).Rescoped (h'.write ref pairs') := by
  refine ⟨by simp [Heap.write, heap.size], fun other => ?_⟩
  have old := heap.read other
  unfold Heap.read Heap.write at *
  simp only [Array.getElem?_setIfInBounds, heap.size]
  split
  · split
    · exact rescoped
    · exact .nil
  · exact old

end Heap.Rescoped

end Mini
