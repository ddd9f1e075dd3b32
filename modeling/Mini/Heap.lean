import Mini.Fault
import Mini.Value

/-!
# The heap of arrays

An array is a list of pairs in order of insertion. The heap keeps the pairs, so
that all values that hold one reference see the same array, and an array can
contain itself.

Keys are found by equality of values, which looks into arrays pair by pair.
Looking stops at once where both sides are the same array. Two different arrays
may still be compared without end. A path through arrays that do not contain
themselves visits each at most once, so a comparison that goes deeper than there
are arrays has none, and is given up.
-/

namespace Mini

/-- The pairs of an array. -/
abbrev Pairs := List (Value × Value)

/-- All arrays, in the order in which they were made. -/
structure Heap where
  arrays : Array Pairs
  deriving Inhabited

namespace Heap

/-- No arrays. -/
def empty : Heap :=
  ⟨#[]⟩

/-- The pairs of an array. -/
def read (h : Heap) (r : Ref) : Pairs :=
  h.arrays[r.index]?.getD []

/-- Replaces the pairs of an array. -/
def write (h : Heap) (r : Ref) (pairs : Pairs) : Heap :=
  ⟨h.arrays.setIfInBounds r.index pairs⟩

/-- The reference that the next new array gets. -/
def fresh (h : Heap) : Ref :=
  ⟨h.arrays.size⟩

/-- Adds an array, behind the fresh reference. -/
def add (h : Heap) (pairs : Pairs) : Heap :=
  ⟨h.arrays.push pairs⟩

/-- How many arrays deep a value is looked into. -/
def depth (h : Heap) : Nat :=
  h.arrays.size + 1

/-! ## Equality -/

/-- Compares pairs in order, keys before values, up to the first difference. -/
def samePairs (same : Value → Value → Except Limit Bool) : Pairs → Pairs → Except Limit Bool
  | (key, value) :: pairs, (key', value') :: pairs' => do
      if !(← same key key') then return false
      else if !(← same value value') then return false
      else samePairs same pairs pairs'
  | _, _ => .ok true

/-- Compares two values, looking into arrays up to a depth. Arrays with different
numbers of pairs differ at once. -/
def sameWithin (h : Heap) (depth : Nat) (a b : Value) : Except Limit Bool :=
  match a, b with
  | .nothing, .nothing => .ok true
  | .number m, .number n => .ok (m = n)
  | .text s, .text t => .ok (s = t)
  | .boolean p, .boolean q => .ok (p = q)
  | .function f, .function g => .ok (f.id = g.id)
  | .array r, .array s =>
      if r = s then .ok true
      else
        match depth with
        | 0 => .error .nesting
        | depth + 1 =>
            if (h.read r).length = (h.read s).length then
              samePairs (sameWithin h depth) (h.read r) (h.read s)
            else .ok false
  | _, _ => .ok false

/-- Compares two values. -/
def same (h : Heap) (a b : Value) : Except Limit Bool :=
  h.sameWithin h.depth a b

/-! ## Keys -/

/-- The value under the first key that equals the given one, or nothing. -/
def lookup (h : Heap) (pairs : Pairs) (key : Value) : Except Limit Value :=
  match pairs with
  | [] => .ok .nothing
  | (k, v) :: rest => do if ← h.same k key then return v else h.lookup rest key

/-- Puts a value under a key: the first equal key keeps its place and gets the
value; a new key comes last. -/
def store (h : Heap) (pairs : Pairs) (key value : Value) : Except Limit Pairs :=
  match pairs with
  | [] => .ok [(key, value)]
  | (k, v) :: rest => do
      if ← h.same k key then return (k, value) :: rest
      else return (k, v) :: (← h.store rest key value)

end Heap

end Mini
