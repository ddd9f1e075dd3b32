import Mini.Proofs.Heap.Depth
import Mini.Proofs.Heap.Slots

/-!
# Values looked through to the end

When its references are looked through, a value in which no array contains itself amounts to a
finite tree, and to one only. Displaying such a value and comparing two of them only depend on the
trees: the two are equal exactly if the trees are, no matter that a comparison does not look into
an array at all where both sides are the same one. So equal values can stand for each other: they
have the same display, and as keys they find the same entry of an array.
-/

namespace Mini

/-! ## Trees -/

mutual

/-- A value without references: an array is its pairs, and a function is its literal. -/
inductive Tree
  | nothing
  | number (n : Int)
  | text (s : String)
  | boolean (b : Bool)
  | function (id : FunctionId)
  | array (pairs : TreePairs)
  deriving DecidableEq

/-- Keys and values, in order. -/
inductive TreePairs
  | nil
  | cons (key value : Tree) (rest : TreePairs)
  deriving DecidableEq

end

mutual

/-- How many arrays are inside each other. -/
def Tree.nesting : Tree → Nat
  | .array pairs => pairs.nesting + 1
  | .nothing | .number _ | .text _ | .boolean _ | .function _ => 0

def TreePairs.nesting : TreePairs → Nat
  | .nil => 0
  | .cons key value rest => max (max key.nesting value.nesting) rest.nesting

end

mutual

/-- The display of a tree. It can only fail at a number. -/
def Tree.display : Tree → Except Limit String
  | .nothing => .ok Kind.nothing.name
  | .number n => Heap.numberText n
  | .text s => .ok s
  | .boolean b => .ok (if b then "true" else "false")
  | .function _ => .ok Kind.function.name
  | .array pairs => do return "[" ++ ",".intercalate (← pairs.displays) ++ "]"

def TreePairs.displays : TreePairs → Except Limit (List String)
  | .nil => .ok []
  | .cons key value rest => do
      let k ← key.display
      let v ← value.display
      return (k ++ ":" ++ v) :: (← rest.displays)

end

/-- The value is no array, or one of the first arrays. -/
def Value.isBefore (n : Nat) : Value → Bool
  | .array ref => ref.index < n
  | .nothing | .number _ | .text _ | .boolean _ | .function _ => true

namespace Heap

variable {h : Heap}

mutual

/-- A value amounts to a tree. -/
inductive Unfolds (h : Heap) : Value → Tree → Prop
  | nothing : Unfolds h .nothing .nothing
  | number {n : Int} : Unfolds h (.number n) (.number n)
  | text {s : String} : Unfolds h (.text s) (.text s)
  | boolean {b : Bool} : Unfolds h (.boolean b) (.boolean b)
  | function {f : Function} : Unfolds h (.function f) (.function f.id)
  | array {ref : Ref} {pairs : TreePairs} : UnfoldsPairs h (h.read ref) pairs →
      Unfolds h (.array ref) (.array pairs)

/-- Pairs amount to pairs of trees. -/
inductive UnfoldsPairs (h : Heap) : Pairs → TreePairs → Prop
  | nil : UnfoldsPairs h [] .nil
  | cons {key value : Value} {pairs : Pairs} {k v : Tree} {rest : TreePairs} :
      Unfolds h key k → Unfolds h value v → UnfoldsPairs h pairs rest →
      UnfoldsPairs h ((key, value) :: pairs) (.cons k v rest)

end

mutual

/-- A value amounts to at most one tree. -/
theorem Unfolds.unique {v : Value} {t t' : Tree} (unfolds : h.Unfolds v t)
    (also : h.Unfolds v t') : t = t' := by
  match unfolds with
  | .nothing | .number | .text | .boolean | .function =>
      cases also
      rfl
  | .array pairs =>
      cases also with
      | array others => rw [pairs.unique others]
termination_by structural unfolds

theorem UnfoldsPairs.unique {pairs : Pairs} {ts ts' : TreePairs} (unfolds : h.UnfoldsPairs pairs ts)
    (also : h.UnfoldsPairs pairs ts') : ts = ts' := by
  match unfolds with
  | .nil =>
      cases also
      rfl
  | .cons key value rest =>
      cases also with
      | cons key' value' rest' => rw [key.unique key', value.unique value', rest.unique rest']
termination_by structural unfolds

end

theorem UnfoldsPairs.length_eq {pairs pairs' : Pairs} {ts : TreePairs} :
    h.UnfoldsPairs pairs ts → h.UnfoldsPairs pairs' ts → pairs.length = pairs'.length
  | .nil, .nil => rfl
  | .cons _ _ rest, .cons _ _ rest' => congrArg (· + 1) (rest.length_eq rest')

/-! ## Values in which no array contains itself -/

/-- No array in a value contains itself. -/
def Grounded (h : Heap) (v : Value) : Prop :=
  ∀ ref, h.Reaches v (.array ref) → ¬h.SelfContaining ref

/-- No array contains itself. -/
def CycleFree (h : Heap) : Prop :=
  ∀ ref, ¬h.SelfContaining ref

theorem CycleFree.grounded (free : h.CycleFree) (v : Value) : h.Grounded v :=
  fun ref _ => free ref

theorem Inside.exists_pair {outer inner : Ref} (inside : h.Inside outer inner) :
    ∃ pair ∈ h.read outer, pair.1 = .array inner ∨ pair.2 = .array inner := by
  unfold Inside at inside
  generalize array : Value.array inner = v at inside
  cases inside with
  | key mem => exact ⟨_, mem, .inl rfl⟩
  | value mem => exact ⟨_, mem, .inr rfl⟩

/-- Arrays only hold arrays that were made before them. -/
def Stratified (h : Heap) : Prop :=
  ∀ i < h.arrays.size, ∀ pair ∈ h.read ⟨i⟩, pair.1.isBefore i ∧ pair.2.isBefore i

instance : Decidable h.Stratified :=
  inferInstanceAs (Decidable (∀ i < h.arrays.size, ∀ pair ∈ h.read ⟨i⟩, _))

namespace Stratified

variable (stratified : h.Stratified)
include stratified

theorem index_lt {outer inner : Ref}
    (through : Relation.TransGen h.Holds (.array outer) (.array inner)) :
    inner.index < outer.index := by
  have below : ∀ {outer inner}, h.Inside outer inner → inner.index < outer.index := by
    intro outer inner inside
    obtain ⟨pair, mem, which⟩ := inside.exists_pair
    obtain ⟨key, value⟩ := stratified outer.index inside.index_lt pair mem
    rcases which with same | same
    · rw [same] at key
      exact of_decide_eq_true key
    · rw [same] at value
      exact of_decide_eq_true value
  generalize array : Value.array inner = v at through
  induction through generalizing inner with
  | single holds =>
      subst array
      exact below holds
  | @tail u _ _ holds ih =>
      subst array
      cases u with
      | array middle => exact (below holds).trans (ih rfl)
      | nothing | number | text | boolean | function => cases holds

theorem cycleFree : h.CycleFree :=
  fun _ contains => Nat.lt_irrefl _ (stratified.index_lt contains)

end Stratified

/-- What holds of a value as soon as it holds of all that the value holds is true of every value in
which no array contains itself: otherwise there would be a path through arrays of any length. -/
theorem Grounded.induction {motive : Value → Prop}
    (step : ∀ v, (∀ w, h.Holds v w → motive w) → motive v) {v : Value} (grounded : h.Grounded v) :
    motive v := by
  have path_of_not : ∀ length v, ¬motive v → ∃ first path,
      v = .array first ∧ path.length = length ∧ (first :: path).IsChain h.Inside := by
    intro length
    induction length with
    | zero =>
        intro v fails
        cases v with
        | array ref => exact ⟨ref, [], rfl, rfl, .singleton _⟩
        | nothing | number | text | boolean | function =>
            refine absurd (step _ fun w holds => ?_) fails
            cases holds
    | succ length ih =>
        intro v fails
        obtain ⟨w, holds, fails⟩ : ∃ w, h.Holds v w ∧ ¬motive w := by
          by_contra none
          push Not at none
          exact fails (step v none)
        obtain ⟨first, path, rfl, rfl, chain⟩ := ih w fails
        cases v with
        | array ref =>
            exact ⟨ref, first :: path, rfl, rfl, List.isChain_cons_cons.mpr ⟨holds, chain⟩⟩
        | nothing | number | text | boolean | function => cases holds
  by_contra fails
  obtain ⟨first, path, rfl, length, chain⟩ := path_of_not (h.arrays.size + 1) v fails
  have long : h.arrays.size + 1 < (first :: path).length := by
    rw [List.length_cons, length]
    exact Nat.lt_succ_self _
  obtain ⟨ref, mem, contains⟩ := selfContaining_of_chain chain long
  exact grounded ref (reaches_of_chain chain ref mem) contains

theorem exists_unfoldsPairs {pairs : Pairs}
    (each : ∀ pair ∈ pairs, (∃ t, h.Unfolds pair.1 t) ∧ ∃ t, h.Unfolds pair.2 t) :
    ∃ ts, h.UnfoldsPairs pairs ts := by
  induction pairs with
  | nil => exact ⟨.nil, .nil⟩
  | cons pair pairs ih =>
      obtain ⟨⟨⟨k, key⟩, v, value⟩, each⟩ := List.forall_mem_cons.mp each
      obtain ⟨ts, rest⟩ := ih each
      exact ⟨.cons k v ts, .cons key value rest⟩

theorem Grounded.exists_unfolds {v : Value} (grounded : h.Grounded v) : ∃ t, h.Unfolds v t := by
  refine grounded.induction (motive := fun v => ∃ t, h.Unfolds v t) fun v parts => ?_
  cases v with
  | nothing => exact ⟨_, .nothing⟩
  | number n => exact ⟨_, .number⟩
  | text s => exact ⟨_, .text⟩
  | boolean b => exact ⟨_, .boolean⟩
  | function f => exact ⟨_, .function⟩
  | array ref =>
      obtain ⟨ts, pairs⟩ := exists_unfoldsPairs fun pair (mem : pair ∈ h.read ref) =>
        ⟨parts _ (.key mem), parts _ (.value mem)⟩
      exact ⟨_, .array pairs⟩

/-! ## Comparisons -/

mutual

theorem Unfolds.sameWithin {v w : Value} {t u : Tree} (unfolds : h.Unfolds v t)
    (other : h.Unfolds w u) {depth : Nat} (enough : t.nesting ≤ depth) :
    h.sameWithin depth v w = .ok (decide (t = u)) := by
  match unfolds with
  | .nothing | .number | .text | .boolean | .function =>
      rw [sameWithin_plain (fun _ same => Value.noConfusion same)]
      cases other <;> simp [Heap.sameWithin]
  | @Unfolds.array _ r ts pairs =>
      obtain ⟨k, rfl⟩ : ∃ k, depth = k + 1 := by
        have more : ts.nesting + 1 ≤ depth := enough
        exact ⟨depth - 1, by omega⟩
      cases other with
      | nothing | number | text | boolean | function => simp [Heap.sameWithin]
      | @array s us pairs' =>
          rw [sameWithin_array]
          -- one array is not compared with itself, and it has only one tree
          by_cases one : r = s
          · subst one
            rw [if_pos rfl, pairs.unique pairs']
            simp
          rw [if_neg one]
          by_cases length : (h.read r).length = (h.read s).length
          · rw [if_pos length, pairs.samePairs pairs' length (Nat.le_of_succ_le_succ enough)]
            simp
          · have differ : ts ≠ us := by
              rintro rfl
              exact length (pairs.length_eq pairs')
            rw [if_neg length]
            simp [differ]
termination_by structural unfolds

theorem UnfoldsPairs.samePairs {pairs pairs' : Pairs} {ts us : TreePairs}
    (unfolds : h.UnfoldsPairs pairs ts) (other : h.UnfoldsPairs pairs' us)
    (length : pairs.length = pairs'.length) {depth : Nat} (enough : ts.nesting ≤ depth) :
    samePairs (h.sameWithin depth) pairs pairs' = .ok (decide (ts = us)) := by
  match unfolds with
  | .nil =>
      cases other with
      | nil => rfl
      | cons => cases length
  | @UnfoldsPairs.cons _ _ _ _ k v rest key value later =>
      cases other with
      | nil => cases length
      | @cons _ _ _ k' v' rest' key' value' later' =>
          have bound : max (max k.nesting v.nesting) rest.nesting ≤ depth := enough
          have keys := key.sameWithin key' (by omega : _ ≤ depth)
          have values := value.sameWithin value' (by omega : _ ≤ depth)
          have others := later.samePairs later' (Nat.succ.inj length) (by omega : _ ≤ depth)
          rw [samePairs_cons _ keys values, others]
          by_cases sameKey : k = k' <;> by_cases sameValue : v = v' <;>
            simp [sameKey, sameValue]
termination_by structural unfolds

end

/-- Two values are equal exactly if their trees are. -/
theorem Unfolds.same {v w : Value} {t u : Tree} (unfolds : h.Unfolds v t)
    (other : h.Unfolds w u) : h.same v w = .ok (decide (t = u)) := by
  rw [← sameWithin_depth_add t.nesting]
  exact unfolds.sameWithin other (Nat.le_add_left _ _)

/-! ## Displays -/

mutual

theorem Unfolds.displayWithin {v : Value} {t : Tree} (unfolds : h.Unfolds v t) {depth : Nat}
    (enough : t.nesting ≤ depth) : h.displayWithin depth v = t.display := by
  match unfolds with
  | .number => rw [displayWithin_number, Tree.display]
  | .nothing | .text | .boolean | .function => cases depth <;> rfl
  | @Unfolds.array _ _ ts pairs =>
      obtain ⟨k, rfl⟩ : ∃ k, depth = k + 1 := by
        have more : ts.nesting + 1 ≤ depth := enough
        exact ⟨depth - 1, by omega⟩
      rw [displayWithin_array_succ, pairs.displays (Nat.le_of_succ_le_succ enough), Tree.display]
      cases ts.displays <;> rfl
termination_by structural unfolds

theorem UnfoldsPairs.displays {pairs : Pairs} {ts : TreePairs} (unfolds : h.UnfoldsPairs pairs ts)
    {depth : Nat} (enough : ts.nesting ≤ depth) :
    pairTexts (· ++ ":" ++ ·) (h.displayWithin depth) pairs = ts.displays := by
  match unfolds with
  | .nil => rfl
  | @UnfoldsPairs.cons _ _ _ _ k v rest key value later =>
      have bound : max (max k.nesting v.nesting) rest.nesting ≤ depth := enough
      rw [pairTexts, key.displayWithin (by omega), value.displayWithin (by omega),
        later.displays (by omega), TreePairs.displays]
termination_by structural unfolds

end

/-- The display of a value is that of its tree. -/
theorem Unfolds.display {v : Value} {t : Tree} (unfolds : h.Unfolds v t) :
    h.display v = t.display := by
  rw [← displayWithin_depth_add t.nesting]
  exact unfolds.displayWithin (Nat.le_add_left _ _)

/-! ## Equal values stand for each other -/

/-- Two keys have one slot among some pairs: what is stored under either of them replaces the value
of the same entry, or is put behind all entries. -/
def OneSlot (h : Heap) (pairs : Pairs) (key key' : Value) : Prop :=
  ∀ new,
    (∃ before k old after, pairs = before ++ (k, old) :: after ∧
      h.store pairs key new = .ok (before ++ (k, new) :: after) ∧
      h.store pairs key' new = .ok (before ++ (k, new) :: after)) ∨
    h.store pairs key new = .ok (pairs ++ [(key, new)]) ∧
      h.store pairs key' new = .ok (pairs ++ [(key', new)])

section Alike

variable {pairs : Pairs} {key key' : Value} (alike : ∀ v, h.same v key' = h.same v key)
  (decides : h.Decides pairs key)
include alike decides

omit decides in
theorem Lacks.of_alike (lacks : h.Lacks pairs key) : h.Lacks pairs key' :=
  fun pair mem => (alike pair.1).trans (lacks pair mem)

theorem lookup_alike :
    ∃ found, h.lookup pairs key = .ok found ∧ h.lookup pairs key' = .ok found := by
  rcases decides.slot with lacks | ⟨before, k, v, after, rfl, lacks, equal⟩
  · exact ⟨.nothing, lacks.lookup, (lacks.of_alike alike).lookup⟩
  · have equal' : h.same k key' = .ok true := (alike k).trans equal
    exact ⟨v, lacks.lookup_first equal, (lacks.of_alike alike).lookup_first equal'⟩

theorem oneSlot : h.OneSlot pairs key key' := by
  intro new
  rcases decides.slot with lacks | ⟨before, k, v, after, rfl, lacks, equal⟩
  · exact .inr ⟨lacks.store new, (lacks.of_alike alike).store new⟩
  · have equal' : h.same k key' = .ok true := (alike k).trans equal
    exact .inl ⟨before, k, v, after, rfl, lacks.store_first equal new,
      (lacks.of_alike alike).store_first equal' new⟩

end Alike

theorem CycleFree.exists_same (free : h.CycleFree) (v w : Value) : ∃ b, h.same v w = .ok b := by
  obtain ⟨t, unfolds⟩ := (free.grounded v).exists_unfolds
  obtain ⟨u, other⟩ := (free.grounded w).exists_unfolds
  exact ⟨_, unfolds.same other⟩

theorem CycleFree.display_cases (free : h.CycleFree) (v : Value) :
    (∃ text, h.display v = .ok text) ∨ h.display v = .error .digits := by
  cases shown : h.display v with
  | ok text => exact .inl ⟨text, rfl⟩
  | error limit =>
      cases display_error shown with
      | nesting _ contains => exact absurd contains (free _)
      | digits => exact .inr rfl

theorem CycleFree.display_ne (free : h.CycleFree) (v : Value) : h.display v ≠ .error .nesting := by
  rcases free.display_cases v with ⟨text, shown⟩ | shown <;> simp [shown]

theorem CycleFree.decides (free : h.CycleFree) (pairs : Pairs) (key : Value) :
    h.Decides pairs key :=
  fun pair _ => free.exists_same pair.1 key

/-- **Equality is equality of what values amount to.** Where no array contains itself, every value
amounts to one tree, and two values are equal exactly if their trees are. So equality is reflexive,
symmetric and transitive, and equal values can stand for each other: they have the same display, or
none because of the same limit of digits; as keys they read the same value from any pairs, and have
one slot for storing. -/
theorem same_unfolded (free : h.CycleFree) :
    (∀ v, ∃! t, h.Unfolds v t) ∧
    (∀ v w t u, h.Unfolds v t → h.Unfolds w u → h.same v w = .ok (decide (t = u))) ∧
    (∀ v, h.same v v = .ok true) ∧
    (∀ v w, h.same v w = h.same w v) ∧
    (∀ u v w, h.same u v = .ok true → h.same v w = .ok true → h.same u w = .ok true) ∧
    ∀ v w, h.same v w = .ok true →
      ((∃ text, h.display v = .ok text ∧ h.display w = .ok text) ∨
        h.display v = .error .digits ∧ h.display w = .error .digits) ∧
      ∀ pairs, (∃ found, h.lookup pairs v = .ok found ∧ h.lookup pairs w = .ok found) ∧
        h.OneSlot pairs v w := by
  have tree : ∀ v, ∃ t, h.Unfolds v t := fun v => (free.grounded v).exists_unfolds
  refine ⟨fun v => ?_, fun v w t u unfolds other => unfolds.same other, fun v => ?_,
    fun v w => ?_, fun u v w first later => ?_, fun v w equal => ?_⟩
  · obtain ⟨t, unfolds⟩ := tree v
    exact ⟨t, unfolds, fun t' also => also.unique unfolds⟩
  · exact sameWithin_self _ v
  · obtain ⟨t, unfolds⟩ := tree v
    obtain ⟨u, other⟩ := tree w
    rw [unfolds.same other, other.same unfolds]
    simp only [eq_comm]
  · exact SameAt.trans first later
  · obtain ⟨t, unfolds⟩ := tree v
    obtain ⟨u, other⟩ := tree w
    obtain rfl : t = u := by
      rw [unfolds.same other] at equal
      exact of_decide_eq_true (Except.ok.inj equal)
    have alike : ∀ x, h.same x w = h.same x v := by
      intro x
      obtain ⟨r, of⟩ := tree x
      rw [of.same other, of.same unfolds]
    refine ⟨?_, fun pairs => ?_⟩
    · have shown : h.display w = h.display v := other.display.trans unfolds.display.symm
      rw [shown]
      exact (free.display_cases v).imp (fun ⟨text, here⟩ => ⟨text, here, here⟩) fun none =>
        ⟨none, none⟩
    · have decides := free.decides pairs v
      exact ⟨lookup_alike alike decides, oneSlot alike decides⟩

/-- Two arrays with the same pairs, and two that have one of these each as a key. -/
def twins : Heap :=
  let f : Function := ⟨⟨1, 1, 5⟩, [], .mk default []⟩
  ⟨#[[(.number 0, .text "x")], [(.number 0, .text "x")], [(.array ⟨0⟩, .function f)],
    [(.array ⟨1⟩, .function f)]]⟩

theorem same_unfolded_twins :
    twins.CycleFree ∧ twins.same (.array ⟨2⟩) (.array ⟨3⟩) = .ok true ∧
      twins.display (.array ⟨3⟩) = .ok "[[0:x]:function]" ∧
      ((∃ text, twins.display (.array ⟨2⟩) = .ok text ∧ twins.display (.array ⟨3⟩) = .ok text) ∨
        twins.display (.array ⟨2⟩) = .error .digits ∧
          twins.display (.array ⟨3⟩) = .error .digits) ∧
      twins.OneSlot [(.number 4, .nothing), (.array ⟨2⟩, .nothing)] (.array ⟨2⟩) (.array ⟨3⟩) := by
  have free : twins.CycleFree := Stratified.cycleFree (by decide)
  have equal : twins.same (.array ⟨2⟩) (.array ⟨3⟩) = .ok true := by decide
  have shown : twins.display (.array ⟨3⟩) = .ok "[[0:x]:function]" := by decide +kernel
  obtain ⟨-, -, -, -, -, stand⟩ := same_unfolded free
  obtain ⟨displays, keys⟩ := stand _ _ equal
  exact ⟨free, equal, shown, displays, (keys _).2⟩

end Heap

end Mini
