import Mini.Heap.Display
import Mini.OrderedMap

/-!
# Scopes

Bindings of names, in scopes that are kept in one array and linked by the index of
the parent. A new scope always takes the current one as its parent, for blocks and
for calls alike. So a name that a function body does not bind itself means what it
means where the function is called.
-/

namespace Mini

/-- One scope: its parent's index and its bindings. -/
structure Scope where
  parent : Option Nat
  bindings : OrderedMap String Value
  deriving Inhabited

/-- All open scopes and the index of the current one. -/
structure Scopes where
  scopes : Array Scope
  current : Option Nat
  deriving Inhabited

namespace Scopes

/-- No scopes. -/
def empty : Scopes :=
  ⟨#[], none⟩

/-- Opens a scope inside the current one. -/
def enter (s : Scopes) : Scopes :=
  ⟨s.scopes.push ⟨s.current, []⟩, some s.scopes.size⟩

/-- Closes the newest scope and goes back to its parent. -/
def leave (s : Scopes) : Scopes :=
  match s.current with
  | none => s
  | some _ => ⟨s.scopes.pop, s.scopes.back?.bind Scope.parent⟩

/-- The first scope that binds a name on the way up from `handle`, within a number
of steps. -/
def findFrom (s : Scopes) (name : String) : Nat → Option Nat → Option Nat
  | 0, _ => none
  | _ + 1, none => none
  | steps + 1, some handle =>
      match s.scopes[handle]? with
      | none => none
      | some scope =>
          if (scope.bindings.find? name).isSome then some handle
          else findFrom s name steps scope.parent

/-- The innermost scope that binds a name. No way up is longer than the number of
scopes. -/
def lookup (s : Scopes) (name : String) : Option Nat :=
  s.findFrom name s.scopes.size s.current

/-- The bindings of a scope. -/
def bindings (s : Scopes) (handle : Nat) : OrderedMap String Value :=
  (s.scopes[handle]?.map Scope.bindings).getD []

/-- The value of a name. -/
def get (s : Scopes) (name : String) : Except Cause Value :=
  match (s.lookup name).bind fun handle => (s.bindings handle).find? name with
  | some value => .ok value
  | none => .error (.undefined name)

/-- Puts a binding into a scope. -/
def putIn (s : Scopes) (handle : Nat) (name : String) (value : Value) : Scopes :=
  { s with scopes := s.scopes.modify handle fun scope =>
      { scope with bindings := scope.bindings.put name value } }

/-- Binds a name in the current scope. -/
def declare (s : Scopes) (name : String) (value : Value) : Except Cause Scopes :=
  match s.current with
  | none => .error .noScope
  | some handle => .ok (s.putIn handle name value)

/-- Gives a name a new value where it is bound, or binds it in the current scope. -/
def bind (s : Scopes) (name : String) (value : Value) : Except Cause Scopes :=
  match s.lookup name with
  | some handle => .ok (s.putIn handle name value)
  | none => s.declare name value

/-! ## Snapshots -/

/-- A text cut so that it stays within eighty characters. -/
def cut (text : String) : String :=
  if 80 < text.length then String.ofList (text.toList.take 77) ++ "..." else text

/-- A value in a snapshot: its kind and its display, cut. -/
def snapshotText (h : Heap) (v : Value) : Except Limit String := do
  let text ← h.display v
  return v.kind.name ++ ":" ++ cut text

/-- The texts of bindings, in order. -/
def snapshotOf (h : Heap) : OrderedMap String Value → Except Limit (OrderedMap String String)
  | [] => .ok []
  | (name, value) :: rest => do
      let text ← snapshotText h value
      return (name, text) :: (← snapshotOf h rest)

/-- The texts of the current scope's bindings. -/
def snapshot (s : Scopes) (h : Heap) : Except Limit (OrderedMap String String) :=
  match s.current with
  | none => .ok []
  | some handle => snapshotOf h (s.bindings handle)

end Scopes

end Mini
