import Mini.Syntax

/-!
# Values

What an expression evaluates to. Numbers are unbounded. Arrays are shared: a value
holds a reference, and the pairs behind it are kept in a heap. A function is its
literal; two of them are the same exactly when the same literal was evaluated in
the same run.
-/

namespace Mini

/-- A reference to an array. -/
structure Ref where
  index : Nat
  deriving DecidableEq, Repr, Inhabited

/-- Which literal a function comes from: the run that met it and the literal's
place in the source. -/
structure FunctionId where
  run : Nat
  line : Int
  column : Int
  deriving DecidableEq, Repr, Inhabited

/-- A function: its identity and its literal. No bindings are captured. -/
structure Function where
  id : FunctionId
  params : List Identifier
  body : Block

/-- The kinds of values. -/
inductive Kind
  | nothing | number | text | boolean | array | function
  deriving DecidableEq, Repr

/-- The name of a kind, as messages give it. The kind of no value is named for
what it usually means. -/
def Kind.name : Kind → String
  | .nothing => "error"
  | .number => "number"
  | .text => "string"
  | .boolean => "boolean"
  | .array => "array"
  | .function => "function"

/-- Values. `nothing` is what a call without a `return` and a missing key give. -/
inductive Value
  | nothing
  | number (n : Int)
  | text (s : String)
  | boolean (b : Bool)
  | array (ref : Ref)
  | function (f : Function)

instance : Inhabited Value :=
  ⟨.nothing⟩

def Value.kind : Value → Kind
  | .nothing => .nothing
  | .number _ => .number
  | .text _ => .text
  | .boolean _ => .boolean
  | .array _ => .array
  | .function _ => .function

/-- Only the boolean true counts as true; anything else is no error, but false. -/
def Value.isTrue : Value → Bool
  | .boolean b => b
  | _ => false

end Mini
