import Mini.Text.Numeral
import Mini.Value

/-!
# Faults of a run

Why a run stops early. A cause says what went wrong; the rule under which it is
reported and its wording follow from it.
-/

namespace Mini

open Text

/-- The bounds that a run can hit: an array that contains itself is looked through
without end, a number is too long to be written, calls nest too deep. -/
inductive Limit
  | nesting
  | digits
  | calls
  deriving DecidableEq, Repr

/-- The wording of a bound. One wording stands for all runs that nest too deep. A host that meets
the bound may add what it was doing then (` in comparison`, ` while getting the str of an object`);
which of these it adds, or none, depends on how deep its own calls stood, so they are left out. -/
def Limit.message : Limit → String
  | .nesting | .calls => "maximum recursion depth exceeded"
  | .digits =>
      "Exceeds the limit (" ++ natText digitLimit ++
        " digits) for integer string conversion; use sys.set_int_max_str_digits() to increase the limit"

/-- What an array is needed for. -/
inductive ArrayUse
  | assign | index | select
  deriving DecidableEq, Repr

def ArrayUse.rule : ArrayUse → String
  | .assign => "ASSIGN"
  | .index => "INDEX"
  | .select => "SELECT"

/-- Causes of a fault. -/
inductive Cause
  | undefined (name : String)
  | noScope
  | mismatch (op : Token) (left right : Kind)
  | notApplicable (op : Token) (kind : Kind)
  | divideByZero
  | remainderByZero
  | notArray (use : ArrayUse) (found : Kind)
  | notAssignable (kindName : String)
  | notCallable (found : Kind)
  | arity (expected received : Nat)
  | printArity (received : Nat)
  | limit (limit : Limit)
  deriving DecidableEq, Repr

namespace Cause

/-- The rule under which a cause is reported. -/
def rule : Cause → String
  | undefined _ => "IDENT"
  | noScope => "SCOPE"
  | mismatch op _ _ | notApplicable op _ => op.kind.name
  | divideByZero => "SLASH"
  | remainderByZero => "PERCENT"
  | notArray use _ => use.rule
  | notAssignable _ => "ASSIGN"
  | notCallable _ | arity .. => "CALL"
  | printArity _ => "PRINT"
  | limit _ => "internal"

def message : Cause → String
  | undefined name => "Undefined identifier '" ++ name ++ "'"
  | noScope => "No active scope"
  | mismatch op left right =>
      "Type mismatch in binary expression: " ++ left.name ++ " " ++ op.text ++ " " ++ right.name
  | notApplicable op kind => "Invalid operator " ++ op.text ++ " for " ++ kind.name
  | divideByZero => "Integer divide by zero"
  | remainderByZero => "Integer remainder by zero"
  | notArray use found => use.rule ++ " expects array value but got " ++ found.name
  | notAssignable kindName => "Cannot assign to " ++ kindName
  | notCallable found => "Cannot call " ++ found.name ++ " value"
  | arity expected received =>
      "Function expects " ++ natText expected ++ " arguments but received " ++ natText received
  | printArity received => "print expects exactly 1 argument but received " ++ natText received
  | limit l => "Internal interpreter error: " ++ l.message

end Cause

/-- A cause and the place that is blamed for it, if one is known. -/
structure Fault where
  cause : Cause
  location : Option Location
  deriving DecidableEq, Repr

end Mini
