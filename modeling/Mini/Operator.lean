import Mini.Fault

/-!
# Operators

What operators do to values. Both operands must be of one kind; which kinds an
operator takes depends on the operator alone. Both operands of `and` and `or` have
been evaluated when they are applied. A quotient is rounded toward zero, and a
remainder has the sign of the dividend.
-/

namespace Mini.Operator

/-- The quotient of two numbers: that of their sizes, and negative where their signs differ. The
sign of zero is that of the positive numbers. -/
def quotient (a b : Int) : Int :=
  let size : Nat := a.natAbs / b.natAbs
  if a < 0 ↔ b < 0 then size else -size

/-- What is left of a number without that many times the other one. -/
def remainder (a b : Int) : Int :=
  a - b * quotient a b

/-- An operator between two numbers. -/
def onNumbers (kind : TokenKind) (a b : Int) : Option (Except Cause Value) :=
  match kind with
  | .plus => some (.ok (.number (a + b)))
  | .minus => some (.ok (.number (a - b)))
  | .star => some (.ok (.number (a * b)))
  | .slash => some (if b = 0 then .error .divideByZero else .ok (.number (quotient a b)))
  | .percent => some (if b = 0 then .error .remainderByZero else .ok (.number (remainder a b)))
  | .equal => some (.ok (.boolean (a = b)))
  | .notEqual => some (.ok (.boolean (a ≠ b)))
  | .less => some (.ok (.boolean (a < b)))
  | .greater => some (.ok (.boolean (a > b)))
  | .atMost => some (.ok (.boolean (a ≤ b)))
  | .atLeast => some (.ok (.boolean (a ≥ b)))
  | _ => none

/-- An operator between two strings. -/
def onTexts (kind : TokenKind) (a b : String) : Option Value :=
  match kind with
  | .plus => some (.text (a ++ b))
  | .equal => some (.boolean (a = b))
  | .notEqual => some (.boolean (a ≠ b))
  | _ => none

/-- An operator between two booleans. -/
def onBooleans (kind : TokenKind) (a b : Bool) : Option Value :=
  match kind with
  | .and => some (.boolean (a && b))
  | .or => some (.boolean (a || b))
  | .equal => some (.boolean (a = b))
  | .notEqual => some (.boolean (a ≠ b))
  | _ => none

/-- An operator between two values, if it takes their kind. -/
def onValues (kind : TokenKind) : Value → Value → Option (Except Cause Value)
  | .number a, .number b => onNumbers kind a b
  | .text a, .text b => (onTexts kind a b).map .ok
  | .boolean a, .boolean b => (onBooleans kind a b).map .ok
  | _, _ => none

/-- Applies an operator to two values. -/
def binary (op : Token) (left right : Value) : Except Cause Value :=
  if left.kind ≠ right.kind then .error (.mismatch op left.kind right.kind)
  else (onValues op.kind left right).getD (.error (.notApplicable op left.kind))

/-- Applies an operator to one value. A plus sign does nothing to any value. -/
def unary (op : Token) (operand : Value) : Except Cause Value :=
  match op.kind, operand with
  | .plus, v => .ok v
  | .minus, .number n => .ok (.number (-n))
  | .not, .boolean b => .ok (.boolean (!b))
  | _, v => .error (.notApplicable op v.kind)

end Mini.Operator
