import Mini.Operator

/-!
# What operators are at fault for

An operator is at fault for the kinds of its operands, or for a zero. It looks up no name, opens no
scope and hits no limit.
-/

namespace Mini

/-- The causes that an operator has for a fault. -/
def Cause.OfOperator : Cause → Prop
  | .mismatch .. | .notApplicable .. | .divideByZero | .remainderByZero => True
  | .undefined _ | .noScope | .notArray .. | .notAssignable _ | .notCallable _ | .arity ..
  | .printArity _ | .limit _ => False

namespace Operator

theorem onNumbers_error {kind : TokenKind} {a b : Int} {cause : Cause}
    (failed : onNumbers kind a b = some (.error cause)) : cause.OfOperator := by
  unfold onNumbers at failed
  split at failed
  case h_4 | h_5 =>
    by_cases zero : b = 0
    · rw [if_pos zero] at failed
      cases failed
      trivial
    · rw [if_neg zero] at failed
      cases failed
  all_goals cases failed

theorem binary_error {op : Token} {left right : Value} {cause : Cause}
    (failed : binary op left right = .error cause) : cause.OfOperator := by
  unfold binary at failed
  split at failed
  · cases failed
    trivial
  · cases applied : onValues op.kind left right with
    | none =>
        rw [applied] at failed
        cases failed
        trivial
    | some r =>
        rw [applied] at failed
        obtain rfl : r = .error cause := failed
        unfold onValues at applied
        split at applied
        · exact onNumbers_error applied
        · simp at applied
        · simp at applied
        · cases applied

theorem unary_error {op : Token} {operand : Value} {cause : Cause}
    (failed : unary op operand = .error cause) : cause.OfOperator := by
  unfold unary at failed
  split at failed
  · cases failed
  · cases failed
  · cases failed
  · cases failed
    trivial

/-- No operator hits a limit. -/
theorem binary_ne_limit {op : Token} {left right : Value} {cause : Cause} (limit : Limit)
    (failed : binary op left right = .error cause) : cause ≠ .limit limit := by
  rintro rfl
  exact binary_error failed

theorem unary_ne_limit {op : Token} {operand : Value} {cause : Cause} (limit : Limit)
    (failed : unary op operand = .error cause) : cause ≠ .limit limit := by
  rintro rfl
  exact unary_error failed

end Operator

end Mini
