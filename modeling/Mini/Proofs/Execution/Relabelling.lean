import Mini.Operator
import Mini.Proofs.Syntax.Relabelling
import Mini.Session.Evaluation

/-!
# Values with new labels

A value is made of labels and of what programs compute with. Operators look at the second only, so
they give for relabelled values what they give for the values, relabelled.
-/

namespace Mini.Relabelling

variable (ρ : Relabelling)

theorem isPrint_expr (e : Expr) : (ρ.expr e).isPrint = e.isPrint := by
  cases e with
  | ident id =>
      have same := ρ.name_reserved "print" (by simp [reservedNames]) id.name
      show decide (ρ.name id.name = "print") = decide (id.name = "print")
      rw [decide_eq_decide]
      exact same
  | number | text | func | array | unary | binary | index | select | paren | call => rfl

/-! ## Values -/

def function (f : Function) : Function :=
  ⟨ρ.literal f.id, f.params.map ρ.identifier, ρ.block f.body⟩

/-- A value with new labels. -/
def value : Value → Value
  | .nothing => .nothing
  | .number n => .number n
  | .text s => .text s
  | .boolean b => .boolean b
  | .array ref => .array (ρ.ref ref)
  | .function f => .function (ρ.function f)

def pair (item : Value × Value) : Value × Value :=
  (ρ.value item.1, ρ.value item.2)

def pairs (items : Pairs) : Pairs :=
  items.map ρ.pair

theorem kind_value (v : Value) : (ρ.value v).kind = v.kind := by
  cases v <;> rfl

theorem isTrue_value (v : Value) : (ρ.value v).isTrue = v.isTrue := by
  cases v <;> rfl

/-! ### Operators

They look into numbers, texts and truth values only, and give such values. -/

theorem onValues_value (kind : TokenKind) (a b : Value) :
    Operator.onValues kind (ρ.value a) (ρ.value b) =
      (Operator.onValues kind a b).map (Except.map ρ.value) := by
  cases a with
  | number m =>
      cases b with
      | number n =>
          cases kind with
          | slash | percent =>
              by_cases zero : n = 0 <;>
                simp [Operator.onValues, Operator.onNumbers, value, zero, Except.map]
          | _ => rfl
      | nothing | text | boolean | array | function => rfl
  | text s =>
      cases b with
      | text t => cases kind <;> rfl
      | nothing | number | boolean | array | function => rfl
  | boolean p =>
      cases b with
      | boolean q => cases kind <;> rfl
      | nothing | number | text | array | function => rfl
  | nothing | array | function => cases b <;> rfl

theorem binary_value (op : Token) (a b : Value) :
    Operator.binary op (ρ.value a) (ρ.value b) = (Operator.binary op a b).map ρ.value := by
  rw [Operator.binary, Operator.binary, kind_value, kind_value]
  split
  · rfl
  · rw [onValues_value]
    cases Operator.onValues op.kind a b <;> rfl

theorem unary_value (op : Token) (a : Value) :
    Operator.unary op (ρ.value a) = (Operator.unary op a).map ρ.value := by
  unfold Operator.unary
  cases op.kind <;> cases a <;> rfl

end Mini.Relabelling
