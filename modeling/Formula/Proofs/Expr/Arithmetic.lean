import Formula.Expr.Evaluation

/-!
# Plain arithmetic

Every operator has a result on any two doubles, and a tree has a value by plain arithmetic, which
refuses nothing. The main statement says where evaluation goes another way: it refuses both zeros
as divisors, and nothing else that an operator is applied to.
-/

set_option autoImplicit false

namespace Formula

def Operator.result : Operator → Float → Float → Float
  | .add, left, right => left + right
  | .sub, left, right => left - right
  | .mul, left, right => left * right
  | .div, left, right => left / right
  | .pow, left, right => left.pow right

def IsZero (value : Float) : Prop := value.toBits = 0 ∨ value.toBits = 0x8000000000000000

instance (value : Float) : Decidable (IsZero value) :=
  inferInstanceAs (Decidable (_ ∨ _))

theorem isZero_iff (value : Float) : IsZero value ↔ Binary64.magnitude value = 0 := by
  have below := value.toBits.toNat_lt
  have zero : value.toBits = 0 ↔ value.toBits.toNat = 0 := UInt64.toNat_inj.symm
  have signed : value.toBits = 0x8000000000000000 ↔ value.toBits.toNat = 0x8000000000000000 :=
    UInt64.toNat_inj.symm
  rw [IsZero, zero, signed, Binary64.magnitude, Binary64.signBit]
  omega

theorem Operator.apply_eq (op : Operator) (left right : Float) :
    op.apply left right =
      if op = .div ∧ IsZero right then .error .divisionByZero else .ok (op.result left right) := by
  cases op with
  | div => simp only [apply, result, isZero_iff, true_and]
  | _ => rfl

/-- The value by plain arithmetic. A variable without a binding counts as zero here. -/
def Expr.plain (env : Environment) : Expr → Float
  | .number value => value
  | .var name => (env.find? name).getD 0
  | .neg operand => -operand.plain env
  | .binary op left right => op.result (left.plain env) (right.plain env)
  | .call function argument => function.apply (argument.plain env)

end Formula
