import Formula.Binary64
import Formula.Environment
import Formula.Expr

/-!
# The value of an expression

Operands are evaluated from left to right, and the first fault ends the evaluation. Beside the
value stands the sequence of bindings that were read on the way.
-/

set_option autoImplicit false

namespace Formula

inductive EvaluationError where
  | undefinedVariable (name : String)
  | divisionByZero
  deriving DecidableEq

def EvaluationError.message : EvaluationError → String
  | .undefinedVariable name => "Undefined variable: '" ++ name ++ "'"
  | .divisionByZero => "Division by zero"

/-- Applies an operator to two values. Both zeros are refused as divisors. -/
def Operator.apply (left right : Float) : Operator → Except EvaluationError Float
  | .add => .ok (left + right)
  | .sub => .ok (left - right)
  | .mul => .ok (left * right)
  | .div => if Binary64.magnitude right = 0 then .error .divisionByZero else .ok (left / right)
  | .pow => .ok (left.pow right)

namespace Expr

def eval (env : Environment) : Expr → Except EvaluationError Float
  | .number value => .ok value
  | .var name =>
    match env.find? name with
    | some value => .ok value
    | none => .error (.undefinedVariable name)
  | .neg operand =>
    match operand.eval env with
    | .ok value => .ok (-value)
    | .error error => .error error
  | .binary op left right =>
    match left.eval env with
    | .error error => .error error
    | .ok leftValue =>
      match right.eval env with
      | .error error => .error error
      | .ok rightValue => op.apply leftValue rightValue
  | .call function argument =>
    match argument.eval env with
    | .ok value => .ok (function.apply value)
    | .error error => .error error

/-- The bindings that evaluation reads, in order. The right operand is not reached when the left
one has no value. -/
def reads (env : Environment) : Expr → List (String × Float)
  | .number _ => []
  | .var name =>
    match env.find? name with
    | some value => [(name, value)]
    | none => []
  | .neg operand => operand.reads env
  | .binary _ left right =>
    match left.eval env with
    | .error _ => left.reads env
    | .ok _ => left.reads env ++ right.reads env
  | .call _ argument => argument.reads env

end Expr

end Formula
