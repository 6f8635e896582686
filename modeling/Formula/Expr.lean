/-!
# Expressions

The tree of a formula: numbers, variables, negation, five operators and three functions of an
angle in radians. The constants of a formula are numbers in its tree.
-/

set_option autoImplicit false

namespace Formula

inductive Operator where
  | add
  | sub
  | mul
  | div
  | pow
  deriving DecidableEq

inductive Trig where
  | sin
  | cos
  | tan
  deriving DecidableEq

inductive Expr where
  | number (value : Float)
  | var (name : String)
  | neg (operand : Expr)
  | binary (op : Operator) (left right : Expr)
  | call (function : Trig) (argument : Expr)
  deriving DecidableEq

def Operator.symbol : Operator → Char
  | .add => '+'
  | .sub => '-'
  | .mul => '*'
  | .div => '/'
  | .pow => '^'

def Trig.name : Trig → String
  | .sin => "sin"
  | .cos => "cos"
  | .tan => "tan"

def Trig.apply : Trig → Float → Float
  | .sin => Float.sin
  | .cos => Float.cos
  | .tan => Float.tan

namespace Expr

/-- The double nearest to the ratio of a circle's circumference to its diameter. -/
def pi : Expr := .number (Float.ofBits 0x400921fb54442d18)

/-- The double nearest to the base of the natural logarithm. -/
def euler : Expr := .number (Float.ofBits 0x4005bf0a8b145769)

/-- Whether two trees have the same shape, the same names and numerically equal numbers: both
zeros are equal, and what is no number equals nothing. -/
def agrees : Expr → Expr → Bool
  | .number value, .number value' => value == value'
  | .var name, .var name' => name == name'
  | .neg operand, .neg operand' => agrees operand operand'
  | .binary op left right, .binary op' left' right' =>
    op == op' && agrees left left' && agrees right right'
  | .call function argument, .call function' argument' =>
    function == function' && agrees argument argument'
  | _, _ => false

end Expr

end Formula
