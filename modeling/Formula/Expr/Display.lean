import Formula.Decimal.Shortest
import Formula.Expr

/-!
# The text of an expression

A tree is written with a pair of parentheses around each negation and each operator, so that
neither precedence nor the side to which operators group has a say in reading it.
-/

set_option autoImplicit false

namespace Formula.Expr

def display : Expr → String
  | .number value => Decimal.text value
  | .var name => name
  | .neg operand => "(-" ++ operand.display ++ ")"
  | .binary op left right =>
    "(" ++ left.display ++ " " ++ op.symbol.toString ++ " " ++ right.display ++ ")"
  | .call function argument => function.name ++ "(" ++ argument.display ++ ")"

end Formula.Expr
