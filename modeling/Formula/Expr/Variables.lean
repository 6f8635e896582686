import Formula.Expr.Evaluation

/-!
# The variables of an expression

Names are listed once each, in the order of their code points.
-/

set_option autoImplicit false

namespace Formula.Expr

def occurrences : Expr → List String
  | .number _ => []
  | .var name => [name]
  | .neg operand => operand.occurrences
  | .binary _ left right => left.occurrences ++ right.occurrences
  | .call _ argument => argument.occurrences

/-- Puts a name into an ascending list that has no name twice. -/
def insertName (name : String) : List String → List String
  | [] => [name]
  | head :: rest =>
    if name < head then name :: head :: rest
    else if name = head then head :: rest
    else head :: insertName name rest

def names (tree : Expr) : List String := tree.occurrences.foldr insertName []

def missing (env : Environment) (tree : Expr) : List String :=
  tree.names.filter fun name => !env.binds name

end Formula.Expr
