import Formula.Expr.Evaluation
import Formula.Grammar
import Formula.Token.Scan

/-!
# Calculating the value of a text

A text is split into tokens, the tokens are read as an expression, and the expression is
evaluated; the first stage that fails ends the calculation.
-/

set_option autoImplicit false

namespace Formula

inductive Failure where
  | lexical (error : LexicalError)
  | syntactic (error : SyntaxError)
  | evaluation (error : EvaluationError)
  deriving DecidableEq

def Failure.cause : Failure → String
  | .lexical error => error.message
  | .syntactic error => error.message
  | .evaluation error => error.message

def Failure.stage : Failure → String
  | .lexical _ => "Lexical error"
  | .syntactic _ => "Syntax error"
  | .evaluation _ => "Evaluation error"

def Failure.message (failure : Failure) : String := failure.stage ++ ": " ++ failure.cause

def Expr.ofText (limit : Nat) (text : String) : Except Failure Expr :=
  match tokenize text with
  | .error error => .error (.lexical error)
  | .ok tokens =>
    match Expr.ofTokens limit tokens with
    | .error error => .error (.syntactic error)
    | .ok tree => .ok tree

def calculate (env : Environment) (text : String) : Except Failure Float :=
  match Expr.ofText Expr.defaultLimit text with
  | .error failure => .error failure
  | .ok tree =>
    match tree.eval env with
    | .error error => .error (.evaluation error)
    | .ok value => .ok value

end Formula
