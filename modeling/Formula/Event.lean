import Formula.Calculation
import Formula.Expr.Display

/-!
# The events of a calculation

Beside the result of a calculation stands the list of what happened on the way to it, up to the
failing point: the tokens that were completed, the stages that succeeded and the bindings that
were read.
-/

set_option autoImplicit false

namespace Formula

inductive Event where
  | lexed (token : Token)
  | tokenized (characters tokens : Nat)
  | parsed (tree : Expr)
  /-- The binding of a variable was read. -/
  | read (name : String) (value : Float)
  | evaluated (tree : Expr) (value : Float)
  deriving DecidableEq

/-- Whether an event belongs to the finer level of a log: single tokens and variables do, the
completion of a stage does not. -/
def Event.isFine : Event → Bool
  | .lexed _ | .read _ _ => true
  | .tokenized _ _ | .parsed _ | .evaluated _ _ => false

def Event.message : Event → String
  | .lexed token => "lexed " ++ token.dump
  | .tokenized characters tokens =>
    "tokenized " ++ characters.repr ++ " chars into " ++ tokens.repr ++ " tokens"
  | .parsed tree => "parsed " ++ tree.display
  | .read name value => name ++ " = " ++ Decimal.text value
  | .evaluated tree value => tree.display ++ " => " ++ Decimal.text value

def Expr.events (env : Environment) (tree : Expr) : List Event :=
  (tree.reads env).map (fun binding => .read binding.1 binding.2) ++
    match tree.eval env with
    | .ok value => [.evaluated tree value]
    | .error _ => []

def Token.events (env : Environment) (tokens : List Token) : List Event :=
  match Expr.ofTokens Expr.defaultLimit tokens with
  | .error _ => []
  | .ok tree => .parsed tree :: tree.events env

def events (env : Environment) (text : String) : List Event :=
  let scan := Token.scan 0 text.toList
  scan.tokens.map .lexed ++
    match scan.failure with
    | some _ => []
    | none => .tokenized text.length scan.tokens.length :: Token.events env scan.tokens

end Formula
