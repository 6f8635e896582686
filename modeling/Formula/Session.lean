import Formula.Calculation
import Formula.Expr.Display
import Formula.Expr.Variables

/-!
# Sessions

A session keeps bindings, a current expression and a limit for reading texts. Each step gives a
reply and the session behind it; a step that fails leaves the session as it was.
-/

set_option autoImplicit false

namespace Formula

structure Session where
  env : Environment
  current : Option Expr
  /-- The levels of a formula; the default if nothing is set. -/
  limit : Option Nat

namespace Session

def start : Session := ⟨∅, none, none⟩

inductive Step where
  | set (name : String) (value : Float)
  | unset (name : String)
  | limit (limit : Option Nat)
  /-- Makes the expression of a text the current one. -/
  | load (text : String)
  | negate
  | call (function : Trig)
  /-- Joins the expression of a text to the current one. -/
  | combine (op : Operator) (text : String)
  /-- Reads the text of the current expression again. -/
  | reparse
  | eval
  /-- Lists the unbound variables of the current expression. -/
  | missing
  | names
  deriving DecidableEq

inductive Reply where
  /-- The binding that a variable had, and the number of bindings now. -/
  | binding (old : Option Float) (size : Nat)
  | limit (limit : Option Nat)
  | tree (tree : Expr)
  /-- The expression that was read again, and whether it agrees with the one before. -/
  | reparsed (same : Bool) (tree : Expr)
  | value (value : Float)
  | missing (names : List String)
  | names (names : List String)
  | failed (failure : Failure) (words : String)
  /-- The step needs a current expression. -/
  | noExpression
  deriving DecidableEq

def read (session : Session) (text : String) : Except Failure Expr :=
  Expr.ofText (session.limit.getD Expr.defaultLimit) text

/-- The reply to a text that cannot be read. It names the stage unless a limit is set. -/
def unreadable (session : Session) (failure : Failure) : Reply :=
  .failed failure (if session.limit.isNone then failure.message else failure.cause)

def become (session : Session) (tree : Expr) : Session := { session with current := some tree }

def withCurrent (session : Session) (step : Expr → Session × Reply) : Session × Reply :=
  match session.current with
  | none => (session, .noExpression)
  | some tree => step tree

def step (session : Session) : Step → Session × Reply
  | .set name value =>
    let env := session.env.insert name value
    ({ session with env }, .binding (session.env.find? name) env.size)
  | .unset name =>
    let env := session.env.erase name
    ({ session with env }, .binding (session.env.find? name) env.size)
  | .limit limit => ({ session with limit }, .limit limit)
  | .load text =>
    match session.read text with
    | .error failure => (session, session.unreadable failure)
    | .ok tree => (session.become tree, .tree tree)
  | .negate => session.withCurrent fun tree => (session.become (.neg tree), .tree (.neg tree))
  | .call function =>
    session.withCurrent fun tree =>
      (session.become (.call function tree), .tree (.call function tree))
  | .combine op text =>
    match session.read text with
    | .error failure => (session, session.unreadable failure)
    | .ok right =>
      session.withCurrent fun left =>
        (session.become (.binary op left right), .tree (.binary op left right))
  | .reparse =>
    session.withCurrent fun tree =>
      match session.read tree.display with
      | .error failure => (session, session.unreadable failure)
      | .ok again => (session.become again, .reparsed (again.agrees tree) again)
  | .eval =>
    session.withCurrent fun tree =>
      match tree.eval session.env with
      | .error error => (session, .failed (.evaluation error) error.message)
      | .ok value => (session, .value value)
  | .missing => session.withCurrent fun tree => (session, .missing (tree.missing session.env))
  | .names => session.withCurrent fun tree => (session, .names tree.names)

def run (session : Session) : List Step → List Reply
  | [] => []
  | first :: rest =>
    let (session, reply) := session.step first
    reply :: session.run rest

end Session

end Formula
