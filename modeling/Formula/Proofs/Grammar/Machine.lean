import Formula.Proofs.Grammar.Derivation

/-!
# Reading step by step

The rules of the grammar call one another. Here every call is an activation on a stack, and all
activations share one cursor into the tokens and one counter of the levels in use. The counter goes
up where a level is taken and down where levels are given back: the rules do not get the room that
is left, as they do in `Formula.Grammar`, but have to restore the counter.

A unary gives its level back when it succeeds and when it fails. A chain gives back the levels of
its operands when it ends; an error leaves it at once, with these levels still counted, and a level
that could not be taken stays counted too. To give back more levels than are counted is an end of
its own, `Config.overdrawn`.

A step changes the cursor or the counter at most once, so that every state of the two is a state of
the machine.
-/

set_option autoImplicit false

namespace Formula.Grammar.Machine

/-- Where the reader stands: behind `cursor` tokens, with `depth` levels in use. -/
structure Mark where
  cursor : Nat
  depth : Nat
  deriving DecidableEq

inductive Chain where
  | product
  | sum
  deriving DecidableEq

namespace Chain

def category : Chain → Category
  | .product => .term
  | .sum => .expression

def operand : Chain → Category
  | .product => .unary
  | .sum => .term

def ofKind? : Chain → Token.Kind → Option Operator
  | .product => Operator.ofProduct?
  | .sum => Operator.ofSum?

end Chain

inductive Control where
  | enter (category : Category)
  /-- A unary has taken its level and looks for a minus sign. -/
  | sign
  /-- A chain has read an operand and looks for an operator; `further` operands stand behind its
  first one. -/
  | loop (chain : Chain) (left : Expr) (further : Nat)
  /-- A chain has read an operator and takes a level for the operand behind it. -/
  | joined (chain : Chain) (left : Expr) (op : Operator) (further : Nat)
  /-- A call has read the name of its function. -/
  | opening (function : Trig)
  /-- A group, or a call, has read what is inside its parentheses. -/
  | close (function : Option Trig) (inner : Expr)
  /-- A factor has read its base and looks for an exponent. -/
  | raise (base : Expr)
  /-- A unary gives its level back. -/
  | settle (result : Except SyntaxError Expr)
  | ended (category : Category) (result : Except SyntaxError Expr)

/-- What an activation waits for while another one runs. -/
inductive Pending where
  /-- A chain waits for the operand that is number `further` behind the first one; `before` stands
  in front of it. -/
  | operand (chain : Chain) (before : Option (Expr × Operator)) (further : Nat)
  | negated
  | unsigned
  | base
  | exponent (raised : Expr)
  | inner (function : Option Trig)

structure Caller where
  pending : Pending
  began : Mark

namespace Pending

def outer : Pending → Category
  | .operand chain _ _ => chain.category
  | .negated | .unsigned => .unary
  | .base | .exponent _ => .factor
  | .inner _ => .primary

def awaited : Pending → Category
  | .operand chain _ _ => chain.operand
  | .negated => .unary
  | .unsigned => .factor
  | .base => .primary
  | .exponent _ => .unary
  | .inner _ => .expression

/-- How an activation goes on with the result that it has waited for. Only a unary does more than
to pass on an error. -/
def resume : Pending → Except SyntaxError Expr → Control
  | .negated, result => .settle (result.map .neg)
  | .unsigned, result => .settle result
  | pending, .error error => .ended pending.outer (.error error)
  | .operand chain none further, .ok tree => .loop chain tree further
  | .operand chain (some (left, op)) further, .ok tree => .loop chain (.binary op left tree) further
  | .base, .ok tree => .raise tree
  | .exponent raised, .ok tree => .ended .factor (.ok (.binary .pow raised tree))
  | .inner function, .ok tree => .close function tree

end Pending

inductive Action where
  | go (control : Control) (now : Mark)
  | call (pending : Pending) (now : Mark)
  | answer (result : Except SyntaxError Expr)
  | overdraw

def enclose : Option Trig → Expr → Expr
  | none, inner => inner
  | some function, inner => .call function inner

def closer : Option Trig → Expected
  | none => .groupEnd
  | some function => .closing function

section Step

variable (tokens : List Token)

/-- The token at the cursor; if there is none, an end of the text right behind the last token, at an
unbounded place as in `Grammar.finish`. -/
def current (cursor : Nat) : Token :=
  tokens[cursor]?.getD (Token.atEnd ((tokens.getLast?.map Token.stop).getD 0))

def advance (now : Mark) : Mark :=
  if now.cursor < tokens.length then ⟨now.cursor + 1, now.depth⟩ else now

def unexpected (category : Category) (expected : Expected) (now : Mark) : Action :=
  .go (.ended category (.error (.unexpected (current tokens now.cursor) expected))) now

def release (levels : Nat) (control : Control) (now : Mark) : Action :=
  if levels ≤ now.depth then .go control ⟨now.cursor, now.depth - levels⟩ else .overdraw

def startPrimary (now : Mark) : Action :=
  match (current tokens now.cursor).kind with
  | .number =>
    match Decimal.read? (current tokens now.cursor).text with
    | some value => .go (.ended .primary (.ok (.number value))) (advance tokens now)
    | none => unexpected tokens .primary .validNumber now
  | .pi => .go (.ended .primary (.ok .pi)) (advance tokens now)
  | .euler => .go (.ended .primary (.ok .euler)) (advance tokens now)
  | .var => .go (.ended .primary (.ok (.var (current tokens now.cursor).text))) (advance tokens now)
  | .sin => .go (.opening .sin) (advance tokens now)
  | .cos => .go (.opening .cos) (advance tokens now)
  | .tan => .go (.opening .tan) (advance tokens now)
  | .leftParen => .call (.inner none) (advance tokens now)
  | _ => unexpected tokens .primary .operand now

variable (limit : Nat)

/-- Takes a level, and fails with it if it is beyond the limit. -/
def descend (category : Category) (next : Mark → Action) (now : Mark) : Action :=
  if limit < now.depth + 1 then
    .go (.ended category (.error (.tooDeep (current tokens now.cursor).position limit)))
      ⟨now.cursor, now.depth + 1⟩
  else next ⟨now.cursor, now.depth + 1⟩

def act (now : Mark) : Control → Action
  | .enter .expression => .call (.operand .sum none 0) now
  | .enter .term => .call (.operand .product none 0) now
  | .enter .unary => descend tokens limit .unary (.go .sign) now
  | .enter .factor => .call .base now
  | .enter .primary => startPrimary tokens now
  | .sign =>
    if (current tokens now.cursor).kind = .minus then .call .negated (advance tokens now)
    else .call .unsigned now
  | .loop chain left further =>
    match chain.ofKind? (current tokens now.cursor).kind with
    | some op => .go (.joined chain left op further) (advance tokens now)
    | none => release further (.ended chain.category (.ok left)) now
  | .joined chain left op further =>
    descend tokens limit chain.category (.call (.operand chain (some (left, op)) (further + 1))) now
  | .opening function =>
    if (current tokens now.cursor).kind = .leftParen then
      .call (.inner (some function)) (advance tokens now)
    else unexpected tokens .primary (.opening function) now
  | .close function inner =>
    if (current tokens now.cursor).kind = .rightParen then
      .go (.ended .primary (.ok (enclose function inner))) (advance tokens now)
    else unexpected tokens .primary (closer function) now
  | .raise base =>
    if (current tokens now.cursor).kind = .power then .call (.exponent base) (advance tokens now)
    else .go (.ended .factor (.ok base)) now
  | .settle result => release 1 (.ended .unary result) now
  | .ended _ result => .answer result

def conclude (now : Mark) : Except SyntaxError Expr → Except SyntaxError Expr
  | .error error => .error error
  | .ok tree =>
    if (current tokens now.cursor).isFinish then .ok tree
    else .error (.trailing (current tokens now.cursor))

inductive Config where
  | running (control : Control) (began now : Mark) (callers : List Caller)
  | done (outcome : Except SyntaxError Expr) (now : Mark)
  | overdrawn (now : Mark)

def perform (began now : Mark) (callers : List Caller) : Action → Config
  | .go control now => .running control began now callers
  | .call pending now =>
    .running (.enter pending.awaited) now now (⟨pending, began⟩ :: callers)
  | .answer result =>
    match callers with
    | [] => .done (conclude tokens now result) now
    | caller :: callers => .running (caller.pending.resume result) caller.began now callers
  | .overdraw => .overdrawn now

def step : Config → Config
  | .running control began now callers =>
    perform tokens began now callers (act tokens limit now control)
  | ended => ended

def start : Config :=
  if (current tokens 0).isFinish then .done (.error .empty) ⟨0, 0⟩
  else .running (.enter .expression) ⟨0, 0⟩ ⟨0, 0⟩ []

def stateAt : (moment : Nat) → Config
  | 0 => start tokens
  | moment + 1 => step tokens limit (stateAt moment)

end Step

namespace Config

def now : Config → Mark
  | .running _ _ now _ => now
  | .done _ now => now
  | .overdrawn now => now

def callers : Config → List Caller
  | .running _ _ _ callers => callers
  | _ => []

end Config

end Formula.Grammar.Machine
