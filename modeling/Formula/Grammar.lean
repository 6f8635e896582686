import Formula.Decimal.Reading
import Formula.Expr
import Formula.Token

/-!
# From tokens to an expression

The grammar, from the loosest to the tightest binding:

    expression = term, then any number of '+' term or '-' term
    term       = unary, then any number of '*' unary or '/' unary
    unary      = '-' unary, or factor
    factor     = primary, or primary '^' unary
    primary    = number, constant, variable, function '(' expression ')', or '(' expression ')'

Sums and products group to the left, powers to the right, and a minus sign applies to a whole
power. The nesting of a formula is limited: each unary takes a level while it is read, and each
further operand of a sum or product takes one until the sum or product ends. Every rule is given
the number of levels that are left; they decrease on the way down, so that reading ends.

Only the tokens before the first end of the text are read. The rules work on what remains of
them; `stop` is the end of the text that stands behind the last one.
-/

set_option autoImplicit false

namespace Formula

inductive Expected where
  | operand
  /-- A number token whose text reads as a number. -/
  | validNumber
  | opening (function : Trig)
  | closing (function : Trig)
  | groupEnd
  deriving DecidableEq

def Expected.describe : Expected → String
  | .operand => "number, variable, function (sin/cos/tan) or '('"
  | .validNumber => "a valid number"
  | .opening function => "'(' after function '" ++ function.name ++ "'"
  | .closing function => "')' to close function '" ++ function.name ++ "'"
  | .groupEnd => "')' to close parenthesis"

inductive SyntaxError where
  | empty
  | unexpected (found : Token) (expected : Expected)
  | trailing (found : Token)
  /-- The levels are used up at `position`. -/
  | tooDeep (position limit : Nat)
  deriving DecidableEq

def SyntaxError.message : SyntaxError → String
  | .empty => "Empty expression"
  | .unexpected found expected =>
    "Unexpected " ++ found.describe ++ " at position " ++ found.position.repr ++ ", expected " ++
      expected.describe
  | .trailing found =>
    "Unexpected tokens after expression, starting with " ++ found.describe ++ " at position " ++
      found.position.repr
  | .tooDeep position limit =>
    "Expression nested deeper than " ++ limit.repr ++ " levels at position " ++ position.repr

def Operator.ofSum? : Token.Kind → Option Operator
  | .plus => some .add
  | .minus => some .sub
  | _ => none

def Operator.ofProduct? : Token.Kind → Option Operator
  | .times => some .mul
  | .divide => some .div
  | _ => none

namespace Grammar

/-- A rule reads a tree at the front of the tokens and leaves the tokens behind it. -/
abbrev Rule := List Token → Except SyntaxError (Expr × List Token)

/-- The token at the front; the end of the text if none is left. -/
def next (stop : Token) : List Token → Token
  | [] => stop
  | token :: _ => token

def after? (kind : Token.Kind) : List Token → Option (List Token)
  | [] => none
  | token :: rest => if token.kind = kind then some rest else none

def operator? (ofKind? : Token.Kind → Option Operator) :
    List Token → Option (Operator × List Token)
  | [] => none
  | token :: rest => (ofKind? token.kind).map fun op => (op, rest)

def enclosed (stop : Token) (expression : Rule) (close : Expected) : Rule := fun tokens =>
  match expression tokens with
  | .error error => .error error
  | .ok (inner, rest) =>
    match after? .rightParen rest with
    | some rest => .ok (inner, rest)
    | none => .error (.unexpected (next stop rest) close)

def called (stop : Token) (expression : Rule) (function : Trig) : Rule := fun tokens =>
  match after? .leftParen tokens with
  | none => .error (.unexpected (next stop tokens) (.opening function))
  | some rest =>
    match enclosed stop expression (.closing function) rest with
    | .error error => .error error
    | .ok (argument, rest) => .ok (.call function argument, rest)

def primary (stop : Token) (expression : Rule) : Rule
  | [] => .error (.unexpected stop .operand)
  | token :: rest =>
    match token.kind with
    | .number =>
      match Decimal.read? token.text with
      | some value => .ok (.number value, rest)
      | none => .error (.unexpected token .validNumber)
    | .pi => .ok (.pi, rest)
    | .euler => .ok (.euler, rest)
    | .var => .ok (.var token.text, rest)
    | .sin => called stop expression .sin rest
    | .cos => called stop expression .cos rest
    | .tan => called stop expression .tan rest
    | .leftParen => enclosed stop expression .groupEnd rest
    | _ => .error (.unexpected token .operand)

def factor (stop : Token) (expression unary : Rule) : Rule := fun tokens =>
  match primary stop expression tokens with
  | .error error => .error error
  | .ok (base, rest) =>
    match after? .power rest with
    | none => .ok (base, rest)
    | some rest =>
      match unary rest with
      | .error error => .error error
      | .ok (exponent, rest) => .ok (.binary .pow base exponent, rest)

def chain (operand : Rule) (more : Expr → Rule) : Rule := fun tokens =>
  match operand tokens with
  | .error error => .error error
  | .ok (left, rest) => more left rest

mutual

/-- A factor behind any number of minus signs. Each minus sign takes a level, and so does the
factor. -/
def unary (stop : Token) (limit : Nat) : (room : Nat) → Rule
  | 0, tokens => .error (.tooDeep (next stop tokens).position limit)
  | room + 1, tokens =>
    match after? .minus tokens with
    | some rest =>
      match unary stop limit room rest with
      | .error error => .error error
      | .ok (operand, rest) => .ok (.neg operand, rest)
    | none =>
      factor stop
        (chain (chain (unary stop limit room) (products stop limit room)) (sums stop limit room))
        (unary stop limit room) tokens

/-- The further factors of a product; each takes a level until the product ends. -/
def products (stop : Token) (limit : Nat) : (room : Nat) → Expr → Rule
  | 0, left, tokens =>
    match operator? Operator.ofProduct? tokens with
    | none => .ok (left, tokens)
    | some (_, rest) => .error (.tooDeep (next stop rest).position limit)
  | room + 1, left, tokens =>
    match operator? Operator.ofProduct? tokens with
    | none => .ok (left, tokens)
    | some (op, rest) =>
      match unary stop limit room rest with
      | .error error => .error error
      | .ok (right, rest) => products stop limit room (.binary op left right) rest

def sums (stop : Token) (limit : Nat) : (room : Nat) → Expr → Rule
  | 0, left, tokens =>
    match operator? Operator.ofSum? tokens with
    | none => .ok (left, tokens)
    | some (_, rest) => .error (.tooDeep (next stop rest).position limit)
  | room + 1, left, tokens =>
    match operator? Operator.ofSum? tokens with
    | none => .ok (left, tokens)
    | some (op, rest) =>
      match chain (unary stop limit room) (products stop limit room) rest with
      | .error error => .error error
      | .ok (right, rest) => sums stop limit room (.binary op left right) rest

end

def term (stop : Token) (limit room : Nat) : Rule :=
  chain (unary stop limit room) (products stop limit room)

def expression (stop : Token) (limit room : Nat) : Rule :=
  chain (term stop limit room) (sums stop limit room)

def body (tokens : List Token) : List Token := tokens.takeWhile fun token => !token.isFinish

/-- The end of the text: the first such token, or one right behind the last token, at an unbounded
place. -/
def finish (tokens : List Token) : Token :=
  match tokens.find? Token.isFinish with
  | some token => token
  | none => Token.atEnd ((tokens.getLast?.map Token.stop).getD 0)

attribute [local simp] unary products sums

theorem unary_zero {stop : Token} {limit : Nat} {tokens : List Token} :
    unary stop limit 0 tokens = .error (.tooDeep (next stop tokens).position limit) := by
  simp

theorem unary_minus {stop : Token} {limit room : Nat} {tokens rest : List Token}
    (minus : after? .minus tokens = some rest) :
    unary stop limit (room + 1) tokens =
      match unary stop limit room rest with
      | .error error => .error error
      | .ok (operand, rest) => .ok (.neg operand, rest) := by
  simp [minus]

theorem unary_factor {stop : Token} {limit room : Nat} {tokens : List Token}
    (noMinus : after? .minus tokens = none) :
    unary stop limit (room + 1) tokens =
      factor stop (expression stop limit room) (unary stop limit room) tokens := by
  simp [noMinus, expression, term]

theorem products_done {stop : Token} {limit room : Nat} {left : Expr} {tokens : List Token}
    (ended : operator? Operator.ofProduct? tokens = none) :
    products stop limit room left tokens = .ok (left, tokens) := by
  cases room <;> simp [ended]

theorem products_next {stop : Token} {limit room : Nat} {left : Expr} {tokens rest : List Token}
    {op : Operator} (found : operator? Operator.ofProduct? tokens = some (op, rest)) :
    products stop limit (room + 1) left tokens =
      match unary stop limit room rest with
      | .error error => .error error
      | .ok (right, rest) => products stop limit room (.binary op left right) rest := by
  simp [found]

theorem products_exhausted {stop : Token} {limit : Nat} {left : Expr} {tokens rest : List Token}
    {op : Operator} (found : operator? Operator.ofProduct? tokens = some (op, rest)) :
    products stop limit 0 left tokens =
      .error (.tooDeep (next stop rest).position limit) := by
  simp [found]

theorem sums_done {stop : Token} {limit room : Nat} {left : Expr} {tokens : List Token}
    (ended : operator? Operator.ofSum? tokens = none) :
    sums stop limit room left tokens = .ok (left, tokens) := by
  cases room <;> simp [ended]

theorem sums_next {stop : Token} {limit room : Nat} {left : Expr} {tokens rest : List Token}
    {op : Operator} (found : operator? Operator.ofSum? tokens = some (op, rest)) :
    sums stop limit (room + 1) left tokens =
      match term stop limit room rest with
      | .error error => .error error
      | .ok (right, rest) => sums stop limit room (.binary op left right) rest := by
  simp [found, term]

theorem sums_exhausted {stop : Token} {limit : Nat} {left : Expr} {tokens rest : List Token}
    {op : Operator} (found : operator? Operator.ofSum? tokens = some (op, rest)) :
    sums stop limit 0 left tokens = .error (.tooDeep (next stop rest).position limit) := by
  simp [found]

end Grammar

namespace Expr

def defaultLimit : Nat := 256

open Grammar in
def ofTokens (limit : Nat) (tokens : List Token) : Except SyntaxError Expr :=
  if body tokens = [] then .error .empty
  else
    match expression (finish tokens) limit limit (body tokens) with
    | .error error => .error error
    | .ok (tree, []) => .ok tree
    | .ok (_, token :: _) => .error (.trailing token)

end Expr

end Formula
