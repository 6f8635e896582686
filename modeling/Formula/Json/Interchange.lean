import Formula.Expr
import Formula.Json.Reading
import Formula.Token

/-!
# Expressions, tokens and limits as JSON

A case with data is an object with one field, a case without data is its name. A number that is
not finite is written as nothing and cannot be read back.
-/

set_option autoImplicit false

namespace Formula

def Operator.tag : Operator → String
  | .add => "Add"
  | .sub => "Sub"
  | .mul => "Mul"
  | .div => "Div"
  | .pow => "Pow"

def Operator.ofTag? : String → Option Operator
  | "Add" => some .add
  | "Sub" => some .sub
  | "Mul" => some .mul
  | "Div" => some .div
  | "Pow" => some .pow
  | _ => none

def Trig.tag : Trig → String
  | .sin => "Sin"
  | .cos => "Cos"
  | .tan => "Tan"

def Trig.ofTag? : String → Option Trig
  | "Sin" => some .sin
  | "Cos" => some .cos
  | "Tan" => some .tan
  | _ => none

def Token.Kind.tag : Token.Kind → String
  | .number => "Number"
  | .var => "Var"
  | .plus => "Plus"
  | .minus => "Minus"
  | .times => "Multi"
  | .divide => "Div"
  | .power => "Pow"
  | .leftParen => "LPar"
  | .rightParen => "RPar"
  | .sin => "Sin"
  | .cos => "Cos"
  | .tan => "Tan"
  | .pi => "Pi"
  | .euler => "EConst"
  | .finish => "Eof"

def Token.Kind.ofTag? : String → Option Token.Kind
  | "Number" => some .number
  | "Var" => some .var
  | "Plus" => some .plus
  | "Minus" => some .minus
  | "Multi" => some .times
  | "Div" => some .divide
  | "Pow" => some .power
  | "LPar" => some .leftParen
  | "RPar" => some .rightParen
  | "Sin" => some .sin
  | "Cos" => some .cos
  | "Tan" => some .tan
  | "Pi" => some .pi
  | "EConst" => some .euler
  | "Eof" => some .finish
  | _ => none

def Token.toJson (token : Token) : Json :=
  .record [("kind", .string token.kind.tag), ("text", .string token.text),
    ("position", .integer token.position)]

def Token.ofJson? (json : Json) : Option Token :=
  match json.fields? ["kind", "text", "position"] with
  | some [kind, text, position] =>
    match kind.tag?.bind Token.Kind.ofTag?, text.string?, position.natural? with
    | some kind, some text, some position => some ⟨kind, text, position⟩
    | _, _, _ => none
  | _ => none

def Token.listOfJson? : Json → Option (List Token)
  | .array items => items.mapM Token.ofJson?
  | _ => none

def Expr.limitOfJson? (json : Json) : Option Nat :=
  match json.fields? ["max_depth"] with
  | some [limit] => limit.natural?
  | _ => none

namespace Expr

def toJson : Expr → Json
  | .number value => .record [("Number", if Binary64.isFinite value then .real value else .null)]
  | .var name => .record [("Variable", .string name)]
  | .neg operand => .record [("Unary", .record [("operand", operand.toJson)])]
  | .binary op left right =>
    .record [("Binary", .record [("op", .string op.tag), ("left", left.toJson),
      ("right", right.toJson)])]
  | .call function argument =>
    .record [("Call", .record [("function", .string function.tag), ("arg", argument.toJson)])]

def numberOfJson? : Json → Option Float
  | .integer value => some (Decimal.toFloat (value < 0) ⟨value.natAbs, 0⟩)
  | .real value => if Binary64.isFinite value then some value else none
  | _ => none

/-- The expression that a JSON value stands for, if its objects and arrays nest at most `levels`
deep. What the value holds beside the expression is not counted. -/
def ofJson? : (levels : Nat) → Json → Option Expr
  | 0, _ => none
  | levels + 1, json =>
    match json.case? with
    | some ("Number", data) => (numberOfJson? data).map .number
    | some ("Variable", data) => data.string?.map .var
    | some (name, data) =>
      match levels with
      | 0 => none
      | levels + 1 =>
        match name with
        | "Unary" =>
          match data.fields? ["operand"] with
          | some [operand] => (ofJson? levels operand).map .neg
          | _ => none
        | "Binary" =>
          match data.fields? ["op", "left", "right"] with
          | some [op, left, right] =>
            match op.tag?.bind Operator.ofTag?, ofJson? levels left, ofJson? levels right with
            | some op, some left, some right => some (.binary op left right)
            | _, _, _ => none
          | _ => none
        | "Call" =>
          match data.fields? ["function", "arg"] with
          | some [function, argument] =>
            match function.tag?.bind Trig.ofTag?, ofJson? levels argument with
            | some function, some argument => some (.call function argument)
            | _, _ => none
          | _ => none
        | _ => none
    | none => none

def jsonLevels : Nat := 127

def ofJsonText? (text : String) : Option Expr := (Json.ofText? text).bind (ofJson? jsonLevels)

end Expr

end Formula
