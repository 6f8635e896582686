/-!
# Tokens

A token is a classified piece of the text of a formula, together with the place where it starts.
The end of the text is a token too, so that an error can point behind the last character.

Places count characters from 0 and are natural numbers without an upper bound. A text has fewer than
2^64 characters, so for its tokens this is the same as counting with 64 bits; for tokens that are
put together by hand it differs where a token starts so close below 2^64 that it ends beyond.
-/

set_option autoImplicit false

namespace Formula

inductive Token.Kind where
  | number
  /-- A name that is no keyword. -/
  | var
  | plus
  | minus
  | times
  | divide
  | power
  | leftParen
  | rightParen
  | sin
  | cos
  | tan
  /-- The keyword for the ratio of a circle's circumference to its diameter. -/
  | pi
  /-- The keyword for the base of the natural logarithm. -/
  | euler
  | finish
  deriving DecidableEq

structure Token where
  kind : Token.Kind
  /-- The characters of the token; none for the end of the text. -/
  text : String
  /-- The number of characters before the token, without an upper bound. -/
  position : Nat
  deriving DecidableEq

namespace Token

def Kind.label : Kind → String
  | .number => "NUMBER"
  | .var => "VAR"
  | .plus => "PLUS"
  | .minus => "MINUS"
  | .times => "MULTI"
  | .divide => "DIV"
  | .power => "POW"
  | .leftParen => "L_PAR"
  | .rightParen => "R_PAR"
  | .sin => "SIN"
  | .cos => "COS"
  | .tan => "TAN"
  | .pi => "PI"
  | .euler => "E_CONST"
  | .finish => "EOF"

def Kind.describe : Kind → String
  | .number => "number"
  | .var => "variable"
  | .plus => "'+'"
  | .minus => "'-'"
  | .times => "'*'"
  | .divide => "'/'"
  | .power => "'^'"
  | .leftParen => "'('"
  | .rightParen => "')'"
  | .sin => "'sin'"
  | .cos => "'cos'"
  | .tan => "'tan'"
  | .pi => "'pi'"
  | .euler => "'e'"
  | .finish => "end of input"

def Kind.ofSymbol? : Char → Option Kind
  | '+' => some .plus
  | '-' => some .minus
  | '*' => some .times
  | '/' => some .divide
  | '^' => some .power
  | '(' => some .leftParen
  | ')' => some .rightParen
  | _ => none

theorem kind_of_symbol (c : Char) (kind : Kind) (symbol : Kind.ofSymbol? c = some kind) :
    kind ∉ [Kind.number, .var, .finish] := by
  unfold Kind.ofSymbol? at symbol
  split at symbol <;> cases symbol <;> decide

/-- The kind of a name: five lower-case names are keywords, every other one is a variable. -/
def Kind.ofName : String → Kind
  | "sin" => .sin
  | "cos" => .cos
  | "tan" => .tan
  | "pi" => .pi
  | "e" => .euler
  | _ => .var

def keywords : List String := ["sin", "cos", "tan", "pi", "e"]

theorem Kind.ofName_eq_var_iff (name : String) : ofName name = .var ↔ name ∉ keywords := by
  constructor
  · intro named keyword
    simp only [keywords, List.mem_cons, List.not_mem_nil, or_false] at keyword
    rcases keyword with rfl | rfl | rfl | rfl | rfl <;> cases named
  · intro free
    unfold ofName
    split <;> first | rfl | exact absurd (by decide) free

theorem Kind.ofName_mem (name : String) :
    ofName name ∈ [Kind.sin, .cos, .tan, .pi, .euler, .var] := by
  unfold ofName
  split <;> decide

def atEnd (position : Nat) : Token := ⟨.finish, "", position⟩

def isFinish (token : Token) : Bool := token.kind == .finish

def describe (token : Token) : String :=
  match token.kind with
  | .number | .var => token.kind.describe ++ " '" ++ token.text ++ "'"
  | kind => kind.describe

def dump (token : Token) : String :=
  "Token: " ++ token.kind.label ++ ", Value: " ++ token.text ++
    ", Position: " ++ token.position.repr

/-- The number of characters up to the end of the token; the sum does not wrap around at 2^64. -/
def stop (token : Token) : Nat := token.position + token.text.length

end Token

end Formula
