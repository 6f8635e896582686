import Formula.Decimal.Reading
import Formula.Json.Number

/-!
# The lexemes of a JSON text

Brackets, braces, commas and colons stand for themselves; literal names, numbers and strings are
values already. Two values in a row are split here and refused when values are built.
-/

set_option autoImplicit false

namespace Formula.Json

inductive Lexeme where
  | openBracket
  | closeBracket
  | openBrace
  | closeBrace
  | comma
  | colon
  | value (value : Json)

def hexDigit? (c : Char) : Option Nat :=
  if c.isDigit then some (c.toNat - '0'.toNat)
  else if 'a' ≤ c ∧ c ≤ 'f' then some (c.toNat - 'a'.toNat + 10)
  else if 'A' ≤ c ∧ c ≤ 'F' then some (c.toNat - 'A'.toNat + 10)
  else none

def hexCode? (a b c d : Char) : Option Nat :=
  match hexDigit? a, hexDigit? b, hexDigit? c, hexDigit? d with
  | some a, some b, some c, some d => some (((a * 16 + b) * 16 + c) * 16 + d)
  | _, _, _, _ => none

def escape? : Char → Option Char
  | '"' => some '"'
  | '\\' => some '\\'
  | '/' => some '/'
  | 'b' => some '\x08'
  | 'f' => some '\x0c'
  | 'n' => some '\n'
  | 'r' => some '\r'
  | 't' => some '\t'
  | _ => none

/-- The codes of a string up to its closing quotation mark, and the characters behind that.
Control characters may only be escaped. -/
def codes? (seen : List Nat) : List Char → Option (List Nat × List Char)
  | [] => none
  | '"' :: rest => some (seen.reverse, rest)
  | '\\' :: 'u' :: a :: b :: c :: d :: rest =>
    match hexCode? a b c d with
    | some code => codes? (code :: seen) rest
    | none => none
  | '\\' :: letter :: rest =>
    match escape? letter with
    | some c => codes? (c.toNat :: seen) rest
    | none => none
  | c :: rest => if c.toNat < 0x20 then none else codes? (c.toNat :: seen) rest

/-- The text of a string's codes, if none of them is half of a surrogate pair without the other;
`seen` holds the characters so far in reverse. -/
def ofCodes? (seen : List Char) : List Nat → Option String
  | [] => some (String.ofList seen.reverse)
  | code :: rest =>
    if 0xd800 ≤ code ∧ code < 0xdc00 then
      match rest with
      | low :: rest =>
        if 0xdc00 ≤ low ∧ low < 0xe000 then
          ofCodes? (Char.ofNat (0x10000 + (code - 0xd800) * 0x400 + (low - 0xdc00)) :: seen) rest
        else none
      | [] => none
    else if 0xdc00 ≤ code ∧ code < 0xe000 then none
    else ofCodes? (Char.ofNat code :: seen) rest

def fraction? : List Char → Option (Option (List Char) × List Char)
  | '.' :: rest =>
    let digits := rest.takeWhile Char.isDigit
    if digits = [] then none else some (some digits, rest.dropWhile Char.isDigit)
  | rest => some (none, rest)

def exponentSign : List Char → Bool × List Char
  | '+' :: rest => (false, rest)
  | '-' :: rest => (true, rest)
  | rest => (false, rest)

def exponentPart? : List Char → Option (Option Int × List Char)
  | [] => some (none, [])
  | c :: rest =>
    if c = 'e' ∨ c = 'E' then
      let (negative, behind) := exponentSign rest
      let digits := behind.takeWhile Char.isDigit
      let size : Int := Nat.ofDigitChars 10 digits 0
      if digits = [] then none
      else some (some (if negative then -size else size), behind.dropWhile Char.isDigit)
    else some (none, c :: rest)

/-- The number at the front of a text, behind its sign. A zero is followed by no digit. -/
def unsigned? (negative : Bool) (cs : List Char) : Option (Json × List Char) :=
  let whole := cs.takeWhile Char.isDigit
  if whole = [] ∨ (whole.head? = some '0' ∧ whole.length ≠ 1) then none
  else
    match fraction? (cs.dropWhile Char.isDigit) with
    | none => none
    | some (fraction, rest) =>
      match exponentPart? rest with
      | none => none
      | some (exponent, rest) => some (number negative whole fraction exponent, rest)

def front? : List Char → Option (Lexeme × List Char)
  | '[' :: rest => some (.openBracket, rest)
  | ']' :: rest => some (.closeBracket, rest)
  | '{' :: rest => some (.openBrace, rest)
  | '}' :: rest => some (.closeBrace, rest)
  | ',' :: rest => some (.comma, rest)
  | ':' :: rest => some (.colon, rest)
  | 'n' :: 'u' :: 'l' :: 'l' :: rest => some (.value .null, rest)
  | 't' :: 'r' :: 'u' :: 'e' :: rest => some (.value (.bool true), rest)
  | 'f' :: 'a' :: 'l' :: 's' :: 'e' :: rest => some (.value (.bool false), rest)
  | '"' :: rest =>
    (codes? [] rest).map fun (codes, rest) => (.value (.text (ofCodes? [] codes)), rest)
  | '-' :: rest => (unsigned? true rest).map fun (value, rest) => (.value value, rest)
  | cs => (unsigned? false cs).map fun (value, rest) => (.value value, rest)

def isSpace (c : Char) : Bool := c == ' ' || c == '\n' || c == '\t' || c == '\r'

/-- The lexemes of a text; `seen` holds those so far in reverse. Each takes at least one
character, so `room` is enough when it is the number of characters. -/
def lexemes? (seen : List Lexeme) : (room : Nat) → List Char → Option (List Lexeme)
  | 0, cs => if cs.all isSpace then some seen.reverse else none
  | room + 1, cs =>
    match cs.dropWhile isSpace with
    | [] => some seen.reverse
    | cs =>
      match front? cs with
      | none => none
      | some (lexeme, rest) => lexemes? (lexeme :: seen) room rest

end Formula.Json
