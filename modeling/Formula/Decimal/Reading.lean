import Formula.Decimal

/-!
# Reading a double

A number is an optional sign and then the name of infinity or of no number, in any case, or
ASCII digits with at most one point and an optional exponent. It reads as the nearest double.
-/

set_option autoImplicit false

namespace Formula.Decimal

/-- Digits with at most one point, at least one digit in all, and the characters behind them. -/
def coefficient? (cs : List Char) : Option (Decimal × List Char) :=
  let whole := cs.takeWhile Char.isDigit
  match cs.dropWhile Char.isDigit with
  | '.' :: behind =>
    let digits := whole ++ behind.takeWhile Char.isDigit
    if digits = [] then none
    else some (⟨Nat.ofDigitChars 10 digits 0, -(behind.takeWhile Char.isDigit).length⟩,
      behind.dropWhile Char.isDigit)
  | rest => if whole = [] then none else some (⟨Nat.ofDigitChars 10 whole 0, 0⟩, rest)

def natural? (cs : List Char) : Option Nat :=
  if cs ≠ [] ∧ cs.all Char.isDigit then some (Nat.ofDigitChars 10 cs 0) else none

def integer? : List Char → Option Int
  | '+' :: cs => (natural? cs).map Int.ofNat
  | '-' :: cs => (natural? cs).map fun value => -Int.ofNat value
  | cs => (natural? cs).map Int.ofNat

def exponent? : List Char → Option Int
  | [] => some 0
  | 'e' :: cs => integer? cs
  | 'E' :: cs => integer? cs
  | _ => none

def ofChars? (cs : List Char) : Option Decimal :=
  match coefficient? cs with
  | none => none
  | some (number, rest) =>
    (exponent? rest).map fun exponent => ⟨number.coefficient, number.exponent + exponent⟩

def unsigned? (negative : Bool) (cs : List Char) : Option Float :=
  let word := cs.map Char.toLower
  if word = "inf".toList ∨ word = "infinity".toList then
    some (Binary64.ofMagnitude negative Binary64.infinite)
  else if word = "nan".toList then
    some (Binary64.ofMagnitude negative Binary64.notANumber)
  else (ofChars? cs).map (toFloat negative)

def read? (text : String) : Option Float :=
  match text.toList with
  | '+' :: cs => unsigned? false cs
  | '-' :: cs => unsigned? true cs
  | cs => unsigned? false cs

end Formula.Decimal
