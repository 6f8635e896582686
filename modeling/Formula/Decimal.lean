import Formula.Binary64

/-!
# Decimal numbers

A non-negative decimal number is a coefficient times a power of ten. It has a nearest double and
a positional text, which never uses an exponent.
-/

set_option autoImplicit false

namespace Formula

/-- The number `coefficient * 10 ^ exponent`. -/
structure Decimal where
  coefficient : Nat
  exponent : Int
  deriving DecidableEq

namespace Decimal

/-- The magnitude of the nearest double. Numbers from 10^309 on are infinite, and those below
2^-1075 are zero, before any power of ten is computed: a coefficient is less than two to the power
of `log2 + 1`, and a power of ten is at least as many powers of eight. -/
def magnitude (number : Decimal) : Nat :=
  if number.coefficient = 0 then 0
  else if 309 ≤ number.exponent then Binary64.infinite
  else if 0 ≤ number.exponent then
    Binary64.nearest (number.coefficient * Nat.pow 10 number.exponent.toNat) 1
  else
    let places := (-number.exponent).toNat
    if number.coefficient.log2 + 1076 ≤ 3 * places then 0
    else Binary64.nearest number.coefficient (Nat.pow 10 places)

def toFloat (negative : Bool) (number : Decimal) : Float :=
  Binary64.ofMagnitude negative number.magnitude

/-- The digits with a point before the last `places` of them, and zeros where digits lack. -/
def withPoint (digits : List Char) (places : Nat) : List Char :=
  if places < digits.length then
    digits.take (digits.length - places) ++ '.' :: digits.drop (digits.length - places)
  else '0' :: '.' :: (List.replicate (places - digits.length) '0' ++ digits)

def positional (number : Decimal) : List Char :=
  let digits := Nat.toDigits 10 number.coefficient
  if 0 ≤ number.exponent then digits ++ List.replicate number.exponent.toNat '0'
  else withPoint digits (-number.exponent).toNat

end Decimal

end Formula
