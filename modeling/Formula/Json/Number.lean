import Formula.Decimal
import Formula.Json

/-!
# JSON numbers

A whole number is kept exactly from -2^63 to 2^64 - 1. Of any other number the significand keeps
digits only as long as they fit 64 bits, and one multiplication or division by a power of ten
gives its value; the result may miss the nearest double by a unit in the last place.
-/

set_option autoImplicit false

namespace Formula.Json

/-- The digits of a number that were kept, as a whole number times a power of ten. -/
structure Kept where
  significand : Nat
  exponent : Int

/-- The next digit of the whole part: behind 64 bits it is dropped and raises the exponent, and
so do all that follow. -/
def Kept.whole (kept : Kept) (digit : Nat) : Kept :=
  if kept.exponent = 0 ∧ kept.significand * 10 + digit < UInt64.size then
    { kept with significand := kept.significand * 10 + digit }
  else { kept with exponent := kept.exponent + 1 }

def Kept.fraction (kept : Kept) : List Nat → Kept
  | [] => kept
  | digit :: rest =>
    if kept.significand * 10 + digit < UInt64.size then
      Kept.fraction ⟨kept.significand * 10 + digit, kept.exponent - 1⟩ rest
    else kept

def tenTo (power : Nat) : Float := Decimal.toFloat false ⟨1, power⟩

/-- The value of the kept digits. A power of ten below 10^-308 is divided out in two steps. -/
def Kept.value (kept : Kept) : Float :=
  let significand := Decimal.toFloat false ⟨kept.significand, 0⟩
  if kept.significand = 0 then significand
  else
    match kept.exponent with
    | .ofNat power =>
      if power ≤ 308 then significand * tenTo power
      else Binary64.ofMagnitude false Binary64.infinite
    | .negSucc power =>
      if power + 1 ≤ 308 then significand / tenTo (power + 1)
      else if power + 1 ≤ 616 then significand / tenTo 308 / tenTo (power + 1 - 308)
      else Decimal.toFloat false ⟨0, 0⟩

def digit (c : Char) : Nat := c.toNat - '0'.toNat

def number (negative : Bool) (whole : List Char) (fraction : Option (List Char))
    (exponent : Option Int) : Json :=
  let kept := (whole.map digit).foldl Kept.whole ⟨0, 0⟩
  let signed (value : Float) : Json := .real (if negative then -value else value)
  match fraction, exponent with
  | none, none =>
    if kept.exponent ≠ 0 then signed kept.value
    else if !negative then .integer kept.significand
    else if 0 < kept.significand ∧ 2 * kept.significand ≤ UInt64.size then
      .integer (-kept.significand)
    else signed kept.value
  | _, _ =>
    let kept := kept.fraction ((fraction.getD []).map digit)
    signed ({ kept with exponent := kept.exponent + exponent.getD 0 } : Kept).value

end Formula.Json
