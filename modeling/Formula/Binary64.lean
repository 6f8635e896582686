/-!
# Doubles by their place in the order

The bit patterns below the sign bit number the non-negative doubles in ascending order: 0 is
zero, `infinite` is infinity, and what lies above is no number. Such a pattern is called a
magnitude here. Every finite magnitude is a whole number of units of 2^-1074: its significand
times two to the power of its shift. `nearest` rounds a quotient of natural numbers to a
magnitude, to the even one of two that are equally near.
-/

set_option autoImplicit false

namespace Formula.Binary64

/-- The number of magnitudes from one power of two to the next, which is 2^52. -/
def binade : Nat := 0x10000000000000

def infinite : Nat := 2047 * binade

def notANumber : Nat := infinite + binade / 2

def signBit : Nat := 0x8000000000000000

/-- The number of units in the last place of a finite magnitude, as an exponent of two. -/
def shift (magnitude : Nat) : Nat := magnitude / binade - 1

def significand (magnitude : Nat) : Nat := magnitude - shift magnitude * binade

/-- The number of units in one, which is 2^1074. Nothing is gained by writing out its digits. -/
@[irreducible] def unitsInOne : Nat := Nat.pow 2 1074

/-- The quotient rounded to the nearest whole number, a half to the even one. -/
def roundDiv (numerator denominator : Nat) : Nat :=
  let quotient := numerator / denominator
  let twice := 2 * (numerator % denominator)
  if twice < denominator then quotient
  else if denominator < twice then quotient + 1
  else quotient + quotient % 2

/-- The magnitude nearest to a quotient. A quotient from 2^53 units on is first divided by the
power of two that leaves a significand of 53 bits. A significand rounded up to 2^53 carries into
the next shift by itself, and one beyond the largest finite magnitude is infinite. -/
def nearest (numerator denominator : Nat) : Nat :=
  let units := numerator * unitsInOne
  let shift := (units / denominator).log2 - 52
  min infinite (shift * binade + roundDiv units (denominator * Nat.pow 2 shift))

def magnitude (value : Float) : Nat := value.toBits.toNat % signBit

def isNegative (value : Float) : Bool := signBit ≤ value.toBits.toNat

def isFinite (value : Float) : Bool := magnitude value < infinite

def ofMagnitude (negative : Bool) (magnitude : Nat) : Float :=
  let unsigned := Float.ofBits (UInt64.ofNat magnitude)
  if negative then -unsigned else unsigned

end Formula.Binary64
