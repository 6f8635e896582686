import Formula.Binary64
import Mathlib

/-!
# The sign of a double

Negation turns the sign bit of a double and leaves the bits below it. So a finite double whose sign
bit is set is the negation of the double with the same magnitude and a clear sign bit.
-/

set_option autoImplicit false

namespace Formula.Binary64

open Float.Model Float.Model.UnpackedFloat

/-- Without its sign bit a pattern stands for the negated number. -/
theorem neg_unpack (bits unsigned : BitVec 64) (signed : 2 ^ 63 ≤ bits.toNat)
    (same : unsigned.toNat = bits.toNat % 2 ^ 63) :
    (UnpackedFloat.unpack Format.binary64 unsigned).neg =
      UnpackedFloat.unpack Format.binary64 bits := by
  have below := bits.isLt
  have mantissa : @unpackMantissa Format.binary64 unsigned =
      @unpackMantissa Format.binary64 bits := by
    rw [unpackMantissa_def, unpackMantissa_def]
    apply BitVec.eq_of_toNat_eq
    simp only [BitVec.extractLsb'_toNat, Nat.shiftRight_zero, same]
    omega
  have exponent : @unpackExponent Format.binary64 unsigned =
      @unpackExponent Format.binary64 bits := by
    rw [unpackExponent_def, unpackExponent_def]
    apply BitVec.eq_of_toNat_eq
    simp only [BitVec.extractLsb'_toNat, Nat.shiftRight_eq_div_pow, same]
    omega
  have clear : @unpackSign Format.binary64 unsigned = 0#1 := by
    rw [unpackSign_def]
    apply BitVec.eq_of_toNat_eq
    simp only [BitVec.extractLsb'_toNat, Nat.shiftRight_eq_div_pow, same, BitVec.toNat_ofNat]
    omega
  have set : @unpackSign Format.binary64 bits = 1#1 := by
    rw [unpackSign_def]
    apply BitVec.eq_of_toNat_eq
    simp only [BitVec.extractLsb'_toNat, Nat.shiftRight_eq_div_pow, BitVec.toNat_ofNat]
    omega
  have positive : Sign.ofBitVec 0#1 = .positive := rfl
  have negative : Sign.ofBitVec 1#1 = .negative := rfl
  unfold UnpackedFloat.unpack
  simp only [mantissa, exponent, clear, set, positive, negative]
  split
  · split <;> rfl
  · split
    · split <;> rfl
    · rfl

/-- Only the patterns from infinity on can fail to be those of doubles. -/
theorem valid_of_finite (bits : BitVec 64) (finite : bits.toNat < infinite) :
    Format.binary64.Valid bits := by
  constructor
  intro all
  rw [unpackExponent_def] at all
  have ones := congrArg BitVec.toNat all
  have below : bits.toNat < 2047 * 2 ^ 52 := finite
  simp only [BitVec.extractLsb'_toNat, Nat.shiftRight_eq_div_pow, BitVec.neg_one_eq_allOnes,
    BitVec.toNat_allOnes] at ones
  omega

/-- A finite double below zero, or the negative zero, is its magnitude with the sign turned. -/
theorem ofMagnitude_of_negative (value : Float) (negative : isNegative value = true)
    (finite : magnitude value < infinite) : ofMagnitude true (magnitude value) = value := by
  have signed : 2 ^ 63 ≤ value.toBits.toBitVec.toNat := of_decide_eq_true negative
  have small : magnitude value < 2 ^ 64 := Nat.lt_trans finite (by decide)
  have bits : (UInt64.ofNat (magnitude value)).toBitVec.toNat = magnitude value := by
    simp only [UInt64.toNat_toBitVec, UInt64.toNat_ofNat', Nat.mod_eq_of_lt small]
  have unsigned := valid_of_finite _ (bits.trans_lt finite)
  have whole := pack_unpack_of_valid value.toModel.valid
  have flipped := neg_unpack value.toBits.toBitVec _ signed bits
  have unfolded : (ofMagnitude true (magnitude value)).toBits.toBitVec =
      UnpackedFloat.pack Format.binary64 (UnpackedFloat.unpack Format.binary64
        (UnpackedFloat.pack Format.binary64 (UnpackedFloat.unpack Format.binary64
          (UInt64.ofNat (magnitude value)).toBitVec))).neg := rfl
  apply Float.toBits_inj.mp
  apply UInt64.toBitVec_inj.mp
  rw [unfolded, pack_unpack_of_valid unsigned, flipped]
  exact whole

end Formula.Binary64
