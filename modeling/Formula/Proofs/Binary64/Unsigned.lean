import Formula.Proofs.Binary64.Sign

/-!
# Doubles without a sign

The bit patterns up to that of infinity are those of the doubles that are numbers and carry no minus
sign, not even as a zero.
-/

set_option autoImplicit false

namespace Formula.Binary64

open Float.Model Float.Model.UnpackedFloat

/-- A number whose sign bit is clear, so that it is not even the negative zero. -/
structure Unsigned (value : Float) : Prop where
  number : value.isNaN = false
  clear : isNegative value = false
  nonnegative : 0 ≤ value

inductive IsPlus : UnpackedFloat → Prop where
  | infinity : IsPlus (.infinity .positive)
  | zero : IsPlus (.zero .positive)
  | finite (mantissa : Nat) (exponent : Int) (positive : 0 < mantissa) :
    IsPlus (.finite .positive mantissa exponent positive)

theorem IsPlus.isNaN {value : UnpackedFloat} (plus : IsPlus value) : value.isNaN = false := by
  cases plus <;> rfl

theorem IsPlus.nonnegative {value : UnpackedFloat} (plus : IsPlus value) :
    (UnpackedFloat.zero .positive).le value = true := by
  cases plus <;> rfl

theorem isPlus_unpack (bits : BitVec 64) (bounded : bits.toNat ≤ infinite) :
    IsPlus (UnpackedFloat.unpack Format.binary64 bits) := by
  have below : bits.toNat ≤ 2047 * 2 ^ 52 := bounded
  have clear : @unpackSign Format.binary64 bits = 0#1 := by
    rw [unpackSign_def]
    apply BitVec.eq_of_toNat_eq
    simp only [BitVec.extractLsb'_toNat, Nat.shiftRight_eq_div_pow, BitVec.toNat_ofNat]
    omega
  have positive : Sign.ofBitVec 0#1 = .positive := rfl
  unfold UnpackedFloat.unpack
  simp only [clear, positive]
  split
  · rename_i all
    rw [unpackExponent_def] at all
    have ones := congrArg BitVec.toNat all
    simp only [BitVec.extractLsb'_toNat, Nat.shiftRight_eq_div_pow, BitVec.neg_one_eq_allOnes,
      BitVec.toNat_allOnes] at ones
    split
    · exact .infinity
    · -- with all bits of the exponent set, the bound leaves none for the mantissa
      rename_i nonzero
      apply absurd _ nonzero
      rw [unpackMantissa_def]
      apply BitVec.eq_of_toNat_eq
      simp only [BitVec.extractLsb'_toNat, Nat.shiftRight_zero, BitVec.toNat_ofNat]
      omega
  · split
    · split
      · exact .zero
      · exact .finite ..
    · exact .finite ..

theorem unsigned_of_bounded (value : Float) (bounded : value.toBits.toNat ≤ infinite) :
    Unsigned value where
  number := (isPlus_unpack value.toBits.toBitVec bounded).isNaN
  clear := by
    have below : value.toBits.toNat < signBit := Nat.lt_of_le_of_lt bounded (by decide)
    exact decide_eq_false (Nat.not_le.mpr below)
  nonnegative := by
    have zero : (0 : Float).toModel.unpack = .zero .positive := rfl
    show decide ((0 : Float).toModel.unpack.le value.toModel.unpack = true) = true
    rw [zero]
    exact decide_eq_true (isPlus_unpack value.toBits.toBitVec bounded).nonnegative

/-- A magnitude is the pattern of its double. -/
theorem toBits_ofMagnitude (magnitude : Nat) (bounded : magnitude ≤ infinite) :
    (ofMagnitude false magnitude).toBits.toNat = magnitude := by
  rcases Nat.lt_or_eq_of_le bounded with finite | rfl
  · have small : magnitude < 2 ^ 64 := Nat.lt_trans finite (by decide)
    have bits : (UInt64.ofNat magnitude).toBitVec.toNat = magnitude := by
      simp only [UInt64.toNat_toBitVec, UInt64.toNat_ofNat', Nat.mod_eq_of_lt small]
    have unfolded : (ofMagnitude false magnitude).toBits.toBitVec =
        UnpackedFloat.pack Format.binary64
          (UnpackedFloat.unpack Format.binary64 (UInt64.ofNat magnitude).toBitVec) := rfl
    rw [← UInt64.toNat_toBitVec, unfolded,
      pack_unpack_of_valid (valid_of_finite _ (bits.trans_lt finite)), bits]
  · decide

theorem unsigned_ofMagnitude (magnitude : Nat) (bounded : magnitude ≤ infinite) :
    Unsigned (ofMagnitude false magnitude) := by
  apply unsigned_of_bounded
  rw [toBits_ofMagnitude magnitude bounded]
  exact bounded

end Formula.Binary64
