import Formula.Decimal
import Formula.Proofs.Binary64.Unsigned
import Formula.Proofs.Decimal.Exact

/-!
# The numbers that are too large for a double

The nearest double of a number is infinite exactly from 2^1024 - 2^970 on, which is half a unit of
the last place above the largest double; at this bound itself the even neighbour is the infinite
one. A decimal with a fraction is measured against the bound without any division.
-/

set_option autoImplicit false

namespace Formula

namespace Binary64

/-! ## Rounding to whole numbers -/

/-- Below an even bound no half is rounded up to it unless it is half a unit away. -/
theorem roundDiv_lt_iff (numerator denominator bound : Nat) (even : bound % 2 = 0)
    (positive : 0 < bound) (divides : 0 < denominator) :
    roundDiv numerator denominator < bound ↔
      2 * numerator < (2 * bound - 1) * denominator := by
  obtain ⟨quotient, is⟩ : ∃ quotient, quotient = numerator / denominator := ⟨_, rfl⟩
  have split := Nat.div_add_mod numerator denominator
  have small := Nat.mod_lt numerator divides
  rw [← is] at split
  have rounded : quotient ≤ roundDiv numerator denominator ∧
      roundDiv numerator denominator ≤ quotient + 1 := by
    simp only [roundDiv, ← is]
    split <;> [skip; split] <;> omega
  have twice : (2 * bound - 1) * denominator + denominator = 2 * (denominator * bound) := by
    have whole : 2 * bound - 1 + 1 = 2 * bound := by omega
    calc (2 * bound - 1) * denominator + denominator
        = (2 * bound - 1 + 1) * denominator := (Nat.succ_mul _ _).symm
      _ = 2 * (denominator * bound) := by rw [whole, Nat.mul_assoc, Nat.mul_comm bound]
  rcases Nat.lt_trichotomy (quotient + 1) bound with below | next | above
  · have room : denominator * (quotient + 2) ≤ denominator * bound :=
      Nat.mul_le_mul_left denominator below
    have expand : denominator * (quotient + 2) = denominator * quotient + 2 * denominator := by
      rw [Nat.mul_add, Nat.mul_comm denominator 2]
    constructor <;> intro _ <;> omega
  · -- the quotient is odd, so that a half is rounded up
    have expand : denominator * bound = denominator * quotient + denominator := by
      rw [← next, Nat.mul_succ]
    simp only [roundDiv, ← is]
    split
    · constructor <;> intro _ <;> omega
    · split <;> constructor <;> intro _ <;> omega
  · have room : denominator * bound ≤ denominator * quotient :=
      Nat.mul_le_mul_left denominator (by omega)
    constructor <;> intro _ <;> omega

/-! ## Rounding to doubles -/

/-- A quotient of units below 2^2097 is rounded to a finite double. -/
theorem shifted_lt_infinite (units denominator shift : Nat) (divides : 0 < denominator)
    (few : shift ≤ 2044) (bounded : units < 2 ^ 53 * (denominator * 2 ^ shift)) :
    shift * binade + roundDiv units (denominator * 2 ^ shift) < infinite := by
  have positive : 0 < denominator * 2 ^ shift := Nat.mul_pos divides (Nat.two_pow_pos shift)
  have quotient : roundDiv units (denominator * 2 ^ shift) < 2 ^ 53 + 2 := by
    apply (roundDiv_lt_iff _ _ _ (by decide) (by decide) positive).mpr
    have : 2 * (2 ^ 53 * (denominator * 2 ^ shift)) ≤
        (2 * (2 ^ 53 + 2) - 1) * (denominator * 2 ^ shift) := by
      rw [← Nat.mul_assoc]
      exact Nat.mul_le_mul_right _ (by decide)
    omega
  have scaled : shift * binade ≤ 2044 * binade := Nat.mul_le_mul_right binade few
  have wide : 2044 * binade + (2 ^ 53 + 2) < infinite := by decide
  omega

theorem infinite_le_shifted (units denominator shift : Nat) (divides : 0 < denominator)
    (many : 2046 ≤ shift) (bounded : 2 ^ 52 * (denominator * 2 ^ shift) ≤ units) :
    infinite ≤ shift * binade + roundDiv units (denominator * 2 ^ shift) := by
  have positive : 0 < denominator * 2 ^ shift := Nat.mul_pos divides (Nat.two_pow_pos shift)
  have quotient : 2 ^ 52 ≤ roundDiv units (denominator * 2 ^ shift) := by
    by_contra short
    have few := (roundDiv_lt_iff units _ (2 ^ 52) (by decide) (by decide) positive).mp
      (Nat.lt_of_not_le short)
    have more : (2 * 2 ^ 52 - 1) * (denominator * 2 ^ shift) ≤
        2 * 2 ^ 52 * (denominator * 2 ^ shift) := Nat.mul_le_mul_right _ (by decide)
    rw [Nat.mul_assoc 2] at more
    omega
  have scaled : 2046 * binade ≤ shift * binade := Nat.mul_le_mul_right binade many
  have wide : 2046 * binade + 2 ^ 52 = infinite := by decide
  omega

/-- With a shift of 2045 the significand decides. -/
theorem last_shift_lt_infinite_iff (units denominator exponent : Nat) (divides : 0 < denominator)
    (is : exponent = 2044) :
    (exponent + 1) * binade + roundDiv units (denominator * 2 ^ (exponent + 1)) < infinite ↔
      units < (2 ^ 54 - 1) * 2 ^ exponent * denominator := by
  have positive : 0 < denominator * 2 ^ (exponent + 1) :=
    Nat.mul_pos divides (Nat.two_pow_pos _)
  have rounded := roundDiv_lt_iff units (denominator * 2 ^ (exponent + 1)) (2 ^ 53) (by decide)
    (by decide) positive
  have wide : (exponent + 1) * binade + 2 ^ 53 = infinite := by
    rw [is]
    decide
  have doubled : (2 * 2 ^ 53 - 1) * (denominator * 2 ^ (exponent + 1)) =
      2 * ((2 ^ 54 - 1) * 2 ^ exponent * denominator) := by
    have odd : 2 * 2 ^ 53 - 1 = 2 ^ 54 - 1 := by decide
    rw [odd, Nat.pow_succ 2 exponent]
    generalize 2 ^ 54 - 1 = factor
    ring
  rw [doubled] at rounded
  rw [← wide, Nat.add_lt_add_iff_left, rounded]
  exact Nat.mul_lt_mul_left (by decide)

/-- Up to a level of 2096 the shift leaves room. -/
theorem low_level_lt_infinite (units denominator level exponent : Nat) (divides : 0 < denominator)
    (is : exponent = 2044) (low : level ≤ exponent + 52)
    (upper : units < 2 ^ (level + 1) * denominator) :
    (level - 52) * binade + roundDiv units (denominator * 2 ^ (level - 52)) < infinite ∧
      units < (2 ^ 54 - 1) * 2 ^ exponent * denominator := by
  have width : 2 ^ (level + 1) ≤ 2 ^ 53 * 2 ^ (level - 52) := by
    rw [← Nat.pow_add]
    exact Nat.pow_le_pow_right (by decide) (by omega)
  have height : 2 ^ (level + 1) ≤ (2 ^ 54 - 1) * 2 ^ exponent := by
    calc 2 ^ (level + 1) ≤ 2 ^ (53 + exponent) := Nat.pow_le_pow_right (by decide) (by omega)
      _ = 2 ^ 53 * 2 ^ exponent := Nat.pow_add 2 53 exponent
      _ ≤ (2 ^ 54 - 1) * 2 ^ exponent := Nat.mul_le_mul_right _ (by decide)
  constructor
  · apply shifted_lt_infinite units denominator _ divides (by omega)
    calc units < 2 ^ (level + 1) * denominator := upper
      _ ≤ 2 ^ 53 * 2 ^ (level - 52) * denominator := Nat.mul_le_mul_right _ width
      _ = 2 ^ 53 * (denominator * 2 ^ (level - 52)) := by
        rw [Nat.mul_assoc, Nat.mul_comm denominator]
  · exact Nat.lt_of_lt_of_le upper (Nat.mul_le_mul_right _ height)

theorem high_level_infinite (units denominator level exponent : Nat) (divides : 0 < denominator)
    (is : exponent = 2044) (high : exponent + 54 ≤ level)
    (lower : 2 ^ level * denominator ≤ units) :
    infinite ≤ (level - 52) * binade + roundDiv units (denominator * 2 ^ (level - 52)) ∧
      (2 ^ 54 - 1) * 2 ^ exponent * denominator ≤ units := by
  have width : 2 ^ 52 * 2 ^ (level - 52) = 2 ^ level := by
    rw [← Nat.pow_add]
    congr 1
    omega
  have height : (2 ^ 54 - 1) * 2 ^ exponent ≤ 2 ^ level := by
    calc (2 ^ 54 - 1) * 2 ^ exponent ≤ 2 ^ 54 * 2 ^ exponent :=
          Nat.mul_le_mul_right _ (by decide)
      _ = 2 ^ (54 + exponent) := (Nat.pow_add 2 54 exponent).symm
      _ ≤ 2 ^ level := Nat.pow_le_pow_right (by decide) (by omega)
  constructor
  · apply infinite_le_shifted units denominator _ divides (by omega)
    calc 2 ^ 52 * (denominator * 2 ^ (level - 52))
        = 2 ^ 52 * 2 ^ (level - 52) * denominator := by
          rw [Nat.mul_assoc, Nat.mul_comm denominator]
      _ = 2 ^ level * denominator := by rw [width]
      _ ≤ units := lower
  · exact Nat.le_trans (Nat.mul_le_mul_right _ height) lower

/-- The quotients whose nearest double is finite, in units and with the exponent left open. -/
theorem nearest_lt_infinite_iff (numerator denominator exponent : Nat) (divides : 0 < denominator)
    (is : exponent = 2044) :
    nearest numerator denominator < infinite ↔
      numerator * unitsInOne < (2 ^ 54 - 1) * 2 ^ exponent * denominator := by
  unfold nearest
  generalize numerator * unitsInOne = units
  obtain ⟨level, log⟩ : ∃ level, level = (units / denominator).log2 := ⟨_, rfl⟩
  have power : Nat.pow 2 (level - 52) = 2 ^ (level - 52) := rfl
  simp only [← log, power, min_lt_iff, lt_self_iff_false, false_or]
  have upper : units < 2 ^ (level + 1) * denominator := by
    rw [log]
    exact (Nat.div_lt_iff_lt_mul divides).mp Nat.lt_log2_self
  rcases Nat.lt_trichotomy level (exponent + 53) with below | last | above
  · obtain ⟨finite, few⟩ := low_level_lt_infinite units denominator level exponent divides is
      (Nat.le_of_lt_succ below) upper
    exact ⟨fun _ => few, fun _ => finite⟩
  · have shift : level - 52 = exponent + 1 := by omega
    rw [shift]
    exact last_shift_lt_infinite_iff units denominator exponent divides is
  · have nonzero : units / denominator ≠ 0 := by
      intro zero
      rw [log, zero, Nat.log2_zero] at above
      cases above
    have lower : 2 ^ level * denominator ≤ units := by
      rw [log]
      exact (Nat.le_div_iff_mul_le divides).mp (Nat.log2_self_le nonzero)
    obtain ⟨infinite, many⟩ := high_level_infinite units denominator level exponent divides is above
      lower
    exact ⟨fun finite => absurd infinite (Nat.not_le.mpr finite),
      fun few => absurd many (Nat.not_le.mpr few)⟩

/-- The quotients whose nearest double is finite. -/
theorem nearest_finite_iff (numerator denominator : Nat) (divides : 0 < denominator) :
    nearest numerator denominator < infinite ↔
      numerator < (2 ^ 54 - 1) * 2 ^ 970 * denominator := by
  -- the exponents are named, so that nothing computes the powers
  obtain ⟨low, isLow⟩ : ∃ low, 970 = low := ⟨_, rfl⟩
  obtain ⟨unit, isUnit⟩ : ∃ unit, 1074 = unit := ⟨_, rfl⟩
  have units := nearest_lt_infinite_iff numerator denominator (low + unit) divides (by omega)
  have sorted : (2 ^ 54 - 1) * 2 ^ (low + unit) * denominator =
      (2 ^ 54 - 1) * 2 ^ low * denominator * 2 ^ unit := by
    rw [Nat.pow_add]
    generalize 2 ^ 54 - 1 = factor
    ring
  rw [unitsInOne_eq_pow unit isUnit, sorted] at units
  rw [isLow, units]
  exact Nat.mul_lt_mul_right (Nat.two_pow_pos unit)

/-! ## The double of a magnitude -/

theorem magnitude_ofMagnitude (magnitude : Nat) (bounded : magnitude ≤ infinite) :
    Binary64.magnitude (ofMagnitude false magnitude) = magnitude := by
  rw [Binary64.magnitude, toBits_ofMagnitude magnitude bounded]
  exact Nat.mod_eq_of_lt (Nat.lt_of_le_of_lt bounded (by decide))

theorem isFinite_ofMagnitude (magnitude : Nat) (bounded : magnitude ≤ infinite) :
    isFinite (ofMagnitude false magnitude) = true ↔ magnitude < infinite := by
  rw [isFinite, magnitude_ofMagnitude magnitude bounded, decide_eq_true_eq]

end Binary64

namespace Decimal

open Binary64

/-- A number that is taken to be zero at once is far from being too large. -/
theorem invisible_lt (coefficient places exponent : Nat)
    (invisible : coefficient.log2 + 1 ≤ 3 * places) :
    coefficient < (2 ^ 54 - 1) * 2 ^ exponent * 10 ^ places := by
  calc coefficient < 2 ^ (coefficient.log2 + 1) := Nat.lt_log2_self
    _ ≤ 2 ^ (3 * places) := Nat.pow_le_pow_right (by decide) invisible
    _ = 8 ^ places := Nat.pow_mul 2 3 places
    _ ≤ 10 ^ places := Nat.pow_le_pow_left (by decide) places
    _ ≤ (2 ^ 54 - 1) * 2 ^ exponent * 10 ^ places :=
      Nat.le_mul_of_pos_left _ (Nat.mul_pos (by decide) (Nat.two_pow_pos exponent))

/-- The decimals with `places` digits behind the point whose nearest double is finite. -/
theorem magnitude_lt_infinite_iff (coefficient places : Nat) :
    magnitude ⟨coefficient, -(places : Int)⟩ < infinite ↔
      coefficient < (2 ^ 54 - 1) * 2 ^ 970 * 10 ^ places := by
  obtain ⟨exponent, is⟩ : ∃ exponent, 970 = exponent := ⟨_, rfl⟩
  by_cases zero : coefficient = 0
  · have positive : 0 < (2 ^ 54 - 1) * 2 ^ exponent * 10 ^ places :=
      Nat.mul_pos (Nat.mul_pos (by decide) (Nat.two_pow_pos exponent)) (Nat.pow_pos (by decide))
    have least : magnitude ⟨coefficient, -(places : Int)⟩ < infinite := by
      rw [magnitude, if_pos zero]
      decide
    rw [is, zero]
    rw [zero] at least
    exact ⟨fun _ => positive, fun _ => least⟩
  · rcases Nat.eq_zero_or_pos places with whole | fraction
    · have integer : (⟨coefficient, -(places : Int)⟩ : Decimal) = ⟨coefficient, 0⟩ := by
        rw [whole]
        rfl
      rw [integer, magnitude_natural coefficient zero, nearest_finite_iff _ _ Nat.one_pos, whole,
        Nat.pow_zero]
    · by_cases visible : 3 * places < coefficient.log2 + 1076
      · rw [magnitude_fraction coefficient places zero fraction visible]
        exact nearest_finite_iff _ _ (Nat.pow_pos (by decide))
      · have least : magnitude ⟨coefficient, -(places : Int)⟩ < infinite := by
          have back : (-(-(places : Int))).toNat = places := by omega
          rw [magnitude, if_neg zero, if_neg (by simp only; omega), if_neg (by simp only; omega)]
          simp only [back]
          rw [if_pos (Nat.not_lt.mp visible)]
          decide
        have few := invisible_lt coefficient places exponent (by omega)
        rw [is]
        exact ⟨fun _ => few, fun _ => least⟩

theorem magnitude_le_infinite (number : Decimal) : number.magnitude ≤ infinite := by
  have nearest_le : ∀ numerator denominator, nearest numerator denominator ≤ infinite :=
    fun _ _ => Nat.min_le_left _ _
  unfold magnitude
  dsimp only
  split
  · exact Nat.zero_le _
  · split
    · exact Nat.le_refl _
    · split
      · exact nearest_le _ _
      · split
        · exact Nat.zero_le _
        · exact nearest_le _ _

/-- Exactly the numbers below 2^1024 - 2^970 are read as finite doubles. -/
theorem isFinite_toFloat_iff (coefficient places : Nat) :
    isFinite (toFloat false ⟨coefficient, -(places : Int)⟩) = true ↔
      coefficient < (2 ^ 54 - 1) * 2 ^ 970 * 10 ^ places := by
  rw [toFloat, isFinite_ofMagnitude _ (magnitude_le_infinite _), magnitude_lt_infinite_iff]

end Decimal

end Formula
