import Formula.Decimal.Shortest
import Mathlib.Tactic.Ring

/-!
# Decimals that round to a given magnitude

Rounding leaves a number alone that is a double already. So the exact decimal of a magnitude has
that magnitude, and the search for the shortest one always ends with a decimal that reads back.
-/

set_option autoImplicit false

namespace Formula

namespace Binary64

theorem roundDiv_mul (quotient denominator : Nat) (positive : 0 < denominator) :
    roundDiv (quotient * denominator) denominator = quotient := by
  unfold roundDiv
  simp only [Nat.mul_mod_left, Nat.mul_div_cancel _ positive]
  rw [if_pos (by omega)]

theorem shift_mul_add_significand (magnitude : Nat) :
    shift magnitude * binade + significand magnitude = magnitude := by
  have ratio := Nat.div_mul_le_self magnitude binade
  have fewer : shift magnitude * binade ≤ magnitude / binade * binade :=
    Nat.mul_le_mul_right binade (Nat.sub_le _ 1)
  unfold significand
  omega

theorem significand_pos (magnitude : Nat) (positive : 0 < magnitude) :
    0 < significand magnitude := by
  simp only [significand, shift, binade]
  omega

/-- Only the magnitudes of the first binade, which have no shift, lack the leading bit. -/
theorem log2_significand (magnitude : Nat) (positive : 0 < magnitude) :
    (significand magnitude).log2 ≤ 52 ∧
      (0 < shift magnitude → (significand magnitude).log2 = 52) := by
  have nonzero : significand magnitude ≠ 0 := Nat.ne_of_gt (significand_pos magnitude positive)
  have wide : (2 : Nat) ^ 52 = binade := rfl
  have next : (2 : Nat) ^ (52 + 1) = 2 * binade := rfl
  have below : significand magnitude < 2 * binade := by
    simp only [significand, shift, binade]
    omega
  constructor
  · have small : (significand magnitude).log2 < 53 := (Nat.log2_lt nonzero).mpr (by omega)
    omega
  · intro shifted
    have full : binade ≤ significand magnitude := by
      simp only [significand, shift, binade] at shifted ⊢
      omega
    apply (Nat.log2_eq_iff nonzero).mpr
    omega

theorem log2_mul_two_pow (value : Nat) (positive : 0 < value) (places : Nat) :
    (value * 2 ^ places).log2 = value.log2 + places := by
  have lower := Nat.log2_self_le (Nat.ne_of_gt positive)
  have upper := Nat.lt_log2_self (n := value)
  have power : 0 < 2 ^ places := Nat.two_pow_pos places
  apply (Nat.log2_eq_iff (Nat.ne_of_gt (Nat.mul_pos positive power))).mpr
  constructor
  · rw [pow_add]
    exact Nat.mul_le_mul_right _ lower
  · rw [show value.log2 + places + 1 = value.log2 + 1 + places by omega, pow_add]
    exact Nat.mul_lt_mul_of_pos_right upper power

/-- The number of units in one, with an exponent that nothing tries to compute with. -/
theorem unitsInOne_eq_pow (places : Nat) (all : 1074 = places) : unitsInOne = 2 ^ places := by
  unfold unitsInOne
  rw [all]
  rfl

/-- The shift that `nearest` chooses for a double is the double's own. -/
theorem shift_of_units (magnitude : Nat) (positive : 0 < magnitude) :
    (significand magnitude * 2 ^ shift magnitude).log2 - 52 = shift magnitude := by
  obtain ⟨narrow, full⟩ := log2_significand magnitude positive
  rw [log2_mul_two_pow _ (significand_pos magnitude positive)]
  rcases Nat.eq_zero_or_pos (shift magnitude) with unshifted | shifted
  · omega
  · have := full shifted
    omega

theorem nearest_eq_of_units (magnitude numerator denominator : Nat) (positive : 0 < magnitude)
    (finite : magnitude < infinite) (divides : 0 < denominator)
    (units : numerator * unitsInOne =
      significand magnitude * 2 ^ shift magnitude * denominator) :
    nearest numerator denominator = magnitude := by
  have rounded := roundDiv_mul (significand magnitude) (denominator * 2 ^ shift magnitude)
    (Nat.mul_pos divides (Nat.two_pow_pos _))
  have sorted : significand magnitude * (denominator * 2 ^ shift magnitude) =
      significand magnitude * 2 ^ shift magnitude * denominator := by ring
  rw [sorted] at rounded
  have power : Nat.pow 2 (shift magnitude) = 2 ^ shift magnitude := rfl
  simp only [nearest, units, Nat.mul_div_cancel _ divides, shift_of_units magnitude positive,
    power, rounded, shift_mul_add_significand]
  exact Nat.min_eq_right (Nat.le_of_lt finite)

end Binary64

namespace Decimal

open Binary64

theorem magnitude_natural (coefficient : Nat) (nonzero : coefficient ≠ 0) :
    magnitude ⟨coefficient, 0⟩ = nearest coefficient 1 := by
  simp [magnitude, nonzero]

theorem magnitude_fraction (coefficient places : Nat) (nonzero : coefficient ≠ 0)
    (fraction : 0 < places) (visible : 3 * places < coefficient.log2 + 1076) :
    magnitude ⟨coefficient, -(places : Int)⟩ = nearest coefficient (10 ^ places) := by
  have back : (-(-(places : Int))).toNat = places := by omega
  simp only [magnitude]
  rw [if_neg nonzero, if_neg (by omega), if_neg (by omega), back, if_neg (by omega)]
  rfl

theorem two_mul_le_log2 (value places : Nat) (positive : 0 < value) :
    2 * places ≤ (value * 5 ^ places).log2 := by
  have powers : 2 ^ (2 * places) ≤ 5 ^ places := by
    rw [pow_mul]
    exact Nat.pow_le_pow_left (by decide) places
  apply (Nat.le_log2 (Nat.ne_of_gt (Nat.mul_pos positive (Nat.pow_pos (by decide))))).mpr
  calc 2 ^ (2 * places) ≤ 5 ^ places := powers
    _ ≤ value * 5 ^ places := Nat.le_mul_of_pos_left _ positive

/-- The exact decimal of a finite magnitude reads back. -/
theorem magnitude_ofMagnitude (magnitude : Nat) (positive : 0 < magnitude)
    (finite : magnitude < infinite) : (ofMagnitude magnitude).magnitude = magnitude := by
  have significant := significand_pos magnitude positive
  unfold ofMagnitude
  dsimp only
  split
  · rename_i whole
    obtain ⟨extra, split⟩ : ∃ extra, extra = shift magnitude - 1074 := ⟨_, rfl⟩
    have power : Nat.pow 2 extra = 2 ^ extra := rfl
    have joined : 2 ^ shift magnitude = 2 ^ extra * unitsInOne := by
      rw [unitsInOne_eq_pow (shift magnitude - extra) (by omega), ← pow_add]
      congr 1
      omega
    rw [← split, power, magnitude_natural _
      (Nat.ne_of_gt (Nat.mul_pos significant (Nat.two_pow_pos _)))]
    apply nearest_eq_of_units magnitude _ 1 positive finite Nat.one_pos
    rw [joined]
    ring
  · rename_i fraction
    obtain ⟨places, split⟩ : ∃ places, places = 1074 - shift magnitude := ⟨_, rfl⟩
    have power : Nat.pow 5 places = 5 ^ places := rfl
    have joined : unitsInOne = 2 ^ shift magnitude * 2 ^ places := by
      rw [unitsInOne_eq_pow (shift magnitude + places) (by omega), pow_add]
    have tens : (10 : Nat) ^ places = 2 ^ places * 5 ^ places := by
      rw [← Nat.mul_pow]
    have bits := two_mul_le_log2 (significand magnitude) places significant
    rw [← split, power, magnitude_fraction _ places
      (Nat.ne_of_gt (Nat.mul_pos significant (Nat.pow_pos (by decide)))) (by omega) (by omega)]
    apply nearest_eq_of_units magnitude _ _ positive finite (Nat.pow_pos (by decide))
    rw [joined, tens]
    ring

theorem magnitude_of_readsBack? (magnitude digits : Nat) (number : Decimal)
    (found : readsBack? magnitude digits = some number) : number.magnitude = magnitude := by
  have holds := List.find?_some found
  exact eq_of_beq holds

/-- The shortest decimal of a finite magnitude reads back, however the search ended. -/
theorem magnitude_shortest (magnitude : Nat) (positive : 0 < magnitude)
    (finite : magnitude < infinite) : (shortest magnitude).magnitude = magnitude := by
  unfold shortest
  split
  · rename_i number found
    obtain ⟨digits, -, reads⟩ := List.exists_of_findSome?_eq_some found
    exact magnitude_of_readsBack? magnitude digits number reads
  · exact magnitude_ofMagnitude magnitude positive finite

end Decimal

end Formula
