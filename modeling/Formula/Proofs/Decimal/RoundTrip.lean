import Formula.Decimal.Reading
import Formula.Proofs.Character.Classes
import Formula.Proofs.Decimal.Exact
import Mathlib

/-!
# Reading the text of a double

The text of a finite double without sign is a numeral: digits, or digits on both sides of a point.
It reads as the decimal that was written, or as one with the same nearest double, and so as the
double itself.
-/

set_option autoImplicit false

namespace Formula

namespace Decimal

open Character

/-! ## Numerals -/

def Digits (cs : List Char) : Prop := cs ≠ [] ∧ ∀ c ∈ cs, c.isDigit = true

inductive Numeral : List Char → Prop where
  | whole (digits : List Char) (plain : Digits digits) : Numeral digits
  | point (whole fraction : List Char) (before : Digits whole) (behind : Digits fraction) :
    Numeral (whole ++ '.' :: fraction)

theorem digits_toDigits (value : Nat) : Digits (Nat.toDigits 10 value) :=
  ⟨Nat.toDigits_ne_nil, fun _ member =>
    Nat.isDigit_of_mem_toDigits (by decide) (by decide) member⟩

theorem isDigit_of_mem_zeros (count : Nat) (c : Char) (member : c ∈ List.replicate count '0') :
    c.isDigit = true := by
  rw [List.eq_of_mem_replicate member]
  rfl

theorem digits_append_zeros (digits : List Char) (plain : Digits digits) (count : Nat) :
    Digits (digits ++ List.replicate count '0') := by
  refine ⟨by simp [plain.1], ?_⟩
  intro c member
  rcases List.mem_append.mp member with front | zero
  · exact plain.2 c front
  · exact isDigit_of_mem_zeros count c zero

theorem digits_zeros_append (digits : List Char) (plain : Digits digits) (count : Nat) :
    Digits (List.replicate count '0' ++ digits) := by
  refine ⟨by simp [plain.1], ?_⟩
  intro c member
  rcases List.mem_append.mp member with zero | back
  · exact isDigit_of_mem_zeros count c zero
  · exact plain.2 c back

theorem Numeral.starts (text : List Char) (numeral : Numeral text) :
    ∃ c cs, text = c :: cs ∧ c.isDigit = true := by
  have first : ∀ whole : List Char, Digits whole → ∀ rest, ∃ c cs,
      whole ++ rest = c :: cs ∧ c.isDigit = true := by
    rintro (_ | ⟨c, cs⟩) ⟨nonempty, plain⟩ rest
    · exact absurd rfl nonempty
    · exact ⟨c, cs ++ rest, rfl, plain c List.mem_cons_self⟩
  cases numeral with
  | whole _ plain => simpa using first text plain []
  | point whole fraction before behind => exact first whole before ('.' :: fraction)

/-- Where the point falls among the digits, and how a fraction is filled up with zeros. -/
theorem withPoint_eq (digits : List Char) (plain : Digits digits) (places : Nat)
    (positive : 0 < places) :
    ∃ whole fraction, withPoint digits places = whole ++ '.' :: fraction ∧ Digits whole ∧
      Digits fraction ∧ fraction.length = places ∧
      ∃ zeros, whole ++ fraction = List.replicate zeros '0' ++ digits := by
  unfold withPoint
  split
  · rename_i inside
    refine ⟨_, _, rfl, ⟨?_, ?_⟩, ⟨?_, ?_⟩, ?_, 0, ?_⟩
    · intro empty
      have := congrArg List.length empty
      simp only [List.length_take, List.length_nil] at this
      omega
    · exact fun c member => plain.2 c (List.mem_of_mem_take member)
    · intro empty
      have := congrArg List.length empty
      simp only [List.length_drop, List.length_nil] at this
      omega
    · exact fun c member => plain.2 c (List.mem_of_mem_drop member)
    · simp only [List.length_drop]
      omega
    · simp
  · rename_i short
    refine ⟨['0'], _, rfl, digits_toDigits 0, digits_zeros_append digits plain _, ?_,
      places - digits.length + 1, ?_⟩
    · simp only [List.length_append, List.length_replicate]
      omega
    · simp [List.replicate_succ]

theorem positional_numeral (number : Decimal) : Numeral number.positional := by
  have plain := digits_toDigits number.coefficient
  unfold positional
  dsimp only
  split
  · exact .whole _ (digits_append_zeros _ plain _)
  · obtain ⟨whole, fraction, split, before, behind, -⟩ :=
      withPoint_eq _ plain (-number.exponent).toNat (by omega)
    rw [split]
    exact .point whole fraction before behind

/-! ## Reading a numeral -/

theorem stops_point (rest : List Char) : Stops Char.isDigit ('.' :: rest) :=
  stops_cons _ _ _ rfl

theorem ofChars?_whole (digits : List Char) (plain : Digits digits) :
    ofChars? digits = some ⟨Nat.ofDigitChars 10 digits 0, 0⟩ := by
  have front := takeWhile_piece Char.isDigit digits [] plain.2 (stops_nil _)
  have back := dropWhile_piece Char.isDigit digits [] plain.2 (stops_nil _)
  rw [List.append_nil] at front back
  simp [ofChars?, coefficient?, front, back, plain.1, exponent?]

/-- In front of the point there need not be a digit. -/
theorem ofChars?_point (whole fraction : List Char) (before : ∀ c ∈ whole, c.isDigit = true)
    (behind : Digits fraction) :
    ofChars? (whole ++ '.' :: fraction) =
      some ⟨Nat.ofDigitChars 10 (whole ++ fraction) 0, -(fraction.length : Int)⟩ := by
  have front := takeWhile_piece Char.isDigit whole ('.' :: fraction) before (stops_point _)
  have back := dropWhile_piece Char.isDigit whole ('.' :: fraction) before (stops_point _)
  have tailFront := takeWhile_piece Char.isDigit fraction [] behind.2 (stops_nil _)
  have tailBack := dropWhile_piece Char.isDigit fraction [] behind.2 (stops_nil _)
  rw [List.append_nil] at tailFront tailBack
  simp [ofChars?, coefficient?, front, back, tailFront, tailBack, behind.1, exponent?]

theorem ofDigitChars_zeros_append (count value : Nat) :
    Nat.ofDigitChars 10 (List.replicate count '0' ++ Nat.toDigits 10 value) 0 = value := by
  rw [Nat.ofDigitChars_append, Nat.ofDigitChars_replicate_zero, Nat.mul_zero,
    Nat.ofDigitChars_ten_toDigits]

theorem ofChars?_positional_whole (number : Decimal) (whole : 0 ≤ number.exponent) :
    ofChars? number.positional =
      some ⟨number.coefficient * 10 ^ number.exponent.toNat, 0⟩ := by
  rw [positional, if_pos whole,
    ofChars?_whole _ (digits_append_zeros _ (digits_toDigits number.coefficient) _),
    Nat.ofDigitChars_append, Nat.ofDigitChars_replicate_zero, Nat.ofDigitChars_ten_toDigits,
    Nat.mul_comm]

theorem ofChars?_positional_fraction (number : Decimal) (fraction : number.exponent < 0) :
    ofChars? number.positional = some number := by
  obtain ⟨whole, behind, split, before, after, places, zeros, joined⟩ :=
    withPoint_eq _ (digits_toDigits number.coefficient) (-number.exponent).toNat (by omega)
  have back : -(((-number.exponent).toNat : Nat) : Int) = number.exponent := by omega
  rw [positional, if_neg (by omega), split, ofChars?_point whole behind before.2 after, joined,
    ofDigitChars_zeros_append, places, back]

/-- The text of a decimal that is not too large reads as a decimal with the same nearest double. -/
theorem magnitude_of_positional (number : Decimal) (finite : number.magnitude < Binary64.infinite) :
    ∃ read, ofChars? number.positional = some read ∧ read.magnitude = number.magnitude := by
  rcases Int.lt_or_le number.exponent 0 with fraction | whole
  · exact ⟨number, ofChars?_positional_fraction number fraction, rfl⟩
  · refine ⟨_, ofChars?_positional_whole number whole, ?_⟩
    by_cases zero : number.coefficient = 0
    · simp [magnitude, zero]
    · have bounded : number.exponent < 309 := by
        by_contra large
        rw [magnitude, if_neg zero, if_pos (by omega)] at finite
        exact absurd finite (Nat.lt_irrefl _)
      have power : Nat.pow 10 number.exponent.toNat = 10 ^ number.exponent.toNat := rfl
      have nonzero : number.coefficient * 10 ^ number.exponent.toNat ≠ 0 :=
        Nat.mul_ne_zero zero (Nat.ne_of_gt (Nat.pow_pos (by decide)))
      rw [magnitude_natural _ nonzero, magnitude, if_neg zero, if_neg (by omega), if_pos whole,
        power]

/-! ## The text of a double -/

theorem ofMagnitude_magnitude (value : Float) (clear : Binary64.isNegative value = false) :
    Binary64.ofMagnitude false (Binary64.magnitude value) = value := by
  have below : value.toBits.toNat < Binary64.signBit := by
    simpa [Binary64.isNegative] using clear
  have whole : Binary64.magnitude value = value.toBits.toNat := Nat.mod_eq_of_lt below
  simp only [Binary64.ofMagnitude, whole, UInt64.ofNat_toNat, Float.ofBits_toBits]
  rfl

theorem magnitudeText_numeral (magnitude : Nat) (finite : magnitude < Binary64.infinite) :
    Numeral (magnitudeText magnitude) := by
  rw [magnitudeText, if_neg (Nat.ne_of_lt finite)]
  split
  · exact .whole _ (digits_toDigits 0)
  · exact positional_numeral _

theorem ofChars?_magnitudeText (magnitude : Nat) (finite : magnitude < Binary64.infinite) :
    ∃ read, ofChars? (magnitudeText magnitude) = some read ∧ read.magnitude = magnitude := by
  rw [magnitudeText, if_neg (Nat.ne_of_lt finite)]
  split
  · rename_i zero
    exact ⟨⟨0, 0⟩, rfl, zero.symm⟩
  · rename_i nonzero
    have same := magnitude_shortest magnitude (Nat.pos_of_ne_zero nonzero) finite
    obtain ⟨read, reads, equal⟩ := magnitude_of_positional (shortest magnitude) (by omega)
    exact ⟨read, reads, equal.trans same⟩

theorem text_toList (value : Float) (clear : Binary64.isNegative value = false)
    (bounded : Binary64.magnitude value ≤ Binary64.infinite) :
    (text value).toList = magnitudeText (Binary64.magnitude value) := by
  simp [text, clear, Nat.not_lt.mpr bounded]

theorem toLower_of_isDigit (c : Char) (digit : c.isDigit = true) : c.toLower = c := by
  have bounds := Char.isDigit_iff_toNat.mp digit
  have below : ¬ (65 ≤ c.toNat) := by
    have : '9'.toNat = 57 := rfl
    omega
  unfold Char.toLower
  rw [dif_neg]
  rintro ⟨upper, -⟩
  exact below (by simpa [UInt32.le_iff_toNat_le] using upper)

/-- What starts with a digit or a point is no word for infinity or for what is no number. -/
theorem unsigned?_of_starts (negative : Bool) (c : Char) (rest : List Char)
    (plain : c.isDigit = true ∨ c = '.') :
    unsigned? negative (c :: rest) = (ofChars? (c :: rest)).map (toFloat negative) := by
  have lower : c.toLower = c := by
    rcases plain with digit | rfl
    · exact toLower_of_isDigit c digit
    · rfl
  have notWord : ∀ d ds, d.isDigit = false → d ≠ '.' → (c :: rest).map Char.toLower ≠ d :: ds := by
    intro d ds noDigit noPoint same
    rw [List.map_cons, lower] at same
    cases same
    rcases plain with digit | point
    · rw [digit] at noDigit
      cases noDigit
    · exact noPoint point
  unfold unsigned?
  dsimp only
  rw [if_neg, if_neg]
  · exact notWord 'n' ['a', 'n'] rfl (by decide)
  · rintro (same | same)
    · exact notWord 'i' ['n', 'f'] rfl (by decide) same
    · exact notWord 'i' ['n', 'f', 'i', 'n', 'i', 't', 'y'] rfl (by decide) same

/-- What starts with a digit or a point has no sign. -/
theorem read?_of_starts (source : String) (c : Char) (cs : List Char)
    (starts : source.toList = c :: cs) (plain : c.isDigit = true ∨ c = '.') :
    read? source = (ofChars? source.toList).map (toFloat false) := by
  have noSign : ∀ d ds, d.isDigit = false → d ≠ '.' → source.toList ≠ d :: ds := by
    intro d ds noDigit noPoint same
    rw [starts] at same
    cases same
    rcases plain with digit | point
    · rw [digit] at noDigit
      cases noDigit
    · exact noPoint point
  unfold read?
  split
  · rename_i plus
    exact absurd plus (noSign '+' _ rfl (by decide))
  · rename_i minus
    exact absurd minus (noSign '-' _ rfl (by decide))
  · rw [starts, unsigned?_of_starts false c cs plain]

theorem read?_numeral (source : String) (numeral : Numeral source.toList) :
    read? source = (ofChars? source.toList).map (toFloat false) := by
  obtain ⟨c, cs, starts, digit⟩ := numeral.starts
  exact read?_of_starts source c cs starts (Or.inl digit)

theorem read?_magnitudeText (magnitude : Nat) (finite : magnitude < Binary64.infinite) :
    read? (String.ofList (magnitudeText magnitude)) =
      some (Binary64.ofMagnitude false magnitude) := by
  have numeral : Numeral (String.ofList (magnitudeText magnitude)).toList := by
    rw [String.toList_ofList]
    exact magnitudeText_numeral magnitude finite
  obtain ⟨read, reads, same⟩ := ofChars?_magnitudeText magnitude finite
  rw [read?_numeral _ numeral, String.toList_ofList, reads, Option.map_some, toFloat, same]

theorem read?_text (value : Float) (clear : Binary64.isNegative value = false)
    (finite : Binary64.magnitude value < Binary64.infinite) :
    read? (text value) = some value := by
  have shown : text value = String.ofList (magnitudeText (Binary64.magnitude value)) := by
    rw [← text_toList value clear (Nat.le_of_lt finite), String.ofList_toList]
  rw [shown, read?_magnitudeText _ finite, ofMagnitude_magnitude value clear]

theorem text_of_negative (value : Float) (negative : Binary64.isNegative value = true)
    (bounded : Binary64.magnitude value ≤ Binary64.infinite) :
    (text value).toList = '-' :: magnitudeText (Binary64.magnitude value) := by
  simp [text, negative, Nat.not_lt.mpr bounded]

theorem text_of_infinite (value : Float) (clear : Binary64.isNegative value = false)
    (infinite : Binary64.magnitude value = Binary64.infinite) : text value = "inf" := by
  apply String.toList_inj.mp
  rw [text_toList value clear (Nat.le_of_eq infinite), infinite]
  rfl

end Decimal

end Formula
