import Formula.Character
import Mathlib.Data.List.TakeWhile

/-!
# Where a class of characters ends

A piece of a text is all that there is of a class at the front if its characters are of the class
and the next one is not. Blanks, digits and the characters that start a name are apart from one
another, so that the first character of a piece decides what it can be.
-/

set_option autoImplicit false

namespace Formula.Character

/-- No character of the class stands at the front. -/
def Stops (inside : Char → Bool) (rest : List Char) : Prop :=
  ∀ c, rest.head? = some c → inside c = false

section Stops

variable (inside : Char → Bool)

theorem stops_nil : Stops inside [] := by
  intro c front
  cases front

theorem stops_cons (c : Char) (cs : List Char) (outside : inside c = false) :
    Stops inside (c :: cs) := by
  intro front same
  cases same
  exact outside

theorem stops_dropWhile (cs : List Char) : Stops inside (cs.dropWhile inside) := by
  intro c front
  have outside := List.head?_dropWhile_not inside cs
  rw [front] at outside
  exact outside

theorem stops_of_head (rest other : List Char) (same : other.head? = rest.head?)
    (stops : Stops inside rest) : Stops inside other := by
  intro c front
  exact stops c (same.symm.trans front)

theorem takeWhile_piece (piece rest : List Char) (plain : ∀ c ∈ piece, inside c = true)
    (stops : Stops inside rest) : (piece ++ rest).takeWhile inside = piece := by
  rw [List.takeWhile_append_of_pos plain]
  cases rest with
  | nil => simp
  | cons c cs => simp [stops c rfl]

theorem dropWhile_piece (piece rest : List Char) (plain : ∀ c ∈ piece, inside c = true)
    (stops : Stops inside rest) : (piece ++ rest).dropWhile inside = rest := by
  rw [List.dropWhile_append_of_pos plain]
  cases rest with
  | nil => rfl
  | cons c cs => simp [stops c rfl]

end Stops

/-! ## Classes that do not overlap -/

theorem Ranges.contains_apart (ranges : Ranges) (ascending : ranges.AscendingFrom 0)
    (low high code : Nat) (bounds : low ≤ code ∧ code ≤ high)
    (apart : ∀ range ∈ ranges, range.2 < low ∨ high < range.1) : contains code ranges = false := by
  cases found : contains code ranges with
  | false => rfl
  | true =>
    obtain ⟨range, member, inside⟩ := (contains_iff code ascending).mp found
    have := apart range member
    omega

/-- The blanks are few enough to be looked up one by one. -/
theorem Ranges.contains_of_isBlank (ranges : Ranges)
    (apart : ∀ range ∈ blankRanges, ∀ code ∈ List.range' range.1 (range.2 + 1 - range.1),
      contains code ranges = false)
    (c : Char) (blank : isBlank c = true) : contains c.toNat ranges = false := by
  obtain ⟨range, member, low, high⟩ := (contains_iff c.toNat blankRanges_ascending).mp blank
  apply apart range member c.toNat
  apply List.mem_range'_1.mpr
  omega

theorem isAlphabetic_of_isBlank (c : Char) (blank : isBlank c = true) :
    isAlphabetic c = false :=
  Ranges.contains_of_isBlank alphabeticRanges (by decide +kernel) c blank

theorem numeric_of_isBlank (c : Char) (blank : isBlank c = true) :
    Ranges.contains c.toNat numericRanges = false :=
  Ranges.contains_of_isBlank numericRanges (by decide +kernel) c blank

theorem isBlank_of_isDigit (c : Char) (digit : c.isDigit = true) : isBlank c = false :=
  Ranges.contains_apart blankRanges blankRanges_ascending 48 57 c.toNat
    (Char.isDigit_iff_toNat.mp digit) (by decide)

theorem isAlphabetic_of_isDigit (c : Char) (digit : c.isDigit = true) : isAlphabetic c = false :=
  Ranges.contains_apart alphabeticRanges alphabeticRanges_ascending 48 57 c.toNat
    (Char.isDigit_iff_toNat.mp digit) (by decide +kernel)

/-- A class without letters and without the low line is not one with which a name starts. -/
theorem outside_of_startsName (inside : Char → Bool) (low : inside '_' = false)
    (letters : ∀ c, inside c = true → isAlphabetic c = false) (c : Char)
    (starts : startsName c = true) : inside c = false := by
  cases member : inside c with
  | false => rfl
  | true =>
    simp only [startsName, letters c member, Bool.false_or, beq_iff_eq] at starts
    subst starts
    rw [low] at member
    cases member

theorem isBlank_of_startsName (c : Char) (starts : startsName c = true) : isBlank c = false :=
  outside_of_startsName isBlank (by decide) isAlphabetic_of_isBlank c starts

theorem isDigit_of_startsName (c : Char) (starts : startsName c = true) : c.isDigit = false :=
  outside_of_startsName Char.isDigit (by decide) isAlphabetic_of_isDigit c starts

theorem beq_of_isBlank (c other : Char) (blank : isBlank c = true)
    (solid : isBlank other = false) : (c == other) = false := by
  apply beq_false_of_ne
  rintro rfl
  rw [blank] at solid
  cases solid

theorem continuesName_of_isBlank (c : Char) (blank : isBlank c = true) :
    continuesName c = false := by
  have notLow := beq_of_isBlank c '_' blank (by decide)
  simp only [continuesName, isAlphanumeric, isAlphabetic_of_isBlank c blank,
    numeric_of_isBlank c blank, notLow, Bool.or_self]

theorem isDigit_of_isBlank (c : Char) (blank : isBlank c = true) : c.isDigit = false := by
  cases digit : c.isDigit with
  | false => rfl
  | true =>
    rw [isBlank_of_isDigit c digit] at blank
    cases blank

end Formula.Character
