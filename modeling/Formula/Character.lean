import Formula.Character.Alphabetic
import Formula.Character.Blank
import Formula.Character.Numeric

/-!
# Classes of characters

What separates lexemes and what names are made of. Digits are the ten ASCII digits, for which
core has `Char.isDigit`.
-/

set_option autoImplicit false

namespace Formula.Character

def isBlank (c : Char) : Bool := Ranges.contains c.toNat blankRanges

def isAlphabetic (c : Char) : Bool := Ranges.contains c.toNat alphabeticRanges

def isAlphanumeric (c : Char) : Bool :=
  isAlphabetic c || Ranges.contains c.toNat numericRanges

def startsName (c : Char) : Bool := isAlphabetic c || c == '_'

def continuesName (c : Char) : Bool := isAlphanumeric c || c == '_'

theorem continuesName_of_startsName {c : Char} (starts : startsName c = true) :
    continuesName c = true := by
  simp only [startsName, Bool.or_eq_true] at starts
  simp only [continuesName, isAlphanumeric, Bool.or_eq_true]
  rcases starts with alphabetic | low
  · exact Or.inl (Or.inl alphabetic)
  · exact Or.inr low

end Formula.Character
