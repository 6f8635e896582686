import Formula.Character.Ranges

/-!
# Blanks

The characters with the Unicode property White_Space (version 17.0): 25 code points.
-/

set_option autoImplicit false

namespace Formula.Character

def blankRanges : Ranges :=
  [(0x9, 0xd), (0x20, 0x20), (0x85, 0x85), (0xa0, 0xa0), (0x1680, 0x1680), (0x2000, 0x200a),
   (0x2028, 0x2029), (0x202f, 0x202f), (0x205f, 0x205f), (0x3000, 0x3000)]

theorem blankRanges_ascending : blankRanges.AscendingFrom 0 := by decide +kernel

end Formula.Character
