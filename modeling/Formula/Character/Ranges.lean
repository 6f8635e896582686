/-!
# Sets of characters as ranges of code points

A set of characters is held as an ascending list of closed ranges of code points. The main
statement says that the search, which stops at the first range above the code point, finds
exactly the members of the ranges.
-/

set_option autoImplicit false

namespace Formula.Character

/-- Closed ranges of code points, each given by its first and last member. -/
abbrev Ranges := List (Nat × Nat)

/-- Every range is non-empty and starts at `low` or above, behind all ranges before it. -/
def Ranges.AscendingFrom (low : Nat) : Ranges → Prop
  | [] => True
  | (first, last) :: rest => low ≤ first ∧ first ≤ last ∧ AscendingFrom (last + 1) rest

def Ranges.decideAscendingFrom : (low : Nat) → (ranges : Ranges) →
    Decidable (ranges.AscendingFrom low)
  | _, [] => .isTrue trivial
  | low, (first, last) :: rest =>
    have := decideAscendingFrom (last + 1) rest
    inferInstanceAs (Decidable (low ≤ first ∧ first ≤ last ∧ Ranges.AscendingFrom (last + 1) rest))

instance (low : Nat) (ranges : Ranges) : Decidable (ranges.AscendingFrom low) :=
  Ranges.decideAscendingFrom low ranges

def Ranges.contains (code : Nat) : Ranges → Bool
  | [] => false
  | (first, last) :: rest =>
    if code < first then false else if code ≤ last then true else contains code rest

theorem Ranges.AscendingFrom.le_of_mem {low : Nat} {ranges : Ranges}
    (ascending : ranges.AscendingFrom low) {range : Nat × Nat} (member : range ∈ ranges) :
    low ≤ range.1 := by
  induction ranges generalizing low with
  | nil => cases member
  | cons head rest ih =>
    obtain ⟨lower, ordered, restAscending⟩ := ascending
    rcases List.mem_cons.mp member with rfl | member
    · exact lower
    · have := ih restAscending member
      omega

/-- In ascending ranges the search finds exactly the code points that lie in one of them. -/
theorem Ranges.contains_iff {low : Nat} {ranges : Ranges} (code : Nat)
    (ascending : ranges.AscendingFrom low) :
    contains code ranges = true ↔ ∃ range ∈ ranges, range.1 ≤ code ∧ code ≤ range.2 := by
  induction ranges generalizing low with
  | nil => simp [contains]
  | cons head rest ih =>
    obtain ⟨first, last⟩ := head
    obtain ⟨lower, ordered, restAscending⟩ := ascending
    by_cases below : code < first
    · simp only [contains, if_pos below, Bool.false_eq_true, false_iff]
      rintro ⟨range, member, bounds⟩
      rcases List.mem_cons.mp member with rfl | member
      · exact Nat.not_lt.mpr bounds.1 below
      · have := restAscending.le_of_mem member
        omega
    · by_cases inside : code ≤ last
      · simp only [contains, if_neg below, if_pos inside, true_iff]
        exact ⟨(first, last), List.mem_cons_self, Nat.not_lt.mp below, inside⟩
      · simp only [contains, if_neg below, if_neg inside, ih restAscending]
        constructor
        · rintro ⟨range, member, bounds⟩
          exact ⟨range, List.mem_cons_of_mem _ member, bounds⟩
        · rintro ⟨range, member, bounds⟩
          rcases List.mem_cons.mp member with rfl | member
          · exact absurd bounds.2 inside
          · exact ⟨range, member, bounds⟩

end Formula.Character
