import Formula.Expr.Variables
import Mathlib.Data.String.Basic

/-!
# The variables of a tree

The list of a tree's variables has each name that stands in the tree once, in ascending order. The
value of the tree depends on the bindings of these names and on nothing else.
-/

set_option autoImplicit false

namespace Formula.Expr

/-! ## Names in ascending order -/

theorem mem_insertName (name other : String) (names : List String) :
    other ∈ insertName name names ↔ other = name ∨ other ∈ names := by
  induction names with
  | nil => rw [insertName, List.mem_singleton, or_iff_left List.not_mem_nil]
  | cons head rest ih =>
    rw [insertName]
    split
    · exact List.mem_cons
    · split
      · rename_i same
        rw [List.mem_cons, same, ← or_assoc, or_self]
      · rw [List.mem_cons, List.mem_cons, ih, or_left_comm]

theorem ascending_insertName (name : String) (names : List String)
    (ascending : names.Pairwise (· < ·)) : (insertName name names).Pairwise (· < ·) := by
  induction names with
  | nil => exact List.pairwise_singleton _ name
  | cons head rest ih =>
    obtain ⟨first, later⟩ := List.pairwise_cons.mp ascending
    rw [insertName]
    split
    · rename_i below
      refine List.pairwise_cons.mpr ⟨?_, ascending⟩
      intro other member
      rcases List.mem_cons.mp member with rfl | member
      · exact below
      · exact lt_trans below (first other member)
    · rename_i notBelow
      split
      · exact ascending
      · rename_i other
        have above : head < name := lt_of_le_of_ne (le_of_not_gt notBelow) (Ne.symm other)
        refine List.pairwise_cons.mpr ⟨?_, ih later⟩
        intro next member
        rcases (mem_insertName name next rest).mp member with rfl | member
        · exact above
        · exact first next member

theorem mem_names (name : String) (tree : Expr) : name ∈ tree.names ↔ name ∈ tree.occurrences := by
  unfold names
  induction tree.occurrences with
  | nil => rfl
  | cons head rest ih => rw [List.foldr_cons, mem_insertName, ih, List.mem_cons]

theorem ascending_names (tree : Expr) : tree.names.Pairwise (· < ·) := by
  unfold names
  induction tree.occurrences with
  | nil => exact List.Pairwise.nil
  | cons head rest ih => exact ascending_insertName head _ ih

/-! ## Bindings that count -/

/-- Evaluation looks up the variables of the tree only. -/
theorem eval_congr (env env' : Environment) (tree : Expr)
    (agree : ∀ name ∈ tree.occurrences, env.find? name = env'.find? name) :
    tree.eval env = tree.eval env' := by
  induction tree with
  | number value => rfl
  | var name =>
    have same := agree name (List.mem_singleton.mpr rfl)
    rw [eval, eval, same]
  | neg operand ih => rw [eval, eval, ih agree]
  | binary op left right leftIH rightIH =>
    obtain ⟨before, behind⟩ := List.forall_mem_append.mp agree
    rw [eval, eval, leftIH before, rightIH behind]
  | call function argument ih => rw [eval, eval, ih agree]

end Formula.Expr
