import Formula.Proofs.Expr.Arithmetic

/-!
# The first fault of a tree

A node is at fault if it is a variable without a binding, or a quotient of operands without a fault
whose divisor is a zero. Evaluation gives the value by plain arithmetic if no node is at fault, and
otherwise the first fault in post-order: the left operand comes before the right one, and both come
before the node that joins them.
-/

set_option autoImplicit false

namespace Formula.Expr

/-- The nodes of a tree, each of them behind its operands. -/
def postorder : Expr → List Expr
  | .number value => [.number value]
  | .var name => [.var name]
  | .neg operand => operand.postorder ++ [.neg operand]
  | .binary op left right => left.postorder ++ right.postorder ++ [.binary op left right]
  | .call function argument => argument.postorder ++ [.call function argument]

def isFaultless (env : Environment) : Expr → Bool
  | .number _ => true
  | .var name => env.binds name
  | .neg operand => operand.isFaultless env
  | .binary op left right =>
    left.isFaultless env && right.isFaultless env &&
      !decide (op = .div ∧ IsZero (right.plain env))
  | .call _ argument => argument.isFaultless env

def fault? (env : Environment) : Expr → Option EvaluationError
  | .var name => if env.binds name then none else some (.undefinedVariable name)
  | .binary op left right =>
    if op = .div ∧ left.isFaultless env ∧ right.isFaultless env ∧ IsZero (right.plain env) then
      some .divisionByZero
    else none
  | _ => none

def firstFault? (env : Environment) (tree : Expr) : Option EvaluationError :=
  tree.postorder.findSome? (fault? env)

section Faults

attribute [local simp] isFaultless postorder fault?

variable (env : Environment)

theorem isFaultless_iff (tree : Expr) :
    tree.isFaultless env = true ↔ ∀ node ∈ tree.postorder, node.fault? env = none := by
  induction tree with
  | number value => simp
  | var name => simp
  | neg operand ih =>
    rw [postorder, List.forall_mem_append, List.forall_mem_singleton, ← ih]
    exact (and_iff_left rfl).symm
  | binary op left right leftIH rightIH =>
    rw [postorder, List.forall_mem_append, List.forall_mem_append, List.forall_mem_singleton,
      ← leftIH, ← rightIH, isFaultless, fault?, Bool.and_eq_true, Bool.and_eq_true]
    apply and_congr_right
    rintro ⟨leftClear, rightClear⟩
    simp only [leftClear, rightClear, true_and, Bool.not_eq_true', decide_eq_false_iff_not,
      ite_eq_right_iff, reduceCtorEq, imp_false]
  | call function argument ih =>
    rw [postorder, List.forall_mem_append, List.forall_mem_singleton, ← ih]
    exact (and_iff_left rfl).symm

theorem firstFault?_eq_none_iff (tree : Expr) :
    tree.firstFault? env = none ↔ tree.isFaultless env = true := by
  rw [firstFault?, List.findSome?_eq_none_iff, isFaultless_iff]

theorem firstFault?_var (name : String) :
    (var name).firstFault? env = (var name).fault? env := by
  simp [firstFault?]

theorem firstFault?_neg (operand : Expr) :
    (neg operand).firstFault? env = operand.firstFault? env := by
  simp [firstFault?]

theorem firstFault?_call (function : Trig) (argument : Expr) :
    (call function argument).firstFault? env = argument.firstFault? env := by
  simp [firstFault?]

theorem firstFault?_binary (op : Operator) (left right : Expr) :
    (binary op left right).firstFault? env =
      (left.firstFault? env).or ((right.firstFault? env).or
        ((binary op left right).fault? env)) := by
  simp [firstFault?]

theorem eval_eq_firstFault? (tree : Expr) :
    tree.eval env =
      match tree.firstFault? env with
      | some fault => .error fault
      | none => .ok (tree.plain env) := by
  induction tree with
  | number value => rfl
  | var name =>
    rw [eval, firstFault?_var, fault?, plain, Environment.binds]
    cases env.find? name <;> rfl
  | neg operand ih =>
    rw [eval, ih, firstFault?_neg]
    cases operand.firstFault? env <;> rfl
  | binary op left right leftIH rightIH =>
    rw [eval, leftIH, rightIH, firstFault?_binary]
    cases first : left.firstFault? env with
    | some fault => rfl
    | none =>
      cases second : right.firstFault? env with
      | some fault => rfl
      | none =>
        -- only a node whose operands are free of faults is looked at itself
        have leftClear := (firstFault?_eq_none_iff env left).mp first
        have rightClear := (firstFault?_eq_none_iff env right).mp second
        simp only [Operator.apply_eq, fault?, leftClear, rightClear, true_and, Option.none_or]
        split <;> rfl
  | call function argument ih =>
    rw [eval, ih, firstFault?_call]
    cases argument.firstFault? env <;> rfl

/-- Evaluation gives the value by plain arithmetic, or the fault of the first node in post-order
that has one. -/
theorem eval_plain_or_first_fault (tree : Expr) :
    (tree.isFaultless env = true ↔ ∀ node ∈ tree.postorder, node.fault? env = none) ∧
    tree.eval env =
      match tree.postorder.findSome? (fault? env) with
      | some fault => .error fault
      | none => .ok (tree.plain env) :=
  ⟨isFaultless_iff env tree, eval_eq_firstFault? env tree⟩

end Faults

-- the quotient by the negative zero comes before the unbound variable to its right
example :
    (binary .mul (.binary .div (.number 1) (.neg (.number 0))) (.var "y")).postorder.filterMap
      (fault? ∅) = [.divisionByZero, .undefinedVariable "y"] := by
  decide +kernel

end Formula.Expr
