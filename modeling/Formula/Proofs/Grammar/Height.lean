import Formula.Proofs.Grammar.Acceptance
import Mathlib.Tactic.Ring

/-!
# How tall a tree can get under a limit

The levels of a chain are given back where it ends, although the first operand of a chain sinks by
one with every further operand, and neither the base of a power nor the argument of a call takes a
level for its place in the tree. So the height of a tree can exceed the limit under which it was
read, from a limit of two on. What the limit does bound is stated here exactly: under a limit `n`
no tree is taller than `n * (n + 1) - 2`, and for every positive `n` some tree is as tall as that.
-/

set_option autoImplicit false

namespace Formula

/-- The number of steps from the root down to the deepest leaf. -/
def Expr.height : Expr → Nat
  | .number _ => 0
  | .var _ => 0
  | .neg operand => operand.height + 1
  | .binary _ left right => max left.height right.height + 1
  | .call _ argument => argument.height + 1

namespace Grammar

/-! ## An upper bound for each category -/

/-- The greatest height of a phrase by its category, the number of further operands of its chain
and its cost. -/
def heightBound : Category → (further cost : Nat) → Nat
  | .primary, _, cost => cost * (cost + 1) - 1
  | .factor, _, cost => cost * (cost + 1)
  | .unary, _, cost => cost * (cost - 1)
  | .term, further, cost => cost * (cost - 1) + further
  | .expression, further, cost => (cost - 1) * (cost + 1) + further

/-- What takes levels takes one for each further operand and one more. -/
theorem Derivation.further_lt_cost {category : Category} (phrase : Derivation category)
    (notPrimary : category ≠ .primary) (notFactor : category ≠ .factor) :
    phrase.further < phrase.cost := by
  induction phrase with
  | leaf | group | call | bare | power => simp at notPrimary notFactor
  | neg minus operand negates ih =>
    simp only [Derivation.further, Derivation.cost]
    omega
  | plain operand ih =>
    simp only [Derivation.further, Derivation.cost]
    omega
  | single first ih =>
    have := ih (by simp) (by simp)
    simp only [Derivation.further, Derivation.cost]
    omega
  | product before sign op last joins beforeIH lastIH =>
    have := lastIH (by simp) (by simp)
    simp only [Derivation.further, Derivation.cost]
    omega
  | lone first ih =>
    have := ih (by simp) (by simp)
    simp only [Derivation.further, Derivation.cost]
    omega
  | sum before sign op last joins beforeIH lastIH =>
    have := lastIH (by simp) (by simp)
    simp only [Derivation.further, Derivation.cost]
    omega

theorem leaf_height (token : Token) (tree : Expr) (reads : leaf? token = some tree) :
    tree.height = 0 := by
  unfold leaf? at reads
  cases kind : token.kind with
  | number =>
    simp only [kind, Option.map_eq_some_iff] at reads
    obtain ⟨value, _, rfl⟩ := reads
    rfl
  | pi | euler | var =>
    simp only [kind, Option.some.injEq] at reads
    subst reads
    rfl
  | _ => simp [kind] at reads

theorem mul_pred_le {low high : Nat} (below : low ≤ high) :
    low * (low - 1) ≤ high * (high - 1) :=
  Nat.mul_le_mul below (Nat.sub_le_sub_right below 1)

theorem mul_succ_le {low high : Nat} (below : low ≤ high) :
    low * (low + 1) ≤ high * (high + 1) :=
  Nat.mul_le_mul below (Nat.add_le_add_right below 1)

theorem pred_mul_succ_le {low high : Nat} (below : low ≤ high) :
    (low - 1) * (low + 1) ≤ (high - 1) * (high + 1) :=
  Nat.mul_le_mul (Nat.sub_le_sub_right below 1) (Nat.add_le_add_right below 1)

/-- The bounds of the categories by that of a unary. -/
theorem mul_succ_eq (cost : Nat) : cost * (cost + 1) = cost * (cost - 1) + 2 * cost := by
  cases cost with
  | zero => rfl
  | succ cost =>
    simp only [Nat.add_sub_cancel]
    ring

theorem succ_mul_pred (cost : Nat) : (1 + cost) * (1 + cost - 1) = cost * (cost + 1) := by
  rw [Nat.add_sub_cancel_left, Nat.mul_comm, Nat.add_comm]

theorem pred_mul_succ_eq (cost : Nat) :
    (cost - 1) * (cost + 1) = cost * (cost - 1) + (cost - 1) := by
  cases cost with
  | zero => rfl
  | succ cost =>
    simp only [Nat.add_sub_cancel]
    ring

theorem height_le_bound {category : Category} (phrase : Derivation category) :
    phrase.tree.height ≤ heightBound category phrase.further phrase.cost := by
  induction phrase with
  | leaf token tree reads =>
    have leaf : tree.height = 0 := leaf_height token tree reads
    simp only [Derivation.tree, leaf, Nat.zero_le]
  | group opening inner closing opens closes ih =>
    have operands := inner.further_lt_cost (by simp) (by simp)
    have := pred_mul_succ_eq inner.cost
    have := mul_succ_eq inner.cost
    simp only [Derivation.tree, Derivation.cost, heightBound] at ih ⊢
    omega
  | call name function opening argument closing names opens closes ih =>
    have operands := argument.further_lt_cost (by simp) (by simp)
    have := pred_mul_succ_eq argument.cost
    have := mul_succ_eq argument.cost
    simp only [Derivation.tree, Derivation.cost, heightBound, Expr.height] at ih ⊢
    omega
  | bare base ih =>
    simp only [Derivation.tree, Derivation.cost, heightBound] at ih ⊢
    omega
  | power base caret exponent raises baseIH exponentIH =>
    have positive := exponent.further_lt_cost (by simp) (by simp)
    have := mul_succ_le (Nat.le_max_left base.cost exponent.cost)
    have := mul_succ_le (Nat.le_max_right base.cost exponent.cost)
    have := mul_succ_eq exponent.cost
    simp only [Derivation.tree, Derivation.cost, heightBound, Expr.height] at baseIH exponentIH ⊢
    omega
  | neg minus operand negates ih =>
    have positive := operand.further_lt_cost (by simp) (by simp)
    have := mul_succ_eq operand.cost
    have := succ_mul_pred operand.cost
    simp only [Derivation.tree, Derivation.cost, heightBound, Expr.height] at ih ⊢
    omega
  | plain operand ih =>
    have := succ_mul_pred operand.cost
    simp only [Derivation.tree, Derivation.cost, heightBound] at ih ⊢
    omega
  | single first ih => exact ih
  | product before sign op last joins beforeIH lastIH =>
    have := mul_pred_le (Nat.le_max_left before.cost (before.further + 1 + last.cost))
    have := mul_pred_le (Nat.le_trans (Nat.le_add_left last.cost (before.further + 1))
      (Nat.le_max_right before.cost _))
    simp only [Derivation.tree, Derivation.cost, Derivation.further, heightBound,
      Expr.height] at beforeIH lastIH ⊢
    omega
  | lone first ih =>
    have operands := first.further_lt_cost (by simp) (by simp)
    have := pred_mul_succ_eq first.cost
    simp only [Derivation.tree, Derivation.cost, Derivation.further, heightBound] at ih ⊢
    omega
  | sum before sign op last joins beforeIH lastIH =>
    have operands := last.further_lt_cost (by simp) (by simp)
    have := pred_mul_succ_eq last.cost
    have := pred_mul_succ_le (Nat.le_max_left before.cost (before.further + 1 + last.cost))
    have := pred_mul_succ_le (Nat.le_trans (Nat.le_add_left last.cost (before.further + 1))
      (Nat.le_max_right before.cost _))
    simp only [Derivation.tree, Derivation.cost, Derivation.further, heightBound,
      Expr.height] at beforeIH lastIH ⊢
    omega

theorem height_add_two_le (tokens : List Token) (limit : Nat) (tree : Expr)
    (success : Expr.ofTokens limit tokens = .ok tree) :
    tree.height + 2 ≤ limit * (limit + 1) := by
  obtain ⟨phrase, _, rfl, enough⟩ := (ofTokens_eq_ok_iff tokens limit tree).mp success
  have bound := height_le_bound phrase
  have operands := phrase.further_lt_cost (by simp) (by simp)
  have := pred_mul_succ_eq phrase.cost
  have := mul_succ_eq phrase.cost
  have := mul_succ_le enough
  simp only [heightBound] at bound
  omega

/-! ## Phrases that reach the bound -/

namespace Tall

def variableUnary : Derivation .unary :=
  .plain (.bare (.leaf ⟨.var, "x", 0⟩ (.var "x") rfl))

def raisedCall (argument : Derivation .expression) : Derivation .unary :=
  .plain (.power (.call ⟨.sin, "sin", 0⟩ .sin ⟨.leftParen, "(", 0⟩ argument ⟨.rightParen, ")", 0⟩
    rfl rfl rfl) ⟨.power, "^", 0⟩ variableUnary rfl)

def timesVariables (first : Derivation .unary) : (count : Nat) → Derivation .term
  | 0 => .single first
  | count + 1 => .product (timesVariables first count) ⟨.times, "*", 0⟩ .mul variableUnary rfl

def plusVariables (first : Derivation .term) : (count : Nat) → Derivation .expression
  | 0 => .lone first
  | count + 1 =>
    .sum (plusVariables first count) ⟨.plus, "+", 0⟩ .add (.single variableUnary) rfl

/-- A phrase of cost `n + 1`: at each step a call, a power, and the longest product and sum for
which there are levels. -/
def phrase : (n : Nat) → Derivation .expression
  | 0 => .lone (.single variableUnary)
  | n + 1 => plusVariables (timesVariables (raisedCall (phrase n)) (n + 1)) (n + 1)

theorem timesVariables_spec (first : Derivation .unary) (count bound : Nat)
    (firstBound : first.cost ≤ bound) (room : count + 1 ≤ bound) :
    (timesVariables first count).further = count ∧ (timesVariables first count).cost ≤ bound ∧
      (timesVariables first count).tree.height = first.tree.height + count := by
  induction count with
  | zero => exact ⟨rfl, firstBound, rfl⟩
  | succ count ih =>
    obtain ⟨operands, cost, height⟩ := ih (by omega)
    have variableCost : variableUnary.cost = 1 := rfl
    have variableHeight : variableUnary.tree.height = 0 := rfl
    simp only [timesVariables, Derivation.further, Derivation.cost, Derivation.tree, Expr.height]
    omega

theorem plusVariables_spec (first : Derivation .term) (count bound : Nat)
    (firstBound : first.cost ≤ bound) (room : count + 1 ≤ bound) :
    (plusVariables first count).further = count ∧ (plusVariables first count).cost ≤ bound ∧
      (plusVariables first count).tree.height = first.tree.height + count := by
  induction count with
  | zero => exact ⟨rfl, firstBound, rfl⟩
  | succ count ih =>
    obtain ⟨operands, cost, height⟩ := ih (by omega)
    have variableCost : (Derivation.single variableUnary).cost = 1 := rfl
    have variableHeight : (Derivation.single variableUnary).tree.height = 0 := rfl
    simp only [plusVariables, Derivation.further, Derivation.cost, Derivation.tree, Expr.height]
      at variableCost variableHeight ⊢
    omega

theorem phrase_spec (n : Nat) :
    (phrase n).cost ≤ n + 1 ∧ (phrase n).tree.height + 2 = (n + 1) * (n + 1 + 1) := by
  induction n with
  | zero => exact ⟨Nat.le_refl 1, rfl⟩
  | succ n ih =>
    obtain ⟨cost, height⟩ := ih
    have raisedCost : (raisedCall (phrase n)).cost ≤ n + 2 := by
      have variableCost : variableUnary.cost = 1 := rfl
      simp only [raisedCall, Derivation.cost]
      omega
    have raisedHeight : (raisedCall (phrase n)).tree.height = (phrase n).tree.height + 2 := by
      have variableHeight : variableUnary.tree.height = 0 := rfl
      simp only [raisedCall, Derivation.tree, Expr.height]
      omega
    obtain ⟨_, termCost, termHeight⟩ :=
      timesVariables_spec (raisedCall (phrase n)) (n + 1) (n + 2) raisedCost (Nat.le_refl _)
    obtain ⟨_, wholeCost, wholeHeight⟩ :=
      plusVariables_spec (timesVariables (raisedCall (phrase n)) (n + 1)) (n + 1) (n + 2) termCost
        (Nat.le_refl _)
    refine ⟨wholeCost, ?_⟩
    have square : (n + 1 + 1) * (n + 1 + 1 + 1) = (n + 1) * (n + 1 + 1) + 2 * (n + 2) := by ring
    simp only [phrase]
    omega

theorem accepted (n : Nat) :
    Expr.ofTokens (n + 1) (phrase n).tokens = .ok (phrase n).tree :=
  ofTokens_of_cost_le _ (phrase n) (phrase n).body_tokens.symm (n + 1) (phrase_spec n).1

end Tall

/-! ## The limit and the height -/

/-- A tree of height 3 that is read with a limit of 2: the minus sign and the product give their
levels back before the sum takes one. -/
theorem negated_product_sum_too_tall :
    ¬ ∀ tokens limit tree, Expr.ofTokens limit tokens = .ok tree → tree.height ≤ limit := by
  intro bounded
  have tall := bounded
    [⟨.minus, "-", 0⟩, ⟨.var, "x", 1⟩, ⟨.times, "*", 2⟩, ⟨.var, "y", 3⟩, ⟨.plus, "+", 4⟩,
      ⟨.var, "z", 5⟩, ⟨.finish, "", 6⟩] 2
    (.binary .add (.binary .mul (.neg (.var "x")) (.var "y")) (.var "z")) (by rfl)
  exact absurd tall (by decide)

theorem height_under_limit (tokens : List Token) (limit : Nat) :
    ((∀ tree, Expr.ofTokens limit tokens = .ok tree → tree.height ≤ limit) ↔
      ∀ phrase : Derivation .expression, phrase.tokens = body tokens →
        phrase.cost ≤ limit → phrase.tree.height ≤ limit) ∧
    ((∀ other tree, Expr.ofTokens limit other = .ok tree → tree.height ≤ limit) ↔ limit ≤ 1) ∧
    (∀ tree, Expr.ofTokens limit tokens = .ok tree →
      tree.height ≤ limit * (limit + 1) - 2) ∧
    (0 < limit → ∃ other tree, Expr.ofTokens limit other = .ok tree ∧
      tree.height = limit * (limit + 1) - 2) := by
  refine ⟨?_, ?_, ?_, ?_⟩
  · constructor
    · intro bounded phrase derived enough
      exact bounded phrase.tree (ofTokens_of_cost_le tokens phrase derived limit enough)
    · intro bounded tree success
      obtain ⟨phrase, derived, rfl, enough⟩ := (ofTokens_eq_ok_iff tokens limit tree).mp success
      exact bounded phrase derived enough
  · constructor
    · intro bounded
      by_contra large
      obtain ⟨n, rfl⟩ : ∃ n, limit = n + 2 := ⟨limit - 2, by omega⟩
      have tall := bounded _ _ (Tall.accepted (n + 1))
      have height := (Tall.phrase_spec (n + 1)).2
      have square : (n + 1 + 1) * (n + 1 + 1 + 1) = n * n + 5 * n + 6 := by ring
      omega
    · intro small other tree success
      have bound := height_add_two_le other limit tree success
      have : limit * (limit + 1) ≤ 1 * (1 + 1) := mul_succ_le small
      omega
  · intro tree success
    have bound := height_add_two_le tokens limit tree success
    omega
  · intro positive
    obtain ⟨n, rfl⟩ : ∃ n, limit = n + 1 := ⟨limit - 1, by omega⟩
    refine ⟨_, _, Tall.accepted n, ?_⟩
    have height := (Tall.phrase_spec n).2
    omega

end Grammar
end Formula
