import Formula.Expr.Variables
import Formula.Proofs.Display.RoundTrip

/-!
# The leaves of a tree

The leaves of a tree that is read from tokens are what the single tokens stand for, in the order of
the tokens: parentheses, operators and functions stand for no leaf, and no leaf changes its place.
What holds of all numbers of a tree, or of its variables in order, is a statement about tokens.
-/

set_option autoImplicit false

namespace Formula

namespace Expr

def leaves : Expr → List Expr
  | .number value => [.number value]
  | .var name => [.var name]
  | .neg operand => operand.leaves
  | .binary _ left right => left.leaves ++ right.leaves
  | .call _ argument => argument.leaves

def name? : Expr → Option String
  | .var name => some name
  | _ => none

theorem occurrences_eq_leaves (tree : Expr) : tree.occurrences = tree.leaves.filterMap name? := by
  induction tree with
  | number value => rfl
  | var name => rfl
  | neg operand ih => exact ih
  | binary op left right leftIH rightIH =>
    rw [occurrences, leaves, List.filterMap_append, leftIH, rightIH]
  | call function argument ih => exact ih

theorem finite_iff_leaves (tree : Expr) : tree.Finite ↔ ∀ leaf ∈ tree.leaves, leaf.Finite := by
  induction tree with
  | number value => simp only [leaves, List.forall_mem_singleton]
  | var name => simp only [leaves, List.forall_mem_singleton]
  | neg operand ih => exact ih
  | binary op left right leftIH rightIH =>
    rw [Finite, leaves, List.forall_mem_append, leftIH, rightIH]
  | call function argument ih => exact ih

end Expr

namespace Grammar

theorem leaf?_of_kind (token : Token) (kind : Token.Kind) (is : token.kind = kind)
    (other : kind ∉ [Token.Kind.number, .pi, .euler, .var]) : leaf? token = none := by
  unfold leaf?
  rw [is]
  cases kind with
  | number => exact absurd (by simp) other
  | pi => exact absurd (by simp) other
  | euler => exact absurd (by simp) other
  | var => exact absurd (by simp) other
  | _ => rfl

/-- What stands for an operator or a function stands for no leaf. -/
theorem leaf?_of_some {Meaning : Type} (meaning? : Token.Kind → Option Meaning)
    (leafless : ∀ kind ∈ [Token.Kind.number, .pi, .euler, .var], meaning? kind = none)
    (token : Token) (meaning : Meaning) (means : meaning? token.kind = some meaning) :
    leaf? token = none := by
  apply leaf?_of_kind token token.kind rfl
  intro member
  rw [leafless _ member] at means
  cases means

theorem leaves_of_leaf (token : Token) (tree : Expr) (reads : leaf? token = some tree) :
    tree.leaves = [tree] := by
  unfold leaf? at reads
  split at reads
  · obtain ⟨value, -, rfl⟩ := Option.map_eq_some_iff.mp reads
    rfl
  · cases reads
    rfl
  · cases reads
    rfl
  · cases reads
    rfl
  · cases reads

/-- Tokens in front of others, of which one stands for no leaf. -/
theorem leaves_between (before behind : List Token) (sign : Token) (noLeaf : leaf? sign = none) :
    (before ++ sign :: behind).filterMap leaf? =
      before.filterMap leaf? ++ behind.filterMap leaf? := by
  rw [List.filterMap_append, List.filterMap_cons_none noLeaf]

theorem leaves_enclosed (opening closing : Token) (inner : List Token)
    (opens : opening.kind = .leftParen) (closes : closing.kind = .rightParen) :
    (opening :: (inner ++ [closing])).filterMap leaf? = inner.filterMap leaf? := by
  have first := leaf?_of_kind opening .leftParen opens (by decide)
  have last := leaf?_of_kind closing .rightParen closes (by decide)
  rw [List.filterMap_cons_none first, leaves_between inner [] closing last, List.filterMap_nil,
    List.append_nil]

theorem leaves_tree {category : Category} (phrase : Derivation category) :
    phrase.tree.leaves = phrase.tokens.filterMap leaf? := by
  induction phrase with
  | leaf token tree reads =>
    rw [Derivation.tree, Derivation.tokens, List.filterMap_cons_some reads, List.filterMap_nil,
      leaves_of_leaf token tree reads]
  | group opening inner closing opens closes ih =>
    rw [Derivation.tree, Derivation.tokens, leaves_enclosed opening closing _ opens closes, ih]
  | call name function opening argument closing names opens closes ih =>
    have called := leaf?_of_some Trig.ofKind? (by decide) name function names
    rw [Derivation.tree, Derivation.tokens, List.filterMap_cons_none called,
      leaves_enclosed opening closing _ opens closes, Expr.leaves, ih]
  | bare base ih => exact ih
  | power base caret exponent raises baseIH exponentIH =>
    have sign := leaf?_of_kind caret .power raises (by decide)
    rw [Derivation.tree, Derivation.tokens, leaves_between _ _ caret sign, Expr.leaves, baseIH,
      exponentIH]
  | neg minus operand negates ih =>
    have sign := leaf?_of_kind minus .minus negates (by decide)
    rw [Derivation.tree, Derivation.tokens, List.filterMap_cons_none sign, Expr.leaves, ih]
  | plain operand ih => exact ih
  | single first ih => exact ih
  | product before sign op last joins beforeIH lastIH =>
    have joint := leaf?_of_some Operator.ofProduct? (by decide) sign op joins
    rw [Derivation.tree, Derivation.tokens, leaves_between _ _ sign joint, Expr.leaves, beforeIH,
      lastIH]
  | lone first ih => exact ih
  | sum before sign op last joins beforeIH lastIH =>
    have joint := leaf?_of_some Operator.ofSum? (by decide) sign op joins
    rw [Derivation.tree, Derivation.tokens, leaves_between _ _ sign joint, Expr.leaves, beforeIH,
      lastIH]

/-- The leaves of an accepted token list are those of the tokens before the first end. -/
theorem leaves_of_ofTokens (tokens : List Token) (limit : Nat) (tree : Expr)
    (accepted : Expr.ofTokens limit tokens = .ok tree) :
    tree.leaves = (body tokens).filterMap leaf? := by
  obtain ⟨phrase, covers, rfl⟩ := ofTokens_sound tokens limit tree accepted
  rw [leaves_tree, covers]

end Grammar

end Formula
