import Formula.Grammar
import Mathlib.Data.List.TakeWhile

/-!
# Derivations

A derivation says how a phrase is built by the rules of the grammar. It knows nothing of reading
from left to right: it carries its tokens, and from them follow its tree, what it costs in levels,
and at which of its tokens each level is taken. Sums and products nest to the left, so that a chain
of operands is folded to the left by its shape.

The main statements say that a derivation is not empty, has no end of the text in it, costs at most
as many levels as it has tokens, and costs exactly as much as the deepest level that it takes.
-/

set_option autoImplicit false

namespace Formula

def Trig.ofKind? : Token.Kind → Option Trig
  | .sin => some .sin
  | .cos => some .cos
  | .tan => some .tan
  | _ => none

theorem Trig.ofKind?_ofName (function : Trig) :
    ofKind? (Token.Kind.ofName function.name) = some function := by
  cases function <;> decide

namespace Grammar

inductive Category where
  | primary
  | factor
  | unary
  | term
  | expression
  deriving DecidableEq

def leaf? (token : Token) : Option Expr :=
  match token.kind with
  | .number => (Decimal.read? token.text).map .number
  | .pi => some .pi
  | .euler => some .euler
  | .var => some (.var token.text)
  | _ => none

inductive Derivation : Category → Type where
  | leaf (token : Token) (tree : Expr) (reads : leaf? token = some tree) : Derivation .primary
  | group (opening : Token) (inner : Derivation .expression) (closing : Token)
      (opens : opening.kind = .leftParen) (closes : closing.kind = .rightParen) :
      Derivation .primary
  | call (name : Token) (function : Trig) (opening : Token) (argument : Derivation .expression)
      (closing : Token) (names : Trig.ofKind? name.kind = some function)
      (opens : opening.kind = .leftParen) (closes : closing.kind = .rightParen) :
      Derivation .primary
  | bare (base : Derivation .primary) : Derivation .factor
  | power (base : Derivation .primary) (caret : Token) (exponent : Derivation .unary)
      (raises : caret.kind = .power) : Derivation .factor
  | neg (minus : Token) (operand : Derivation .unary) (negates : minus.kind = .minus) :
      Derivation .unary
  | plain (operand : Derivation .factor) : Derivation .unary
  | single (first : Derivation .unary) : Derivation .term
  | product (before : Derivation .term) (sign : Token) (op : Operator) (last : Derivation .unary)
      (joins : Operator.ofProduct? sign.kind = some op) : Derivation .term
  | lone (first : Derivation .term) : Derivation .expression
  | sum (before : Derivation .expression) (sign : Token) (op : Operator) (last : Derivation .term)
      (joins : Operator.ofSum? sign.kind = some op) : Derivation .expression

/-- A level is taken with `depth` levels in use, itself counted, when the reader stands behind
`cursor` tokens. -/
structure Level where
  depth : Nat
  cursor : Nat
  deriving DecidableEq

def Level.shift (depth cursor : Nat) (level : Level) : Level :=
  ⟨depth + level.depth, cursor + level.cursor⟩

/-- The levels of a phrase that is itself `down` levels below: the level that is taken to get
there, at `entry`, and those of the phrase, which starts behind `inside` tokens. -/
def Level.below (down entry inside : Nat) (levels : List Level) : List Level :=
  ⟨down, entry⟩ :: levels.map (Level.shift down inside)

theorem Level.forall_depth_below (levels : List Level) (cost : Nat)
    (deepest : ∀ room, (∀ level ∈ levels, level.depth ≤ room) ↔ cost ≤ room)
    (down entry inside room : Nat) :
    (∀ level ∈ below down entry inside levels, level.depth ≤ room) ↔ down + cost ≤ room := by
  simp only [below, List.forall_mem_cons, List.forall_mem_map, shift]
  constructor
  · rintro ⟨enough, inner⟩
    have : cost ≤ room - down := by
      apply (deepest (room - down)).mp
      intro level member
      have := inner level member
      omega
    omega
  · intro enough
    have inner := (deepest (room - down)).mpr (by omega)
    refine ⟨by omega, fun level member => ?_⟩
    have := inner level member
    omega

namespace Derivation

def tokens : {category : Category} → Derivation category → List Token
  | _, .leaf token _ _ => [token]
  | _, .group opening inner closing _ _ => opening :: (inner.tokens ++ [closing])
  | _, .call name _ opening argument closing _ _ _ =>
    name :: opening :: (argument.tokens ++ [closing])
  | _, .bare base => base.tokens
  | _, .power base caret exponent _ => base.tokens ++ caret :: exponent.tokens
  | _, .neg minus operand _ => minus :: operand.tokens
  | _, .plain operand => operand.tokens
  | _, .single first => first.tokens
  | _, .product before sign _ last _ => before.tokens ++ sign :: last.tokens
  | _, .lone first => first.tokens
  | _, .sum before sign _ last _ => before.tokens ++ sign :: last.tokens

def tree : {category : Category} → Derivation category → Expr
  | _, .leaf _ tree _ => tree
  | _, .group _ inner _ _ _ => inner.tree
  | _, .call _ function _ argument _ _ _ _ => .call function argument.tree
  | _, .bare base => base.tree
  | _, .power base _ exponent _ => .binary .pow base.tree exponent.tree
  | _, .neg _ operand _ => .neg operand.tree
  | _, .plain operand => operand.tree
  | _, .single first => first.tree
  | _, .product before _ op last _ => .binary op before.tree last.tree
  | _, .lone first => first.tree
  | _, .sum before _ op last _ => .binary op before.tree last.tree

/-- The number of operands of a chain behind its first one. -/
def further : {category : Category} → Derivation category → Nat
  | _, .product before _ _ _ _ => before.further + 1
  | _, .sum before _ _ _ _ => before.further + 1
  | _, _ => 0

/-- The levels that a phrase needs. Operand `i` of a chain stands `i` levels down. -/
def cost : {category : Category} → Derivation category → Nat
  | _, .leaf _ _ _ => 0
  | _, .group _ inner _ _ _ => inner.cost
  | _, .call _ _ _ argument _ _ _ _ => argument.cost
  | _, .bare base => base.cost
  | _, .power base _ exponent _ => max base.cost exponent.cost
  | _, .neg _ operand _ => 1 + operand.cost
  | _, .plain operand => 1 + operand.cost
  | _, .single first => first.cost
  | _, .product before _ _ last _ => max before.cost (before.further + 1 + last.cost)
  | _, .lone first => first.cost
  | _, .sum before _ _ last _ => max before.cost (before.further + 1 + last.cost)

/-- The levels of a phrase in the order in which they are taken: a unary takes one at its first
token, and a further operand of a chain one at the token behind its operator. -/
def levels : {category : Category} → Derivation category → List Level
  | _, .leaf _ _ _ => []
  | _, .group _ inner _ _ _ => inner.levels.map (Level.shift 0 1)
  | _, .call _ _ _ argument _ _ _ _ => argument.levels.map (Level.shift 0 2)
  | _, .bare base => base.levels
  | _, .power base _ exponent _ =>
    base.levels ++ exponent.levels.map (Level.shift 0 (base.tokens.length + 1))
  | _, .neg _ operand _ => Level.below 1 0 1 operand.levels
  | _, .plain operand => Level.below 1 0 0 operand.levels
  | _, .single first => first.levels
  | _, .product before _ _ last _ =>
    before.levels ++ Level.below (before.further + 1) (before.tokens.length + 1)
      (before.tokens.length + 1) last.levels
  | _, .lone first => first.levels
  | _, .sum before _ _ last _ =>
    before.levels ++ Level.below (before.further + 1) (before.tokens.length + 1)
      (before.tokens.length + 1) last.levels

end Derivation

def Derives (phrase : List Token) (tree : Expr) : Prop :=
  ∃ derivation : Derivation .expression, derivation.tokens = phrase ∧ derivation.tree = tree

/-! ## The tokens before the end -/

theorem body_append (taken : List Token) (ordinary : ∀ token ∈ taken, token.isFinish = false)
    (rest : List Token) : body (taken ++ rest) = taken ++ body rest := by
  apply List.takeWhile_append_of_pos
  intro token member
  rw [ordinary token member, Bool.not_false]

theorem body_of_ordinary (tokens : List Token)
    (ordinary : ∀ token ∈ tokens, token.isFinish = false) : body tokens = tokens := by
  apply List.takeWhile_eq_self_iff.mpr
  intro token member
  rw [ordinary token member, Bool.not_false]

theorem body_cons_of_finish (token : Token) (is : token.isFinish = true) (rest : List Token) :
    body (token :: rest) = [] := by
  simp [body, is]

theorem body_cons (token : Token) (ordinary : token.isFinish = false) (rest : List Token) :
    body (token :: rest) = token :: body rest := by
  simp [body, ordinary]

/-! ## Tokens of a derivation -/

namespace Derivation

attribute [local simp] tokens tree further cost levels

theorem tokens_ne_nil {category : Category} (derivation : Derivation category) :
    derivation.tokens ≠ [] := by
  induction derivation with
  | bare base ih => exact ih
  | plain operand ih => exact ih
  | single first ih => exact ih
  | lone first ih => exact ih
  | _ => simp

theorem leaf_not_finish (token : Token) (tree : Expr) (reads : leaf? token = some tree) :
    token.isFinish = false := by
  unfold leaf? at reads
  unfold Token.isFinish
  cases kind : token.kind with
  | finish => simp [kind] at reads
  | _ => rfl

/-- A kind that stands for an operator or a function is not the end of the text. -/
theorem not_finish_of_some {Meaning : Type} (meaning? : Token.Kind → Option Meaning)
    (endless : meaning? .finish = none) (token : Token) (meaning : Meaning)
    (means : meaning? token.kind = some meaning) : token.isFinish = false := by
  apply beq_false_of_ne
  intro finish
  rw [finish, endless] at means
  cases means

theorem not_finish_of_kind (token : Token) (kind : Token.Kind) (is : token.kind = kind)
    (other : kind ≠ .finish) : token.isFinish = false := by
  apply beq_false_of_ne
  rw [is]
  exact other

theorem tokens_not_finish {category : Category} (derivation : Derivation category) :
    ∀ token ∈ derivation.tokens, token.isFinish = false := by
  induction derivation with
  | leaf token tree reads =>
    intro other member
    obtain rfl : other = token := by simpa using member
    exact leaf_not_finish other tree reads
  | group opening inner closing opens closes ih =>
    intro token member
    simp only [tokens, List.mem_cons, List.mem_append, List.not_mem_nil, or_false] at member
    rcases member with rfl | member | rfl
    · exact not_finish_of_kind token .leftParen opens (by decide)
    · exact ih token member
    · exact not_finish_of_kind token .rightParen closes (by decide)
  | call name function opening argument closing names opens closes ih =>
    intro token member
    simp only [tokens, List.mem_cons, List.mem_append, List.not_mem_nil, or_false] at member
    rcases member with rfl | rfl | member | rfl
    · exact not_finish_of_some Trig.ofKind? rfl token function names
    · exact not_finish_of_kind token .leftParen opens (by decide)
    · exact ih token member
    · exact not_finish_of_kind token .rightParen closes (by decide)
  | bare base ih => exact ih
  | power base caret exponent raises baseIH exponentIH =>
    intro token member
    simp only [tokens, List.mem_append, List.mem_cons] at member
    rcases member with member | rfl | member
    · exact baseIH token member
    · exact not_finish_of_kind token .power raises (by decide)
    · exact exponentIH token member
  | neg minus operand negates ih =>
    intro token member
    simp only [tokens, List.mem_cons] at member
    rcases member with rfl | member
    · exact not_finish_of_kind token .minus negates (by decide)
    · exact ih token member
  | plain operand ih => exact ih
  | single first ih => exact ih
  | product before sign op last joins beforeIH lastIH =>
    intro token member
    simp only [tokens, List.mem_append, List.mem_cons] at member
    rcases member with member | rfl | member
    · exact beforeIH token member
    · exact not_finish_of_some Operator.ofProduct? rfl token op joins
    · exact lastIH token member
  | lone first ih => exact ih
  | sum before sign op last joins beforeIH lastIH =>
    intro token member
    simp only [tokens, List.mem_append, List.mem_cons] at member
    rcases member with member | rfl | member
    · exact beforeIH token member
    · exact not_finish_of_some Operator.ofSum? rfl token op joins
    · exact lastIH token member

/-- No token of a derivation is cut off from the phrase. -/
theorem body_tokens {category : Category} (derivation : Derivation category) :
    body derivation.tokens = derivation.tokens :=
  body_of_ordinary derivation.tokens derivation.tokens_not_finish

theorem body_tokens_append {category : Category} (derivation : Derivation category)
    (token : Token) (rest : List Token) (finish : token.isFinish = true) :
    body (derivation.tokens ++ token :: rest) = derivation.tokens := by
  rw [body_append _ derivation.tokens_not_finish, body_cons_of_finish token finish, List.append_nil]

/-! ## What a derivation costs -/

theorem further_lt_length {category : Category} (derivation : Derivation category) :
    derivation.further < derivation.tokens.length := by
  induction derivation with
  | product before sign op last joins beforeIH _ =>
    simp only [further, tokens, List.length_append, List.length_cons]
    omega
  | sum before sign op last joins beforeIH _ =>
    simp only [further, tokens, List.length_append, List.length_cons]
    omega
  | _ => exact List.length_pos_iff.mpr (tokens_ne_nil _)

/-! ## The levels that a derivation takes -/

theorem chain_cursor_lt_length {first second : Category} (before : Derivation first)
    (last : Derivation second) (sign : Token)
    (beforeInside : ∀ level ∈ before.levels, level.cursor < before.tokens.length)
    (lastInside : ∀ level ∈ last.levels, level.cursor < last.tokens.length) :
    ∀ level ∈ before.levels ++ Level.below (before.further + 1) (before.tokens.length + 1)
        (before.tokens.length + 1) last.levels,
      level.cursor < (before.tokens ++ sign :: last.tokens).length := by
  have nonempty := List.length_pos_iff.mpr last.tokens_ne_nil
  simp only [Level.below, List.forall_mem_append, List.forall_mem_cons, List.forall_mem_map,
    Level.shift, List.length_append, List.length_cons]
  refine ⟨fun level member => ?_, by omega, fun level member => ?_⟩
  · have := beforeInside level member
    omega
  · have := lastInside level member
    omega

theorem cursor_lt_length {category : Category} (derivation : Derivation category) :
    ∀ level ∈ derivation.levels, level.cursor < derivation.tokens.length := by
  induction derivation with
  | leaf token tree reads => simp
  | group opening inner closing opens closes ih =>
    simp only [levels, tokens, List.forall_mem_map, Level.shift, List.length_cons,
      List.length_append]
    intro level member
    have := ih level member
    omega
  | call name function opening argument closing names opens closes ih =>
    simp only [levels, tokens, List.forall_mem_map, Level.shift, List.length_cons,
      List.length_append]
    intro level member
    have := ih level member
    omega
  | bare base ih => exact ih
  | power base caret exponent raises baseIH exponentIH =>
    simp only [levels, tokens, List.forall_mem_append, List.forall_mem_map, Level.shift,
      List.length_append, List.length_cons]
    refine ⟨fun level member => ?_, fun level member => ?_⟩
    · have := baseIH level member
      omega
    · have := exponentIH level member
      omega
  | neg minus operand negates ih =>
    simp only [levels, Level.below, tokens, List.forall_mem_cons, List.forall_mem_map,
      Level.shift, List.length_cons]
    refine ⟨by omega, fun level member => ?_⟩
    have := ih level member
    omega
  | plain operand ih =>
    simp only [levels, Level.below, tokens, List.forall_mem_cons, List.forall_mem_map,
      Level.shift]
    refine ⟨List.length_pos_iff.mpr operand.tokens_ne_nil, fun level member => ?_⟩
    have := ih level member
    omega
  | single first ih => exact ih
  | product before sign op last joins beforeIH lastIH =>
    exact chain_cursor_lt_length before last sign beforeIH lastIH
  | lone first ih => exact ih
  | sum before sign op last joins beforeIH lastIH =>
    exact chain_cursor_lt_length before last sign beforeIH lastIH

/-- The deepest level of a phrase is as deep as the phrase is costly. -/
theorem depth_le_iff {category : Category} (derivation : Derivation category) (room : Nat) :
    (∀ level ∈ derivation.levels, level.depth ≤ room) ↔ derivation.cost ≤ room := by
  induction derivation generalizing room with
  | leaf token tree reads => simp
  | group opening inner closing opens closes ih =>
    simp only [levels, cost, List.forall_mem_map, Level.shift, Nat.zero_add, ih]
  | call name function opening argument closing names opens closes ih =>
    simp only [levels, cost, List.forall_mem_map, Level.shift, Nat.zero_add, ih]
  | bare base ih => exact ih room
  | power base caret exponent raises baseIH exponentIH =>
    simp only [levels, cost, List.forall_mem_append, List.forall_mem_map, Level.shift,
      Nat.zero_add, baseIH, exponentIH, Nat.max_le]
  | neg minus operand negates ih => exact Level.forall_depth_below operand.levels operand.cost ih ..
  | plain operand ih => exact Level.forall_depth_below operand.levels operand.cost ih ..
  | single first ih => exact ih room
  | product before sign op last joins beforeIH lastIH =>
    rw [levels, List.forall_mem_append, beforeIH, Level.forall_depth_below _ _ lastIH, cost,
      Nat.max_le]
  | lone first ih => exact ih room
  | sum before sign op last joins beforeIH lastIH =>
    rw [levels, List.forall_mem_append, beforeIH, Level.forall_depth_below _ _ lastIH, cost,
      Nat.max_le]

/-- The operands of a chain before its last one have a token each. -/
theorem chain_depth_le_cursor {first second : Category} (before : Derivation first)
    (last : Derivation second)
    (beforeBound : ∀ level ∈ before.levels, level.depth ≤ level.cursor + 1)
    (lastBound : ∀ level ∈ last.levels, level.depth ≤ level.cursor + 1) :
    ∀ level ∈ before.levels ++ Level.below (before.further + 1) (before.tokens.length + 1)
        (before.tokens.length + 1) last.levels,
      level.depth ≤ level.cursor + 1 := by
  have operands := before.further_lt_length
  simp only [Level.below, List.forall_mem_append, List.forall_mem_cons, List.forall_mem_map,
    Level.shift]
  refine ⟨beforeBound, by omega, fun level member => ?_⟩
  have := lastBound level member
  omega

/-- No level is deeper than the number of tokens up to it. In primaries and factors a token is left
over: the unary around them takes its level there. -/
theorem depth_le_cursor_of_inner {category : Category} (derivation : Derivation category) :
    (∀ level ∈ derivation.levels, level.depth ≤ level.cursor + 1) ∧
      (category = .primary ∨ category = .factor →
        ∀ level ∈ derivation.levels, level.depth ≤ level.cursor) := by
  induction derivation with
  | leaf token tree reads => simp
  | group opening inner closing opens closes ih =>
    have shallow : ∀ level ∈ (group opening inner closing opens closes).levels,
        level.depth ≤ level.cursor := by
      simp only [levels, List.forall_mem_map, Level.shift]
      intro level member
      have := ih.1 level member
      omega
    exact ⟨fun level member => Nat.le_succ_of_le (shallow level member), fun _ => shallow⟩
  | call name function opening argument closing names opens closes ih =>
    have shallow : ∀ level ∈
        (call name function opening argument closing names opens closes).levels,
        level.depth ≤ level.cursor := by
      simp only [levels, List.forall_mem_map, Level.shift]
      intro level member
      have := ih.1 level member
      omega
    exact ⟨fun level member => Nat.le_succ_of_le (shallow level member), fun _ => shallow⟩
  | bare base ih => exact ⟨ih.1, fun _ => ih.2 (Or.inl rfl)⟩
  | power base caret exponent raises baseIH exponentIH =>
    have shallow : ∀ level ∈ (power base caret exponent raises).levels,
        level.depth ≤ level.cursor := by
      simp only [levels, List.forall_mem_append, List.forall_mem_map, Level.shift]
      refine ⟨baseIH.2 (Or.inl rfl), fun level member => ?_⟩
      have := exponentIH.1 level member
      omega
    exact ⟨fun level member => Nat.le_succ_of_le (shallow level member), fun _ => shallow⟩
  | neg minus operand negates ih =>
    refine ⟨?_, by simp⟩
    simp only [levels, Level.below, List.forall_mem_cons, List.forall_mem_map, Level.shift]
    refine ⟨by omega, fun level member => ?_⟩
    have := ih.1 level member
    omega
  | plain operand ih =>
    refine ⟨?_, by simp⟩
    simp only [levels, Level.below, List.forall_mem_cons, List.forall_mem_map, Level.shift]
    refine ⟨by omega, fun level member => ?_⟩
    have := ih.2 (Or.inr rfl) level member
    omega
  | single first ih => exact ⟨ih.1, by simp⟩
  | product before sign op last joins beforeIH lastIH =>
    exact ⟨chain_depth_le_cursor before last beforeIH.1 lastIH.1, by simp⟩
  | lone first ih => exact ⟨ih.1, by simp⟩
  | sum before sign op last joins beforeIH lastIH =>
    exact ⟨chain_depth_le_cursor before last beforeIH.1 lastIH.1, by simp⟩

theorem depth_le_cursor {category : Category} (derivation : Derivation category) :
    ∀ level ∈ derivation.levels, level.depth ≤ level.cursor + 1 :=
  derivation.depth_le_cursor_of_inner.1

theorem cost_le_length {category : Category} (derivation : Derivation category) :
    derivation.cost ≤ derivation.tokens.length := by
  apply (derivation.depth_le_iff _).mp
  intro level member
  have := derivation.depth_le_cursor level member
  have := derivation.cursor_lt_length level member
  omega

end Derivation
end Grammar
end Formula
