import Formula.Expr.Evaluation
import Formula.Proofs.Binary64.Sign
import Formula.Proofs.Display.RoundTrip

/-!
# The text of signed numbers

The text of a number whose sign bit is set, a signed number, starts with a minus sign and has no
parentheses of its own. It is read as a negation; where the number is the base of a power, as the
negation of the whole power. Everywhere else the value stays the same. Such a power keeps its value
only if taking the sign off its base negates it.
-/

set_option autoImplicit false

namespace Formula

open Character Token Grammar

namespace Expr

def Named : Expr → Prop
  | .number _ => True
  | .var name => IsVariable name
  | .neg operand => operand.Named
  | .binary _ left right => left.Named ∧ right.Named
  | .call _ argument => argument.Named

def isSigned : Expr → Bool
  | .number value => Binary64.isNegative value
  | _ => false

def unsigned : Expr → Expr
  | .number value => .number (Binary64.ofMagnitude false (Binary64.magnitude value))
  | e => e

/-- The tree as which the text of a tree is read: a minus sign in front of a number is a negation
of what the grammar lets it apply to. -/
def reread : Expr → Expr
  | .number value =>
    if isSigned (.number value) then .neg (unsigned (.number value)) else .number value
  | .var name => .var name
  | .neg operand => .neg operand.reread
  | .binary op left right =>
    if op = .pow ∧ left.isSigned then .neg (.binary .pow left.unsigned right.reread)
    else .binary op left.reread right.reread
  | .call function argument => .call function argument.reread

def rereadLevels : Expr → Nat
  | .number value => if isSigned (.number value) then 2 else 1
  | .var _ => 1
  | .neg operand => 2 + operand.rereadLevels
  | .binary op left right =>
    if op = .pow ∧ left.isSigned then 3 + right.rereadLevels
    else 1 + max left.rereadLevels (1 + right.rereadLevels)
  | .call _ argument => 1 + argument.rereadLevels

/-- Raising a signed number to the value of the exponent, if there is one, is negating the power of
the number without its sign. -/
def SignPasses (env : Environment) (base : Float) (exponent : Expr) : Prop :=
  ∀ value, exponent.eval env = .ok value →
    base.pow value = -(Binary64.ofMagnitude false (Binary64.magnitude base)).pow value

def SignsPass (env : Environment) : Expr → Prop
  | .number _ => True
  | .var _ => True
  | .neg operand => operand.SignsPass env
  | .binary op left right =>
    left.SignsPass env ∧ right.SignsPass env ∧
      (op = .pow → ∀ base, left = .number base → Binary64.isNegative base = true →
        SignPasses env base right)
  | .call _ argument => argument.SignsPass env

end Expr

namespace Display

/-! ## Reading -/

theorem toList_signed (value : Float) (negative : Binary64.isNegative value = true)
    (finite : Binary64.magnitude value < Binary64.infinite) :
    (Expr.number value).display.toList =
      '-' :: Decimal.magnitudeText (Binary64.magnitude value) :=
  Decimal.text_of_negative value negative (Nat.le_of_lt finite)

theorem reads_unsigned (value : Float) (clear : Binary64.isNegative value = false)
    (finite : Binary64.magnitude value < Binary64.infinite) (rest : List Char)
    (ends : Ends rest) :
    Reads (Expr.number value).display.toList rest (.number value) 1 := by
  have reads := reads_magnitude (Binary64.magnitude value) finite rest ends
  rw [Decimal.ofMagnitude_magnitude value clear] at reads
  rw [Expr.display, Decimal.text_toList value clear (Nat.le_of_lt finite)]
  exact reads

theorem readsUnary_of_reads (e : Expr) (finite : e.Finite) (rest : List Char) (ends : Ends rest)
    (primary : e.isSigned = false → Reads e.display.toList rest e.reread e.rereadLevels) :
    ReadsUnary e.display.toList rest e.reread e.rereadLevels := by
  -- a text that starts with a minus sign is no primary
  cases signed : e.isSigned with
  | false => exact (primary signed).unary
  | true =>
    cases e with
    | number value =>
      have below : Binary64.magnitude value < Binary64.infinite := of_decide_eq_true finite
      have reads := (reads_magnitude (Binary64.magnitude value) below rest ends).unary.minus
      rw [toList_signed value signed below, Expr.reread, Expr.rereadLevels, if_pos signed,
        if_pos signed]
      exact reads
    | _ => cases signed

theorem reads_signed_power (base : Float) (negative : Binary64.isNegative base = true)
    (finite : Binary64.magnitude base < Binary64.infinite) (text rest : List Char)
    (exponent : Expr) (levels : Nat) (reads : ReadsUnary text (')' :: rest) exponent levels) :
    Reads ('(' :: (((Expr.number base).display.toList ++ ' ' :: '^' :: ' ' :: text) ++ [')'])) rest
      (.neg (.binary .pow (.number (Binary64.ofMagnitude false (Binary64.magnitude base)))
        exponent)) (3 + levels) := by
  have first := reads_magnitude (Binary64.magnitude base) finite
    (' ' :: '^' :: ' ' :: (text ++ ')' :: rest)) (ends_blank _)
  -- the power is read first, and then the minus sign in front of it
  have power := (reads_power _ text (')' :: rest) _ exponent 1 levels first reads).minus.enclosed
  have cost : 1 + (1 + max 1 (1 + levels)) = 3 + levels := by omega
  rw [toList_signed base negative finite]
  rwa [cost] at power

theorem reads_reread (e : Expr) (finite : e.Finite) (named : e.Named) (rest : List Char)
    (ends : Ends rest) (primary : e.isSigned = false) :
    Reads e.display.toList rest e.reread e.rereadLevels := by
  induction e generalizing rest with
  | number value =>
    have below : Binary64.magnitude value < Binary64.infinite := of_decide_eq_true finite
    have reads := reads_unsigned value primary below rest ends
    rwa [Expr.reread, Expr.rereadLevels, if_neg (by simp [primary]), if_neg (by simp [primary])]
  | var name => exact reads_variable name named rest ends
  | neg operand ih =>
    rw [display_neg]
    exact reads_neg _ rest _ _ (readsUnary_of_reads operand finite _ (ends_closing rest)
      (ih finite named _ (ends_closing rest)))
  | binary op left right leftIH rightIH =>
    have second := readsUnary_of_reads right finite.2 _ (ends_closing rest)
      (rightIH finite.2 named.2 _ (ends_closing rest))
    have first := leftIH finite.1 named.1
      (' ' :: op.symbol :: ' ' :: (right.display.toList ++ ')' :: rest)) (ends_blank _)
    rw [display_binary, Expr.reread, Expr.rereadLevels]
    by_cases signed : op = .pow ∧ left.isSigned
    · rw [if_pos signed, if_pos signed]
      obtain ⟨rfl, negative⟩ := signed
      cases left with
      | number base =>
        exact reads_signed_power base negative (of_decide_eq_true finite.1) _ rest _ _ second
      | _ => cases negative
    · rw [if_neg signed, if_neg signed]
      by_cases power : op = .pow
      · have clear : left.isSigned = false := by simpa [power] using signed
        exact reads_binary op _ _ rest _ _ _ _ (first clear) second
      · exact reads_joined op power _ _ rest _ _ _ _
          (readsUnary_of_reads left finite.1 _ (ends_blank _) first) second
  | call function argument ih =>
    rw [display_call]
    have inner := readsUnary_of_reads argument finite _ (ends_closing rest)
      (ih finite named _ (ends_closing rest))
    exact reads_call function _ rest _ _ inner.expression

/-! ## Evaluating -/

theorem eval_signed (value : Float) (negative : Binary64.isNegative value = true)
    (finite : Binary64.magnitude value < Binary64.infinite) (env : Environment) :
    (Expr.neg (.number (Binary64.ofMagnitude false (Binary64.magnitude value)))).eval env =
      (Expr.number value).eval env := by
  have turned : -Binary64.ofMagnitude false (Binary64.magnitude value) = value :=
    Binary64.ofMagnitude_of_negative value negative finite
  simp only [Expr.eval, turned]

/-- The value of a power with a signed base stays the same where the sign passes through it, and
only there. -/
theorem eval_signed_power (env : Environment) (base : Float) (exponent exponent' : Expr)
    (same : exponent'.eval env = exponent.eval env) :
    (Expr.neg (.binary .pow (.number (Binary64.ofMagnitude false (Binary64.magnitude base)))
      exponent')).eval env = (Expr.binary .pow (.number base) exponent).eval env ↔
        exponent.SignPasses env base := by
  simp only [Expr.SignPasses, Expr.eval, same]
  cases exponent.eval env with
  | error error => simp
  | ok value => simp [Operator.apply, eq_comm]

theorem eval_reread (e : Expr) (finite : e.Finite) (env : Environment)
    (pass : e.SignsPass env) : e.reread.eval env = e.eval env := by
  induction e with
  | number value =>
    by_cases signed : (Expr.number value).isSigned = true
    · rw [Expr.reread, if_pos signed]
      exact eval_signed value signed (of_decide_eq_true finite) env
    · rw [Expr.reread, if_neg signed]
  | var name => rfl
  | neg operand ih => simp only [Expr.reread, Expr.eval, ih finite pass]
  | binary op left right leftIH rightIH =>
    obtain ⟨leftPass, rightPass, passes⟩ := pass
    have second := rightIH finite.2 rightPass
    rw [Expr.reread]
    by_cases signed : op = .pow ∧ left.isSigned
    · rw [if_pos signed]
      obtain ⟨rfl, negative⟩ := signed
      cases left with
      | number base =>
        exact (eval_signed_power env base right right.reread second).mpr
          (passes rfl base rfl negative)
      | _ => cases negative
    · rw [if_neg signed]
      simp only [Expr.eval, leftIH finite.1 leftPass, second]
  | call function argument ih => simp only [Expr.reread, Expr.eval, ih finite pass]

/-! ## The text of a tree with signed numbers -/

theorem display_keeps_value (e : Expr) (finite : e.Finite) (named : e.Named) :
    ∃ tokens, tokenize e.display = .ok tokens ∧
      (∀ limit, e.rereadLevels ≤ limit → Expr.ofTokens limit tokens = .ok e.reread) ∧
      (∀ env, e.SignsPass env → e.reread.eval env = e.eval env) ∧
      ∀ base exponent, e = .binary .pow (.number base) exponent →
        Binary64.isNegative base = true → ∀ env, exponent.SignsPass env →
          (e.reread.eval env = e.eval env ↔ exponent.SignPasses env base) := by
  have reads := readsUnary_of_reads e finite [] ends_nil (reads_reread e finite named [] ends_nil)
  obtain ⟨phrase, after, scanned, same, cost⟩ := reads.expression.scanned
  have derived := (phrase.body_tokens_append (Token.atEnd after) [] rfl).symm
  refine ⟨_, scanned, ?_, eval_reread e finite, ?_⟩
  · intro limit enough
    rw [← same]
    exact ofTokens_of_cost_le _ phrase derived limit (by omega)
  · rintro base exponent rfl negative env pass
    have signed : Operator.pow = .pow ∧ (Expr.number base).isSigned = true := ⟨rfl, negative⟩
    rw [Expr.reread, if_pos signed]
    exact eval_signed_power env base exponent exponent.reread
      (eval_reread exponent finite.2 env pass)

def minusTwo : Float := Float.ofBits 0xc000000000000000

def two : Float := Float.ofBits 0x4000000000000000

def squareOfMinusTwo : Expr := .binary .pow (.number minusTwo) (.number two)

theorem squareOfMinusTwo_reads_as_negated_square :
    squareOfMinusTwo.Finite ∧ squareOfMinusTwo.Named ∧
      ∃ tokens, tokenize squareOfMinusTwo.display = .ok tokens ∧
        Expr.ofTokens 4 tokens = .ok (.neg (.binary .pow (.number two) (.number two))) ∧
        ∀ env, (Expr.neg (.binary .pow (.number two) (.number two))).eval env =
          squareOfMinusTwo.eval env ↔ minusTwo.pow two = -two.pow two := by
  have finite : squareOfMinusTwo.Finite :=
    ⟨show Binary64.isFinite minusTwo = true by decide, show Binary64.isFinite two = true by decide⟩
  have named : squareOfMinusTwo.Named := ⟨trivial, trivial⟩
  have negative : Binary64.isNegative minusTwo = true := by decide
  have read : squareOfMinusTwo.reread = .neg (.binary .pow (.number two) (.number two)) := by decide
  have magnitude : Binary64.ofMagnitude false (Binary64.magnitude minusTwo) = two := by decide
  obtain ⟨tokens, scanned, accepted, -, sharp⟩ := display_keeps_value squareOfMinusTwo finite named
  rw [read] at accepted sharp
  refine ⟨finite, named, tokens, scanned, accepted 4 (by decide), ?_⟩
  intro env
  rw [sharp minusTwo (.number two) rfl negative env trivial]
  constructor
  · intro passes
    have raised := passes two rfl
    rwa [magnitude] at raised
  · rintro equal value ⟨⟩
    rw [magnitude]
    exact equal

end Display

end Formula
