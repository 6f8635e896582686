import Formula.Calculation
import Formula.Proofs.Display.RoundTrip
import Formula.Proofs.Expr.Arithmetic
import Formula.Proofs.Grammar.Position

/-!
# Calculations that are put together

A text that is read as an expression is read in the same way inside parentheses, wherever they
stand in a larger text, and costs the same levels there. So the value of a text that joins two
texts in parentheses by an operator, that negates one or applies a function to it, comes from the
values of these texts, and the first failure among them is its failure.
-/

set_option autoImplicit false

namespace Formula

open Token Grammar Display

/-- What becomes of an operator by what becomes of its operands: the first failure is passed on,
and a quotient by zero is refused. -/
def Operator.join (op : Operator) :
    Except Failure Float → Except Failure Float → Except Failure Float
  | .error failure, _ => .error failure
  | .ok _, .error failure => .error failure
  | .ok left, .ok right =>
    if op = .div ∧ IsZero right then .error (.evaluation .divisionByZero)
    else .ok (op.result left right)

namespace Calculation

/-! ## A text within another one -/

theorem ofText_eq_ok_iff (limit : Nat) (text : String) (tree : Expr) :
    Expr.ofText limit text = .ok tree ↔
      ∃ tokens, tokenize text = .ok tokens ∧ Expr.ofTokens limit tokens = .ok tree := by
  cases scanned : tokenize text with
  | error error => simp [Expr.ofText, scanned]
  | ok tokens =>
    cases reading : Expr.ofTokens limit tokens with
    | error error => simp [Expr.ofText, scanned, reading]
    | ok other => simp [Expr.ofText, scanned, reading]

theorem ofText_mono (text : String) (tree : Expr) (low high : Nat) (below : low ≤ high)
    (accepted : Expr.ofText low text = .ok tree) : Expr.ofText high text = .ok tree := by
  obtain ⟨tokens, scanned, reading⟩ := (ofText_eq_ok_iff low text tree).mp accepted
  obtain ⟨phrase, covers, same, enough⟩ := (ofTokens_eq_ok_iff tokens low tree).mp reading
  refine (ofText_eq_ok_iff high text tree).mpr ⟨tokens, scanned, ?_⟩
  exact (ofTokens_eq_ok_iff tokens high tree).mpr
    ⟨phrase, covers, same, Nat.le_trans enough below⟩

/-- In front of a blank or a symbol a text is scanned as on its own, only from another place on. -/
theorem lexes_text (text : String) (tokens : List Token) (scanned : tokenize text = .ok tokens)
    (rest : List Char) (apart : Apart rest) (position : Nat) :
    Lexes text.toList ((body tokens).map (Token.move (· + position))) rest position
      (position + text.toList.length) := by
  have alone := (tokenize_eq_ok_iff text tokens).mp scanned
  have moved := scan_move position 0 text.toList
  rw [Nat.zero_add, alone] at moved
  unfold Lexes
  rw [scan_append text.toList rest apart, moved, ← body_move]
  rfl

theorem reads_text (limit : Nat) (text : String) (tree : Expr)
    (accepted : Expr.ofText limit text = .ok tree) :
    ∃ levels ≤ limit, ∀ rest, Apart rest → ReadsExpression text.toList rest tree levels := by
  obtain ⟨tokens, scanned, reading⟩ := (ofText_eq_ok_iff limit text tree).mp accepted
  obtain ⟨phrase, covers, rfl, enough⟩ := (ofTokens_eq_ok_iff tokens limit tree).mp reading
  refine ⟨phrase.cost, enough, ?_⟩
  intro rest apart position
  have lexes := lexes_text text tokens scanned rest apart position
  obtain ⟨moved, same, sameTree, sameCost⟩ := phrase.exists_move (· + position)
  rw [← covers, ← same] at lexes
  exact ⟨moved, _, lexes, sameTree, sameCost⟩

theorem reads_group (limit : Nat) (text : String) (tree : Expr)
    (accepted : Expr.ofText limit text = .ok tree) :
    ∃ levels ≤ limit, ∀ rest, Reads ('(' :: (text.toList ++ [')'])) rest tree (1 + levels) := by
  obtain ⟨levels, enough, reads⟩ := reads_text limit text tree accepted
  refine ⟨levels, enough, ?_⟩
  intro rest
  exact reads_enclosed _ rest tree levels (reads _ (apart_of_symbol ')' rest .rightParen rfl))

/-- What reads as an expression within a text is the tree of a text of its own. -/
theorem ofText_of_reads (text : String) (tree : Expr) (levels limit : Nat)
    (reads : ReadsExpression text.toList [] tree levels) (enough : levels ≤ limit) :
    Expr.ofText limit text = .ok tree := by
  obtain ⟨phrase, after, scanned, rfl, rfl⟩ := reads.scanned
  have derived := (phrase.body_tokens_append (Token.atEnd after) [] rfl).symm
  exact (ofText_eq_ok_iff limit text phrase.tree).mpr
    ⟨_, scanned, ofTokens_of_cost_le _ phrase derived limit enough⟩

/-! ## Texts that are put together -/

/-- Nothing has to stand between an operator and its operands. -/
theorem reads_adjoined (op : Operator) (text text' rest : List Char) (left right : Expr)
    (levels levels' : Nat) (first : Reads text (op.symbol :: (text' ++ rest)) left levels)
    (second : Reads text' rest right levels') :
    ReadsExpression (text ++ op.symbol :: text') rest (.binary op left right)
      (max levels (1 + levels')) := by
  intro position
  obtain ⟨phrase, middle, front, rfl, rfl⟩ := first position
  obtain ⟨phrase', after, back, rfl, rfl⟩ := second (middle + 1)
  obtain ⟨sign, is⟩ : ∃ sign : Token,
      sign = ⟨operatorKind op, String.ofList [op.symbol], middle⟩ := ⟨_, rfl⟩
  have joint := lexes_symbol op.symbol _ (ofSymbol?_symbol op) (text' ++ rest) middle
  have whole := Lexes.append front (Lexes.append joint back)
  rw [← is] at whole
  by_cases power : op = .pow
  · subst power
    have raises : sign.kind = .power := by rw [is]; rfl
    refine ⟨alone (.plain (.power phrase sign (.plain (.bare phrase')) raises)), after, whole, rfl,
      ?_⟩
    simp only [alone, Derivation.cost]
    omega
  · have joins : sign.kind = operatorKind op := by rw [is]
    refine ⟨joined (.plain (.bare phrase)) (.plain (.bare phrase')) sign op joins power, after, ?_,
      joined_tree _ _ _ _ _ _, ?_⟩
    · rw [joined_tokens]
      exact whole
    · rw [joined_cost]
      simp only [Derivation.cost]
      omega

theorem ofText_binary (limit : Nat) (a b : String) (left right : Expr) (op : Operator)
    (first : Expr.ofText limit a = .ok left) (second : Expr.ofText limit b = .ok right) :
    Expr.ofText (limit + 2) ("(" ++ a ++ ")" ++ op.symbol.toString ++ "(" ++ b ++ ")") =
      .ok (.binary op left right) := by
  obtain ⟨levels, enough, reads⟩ := reads_group limit a left first
  obtain ⟨levels', enough', reads'⟩ := reads_group limit b right second
  apply ofText_of_reads _ _ (max (1 + levels) (1 + (1 + levels')))
  · have spelled : ("(" ++ a ++ ")" ++ op.symbol.toString ++ "(" ++ b ++ ")").toList =
        '(' :: (a.toList ++ [')']) ++ op.symbol :: '(' :: (b.toList ++ [')']) := by simp
    rw [spelled]
    exact reads_adjoined op _ _ [] left right _ _ (reads _) (reads' [])
  · omega

theorem ofText_neg (limit : Nat) (a : String) (operand : Expr)
    (accepted : Expr.ofText limit a = .ok operand) :
    Expr.ofText (limit + 2) ("-(" ++ a ++ ")") = .ok (.neg operand) := by
  obtain ⟨levels, enough, reads⟩ := reads_group limit a operand accepted
  apply ofText_of_reads _ _ (1 + (1 + levels))
  · have spelled : ("-(" ++ a ++ ")").toList = '-' :: '(' :: (a.toList ++ [')']) := by simp
    rw [spelled]
    exact (reads []).unary.minus.expression
  · omega

theorem ofText_call (limit : Nat) (a : String) (argument : Expr) (function : Trig)
    (accepted : Expr.ofText limit a = .ok argument) :
    Expr.ofText (limit + 1) (function.name ++ "(" ++ a ++ ")") = .ok (.call function argument) := by
  obtain ⟨levels, enough, reads⟩ := reads_text limit a argument accepted
  apply ofText_of_reads _ _ (1 + levels)
  · have spelled : (function.name ++ "(" ++ a ++ ")").toList =
        function.name.toList ++ '(' :: (a.toList ++ [')']) := by simp
    have inner := reads [')'] (apart_of_symbol ')' [] .rightParen rfl)
    rw [spelled]
    exact (reads_call function a.toList [] argument levels inner).unary.expression
  · omega

/-! ## Values -/

theorem calculate_of_ofText (env : Environment) (text : String) (tree : Expr)
    (accepted : Expr.ofText Expr.defaultLimit text = .ok tree) :
    calculate env text = (tree.eval env).mapError .evaluation := by
  simp only [calculate, accepted]
  cases tree.eval env <;> rfl

theorem eval_binary (env : Environment) (op : Operator) (left right : Expr) :
    ((Expr.binary op left right).eval env).mapError .evaluation =
      op.join ((left.eval env).mapError .evaluation) ((right.eval env).mapError .evaluation) := by
  cases first : left.eval env with
  | error error => simp only [Expr.eval, first, Except.mapError, Operator.join]
  | ok x =>
    cases second : right.eval env with
    | error error => simp only [Expr.eval, first, second, Except.mapError, Operator.join]
    | ok y =>
      simp only [Expr.eval, first, second, Except.mapError, Operator.join, Operator.apply_eq]
      by_cases refused : op = .div ∧ IsZero y
      · rw [if_pos refused, if_pos refused]
      · rw [if_neg refused, if_neg refused]

theorem eval_neg (env : Environment) (operand : Expr) :
    ((Expr.neg operand).eval env).mapError Failure.evaluation =
      ((operand.eval env).mapError Failure.evaluation).map (-·) := by
  cases inner : operand.eval env <;> simp only [Expr.eval, inner] <;> rfl

theorem eval_call (env : Environment) (function : Trig) (argument : Expr) :
    ((Expr.call function argument).eval env).mapError Failure.evaluation =
      ((argument.eval env).mapError Failure.evaluation).map function.apply := by
  cases inner : argument.eval env <;> simp only [Expr.eval, inner] <;> rfl

/-- The margin of two levels is that of an operator whose second operand is in parentheses. -/
theorem calculate_composes (env : Environment) (a : String) (left : Expr)
    (first : Expr.ofText 254 a = .ok left) :
    (∀ failure, calculate env a = .error failure → ∃ error, failure = .evaluation error) ∧
    (∀ (b : String) (right : Expr) (op : Operator), Expr.ofText 254 b = .ok right →
      calculate env ("(" ++ a ++ ")" ++ op.symbol.toString ++ "(" ++ b ++ ")") =
        op.join (calculate env a) (calculate env b)) ∧
    calculate env ("-(" ++ a ++ ")") = (calculate env a).map (-·) ∧
    ∀ function : Trig, calculate env (function.name ++ "(" ++ a ++ ")") =
      (calculate env a).map function.apply := by
  have value : ∀ (text : String) (tree : Expr), Expr.ofText 254 text = .ok tree →
      calculate env text = (tree.eval env).mapError .evaluation := by
    intro text tree accepted
    exact calculate_of_ofText env text tree (ofText_mono text tree 254 256 (by decide) accepted)
  have operand := value a left first
  refine ⟨?_, ?_, ?_, ?_⟩
  · intro failure fails
    rw [operand] at fails
    cases inner : left.eval env with
    | ok x =>
      rw [inner] at fails
      cases fails
    | error error =>
      rw [inner] at fails
      cases fails
      exact ⟨error, rfl⟩
  · intro b right op second
    rw [calculate_of_ofText env _ _ (ofText_binary 254 a b left right op first second),
      eval_binary, operand, value b right second]
  · rw [calculate_of_ofText env _ _ (ofText_neg 254 a left first), eval_neg, operand]
  · intro function
    have accepted := ofText_mono _ _ 255 256 (by decide) (ofText_call 254 a left function first)
    rw [calculate_of_ofText env _ _ accepted, eval_call, operand]

def minusZero : Float := Float.ofBits 0x8000000000000000

def bindingMinusZero : Environment := (∅ : Environment).insert "x" minusZero

theorem quotients_of_minus_zero :
    Expr.ofText 254 "x" = .ok (.var "x") ∧
    Expr.ofText 254 "y+1" =
      .ok (.binary .add (.var "y") (.number (Float.ofBits 0x3ff0000000000000))) ∧
    calculate bindingMinusZero "(x)/(y+1)" = .error (.evaluation (.undefinedVariable "y")) ∧
    calculate bindingMinusZero "(x)/(x)" = .error (.evaluation .divisionByZero) ∧
    calculate bindingMinusZero "-(x)" = .ok (-minusZero) ∧
    calculate bindingMinusZero "cos(x)" = .ok minusZero.cos := by
  have variableX : Expr.ofText 254 "x" = .ok (.var "x") := by decide +kernel
  have sum : Expr.ofText 254 "y+1" =
      .ok (.binary .add (.var "y") (.number (Float.ofBits 0x3ff0000000000000))) := by
    decide +kernel
  have value : calculate bindingMinusZero "x" = .ok minusZero := by decide +kernel
  have unbound : calculate bindingMinusZero "y+1" =
      .error (.evaluation (.undefinedVariable "y")) := by decide +kernel
  obtain ⟨-, joins, negated, applied⟩ := calculate_composes bindingMinusZero "x" _ variableX
  have bySum := joins "y+1" _ .div sum
  have byItself := joins "x" _ .div variableX
  have cosine := applied .cos
  rw [value, unbound] at bySum
  rw [value] at byItself negated cosine
  exact ⟨variableX, sum, bySum, byItself.trans (by decide), negated, cosine⟩

end Calculation

end Formula
