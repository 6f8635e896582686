import Formula.Expr.Display
import Formula.Proofs.Display.Scan
import Formula.Proofs.Grammar.Acceptance

/-!
# Reading the text of a tree

The text of a tree splits into the tokens of a primary, whatever stands behind it. The parentheses
leave nothing to precedence, and so the grammar gives the tree back; only an infinite number comes
back as the variable whose name is its text. A pair of parentheses costs the levels of what it
encloses, and from them follows the limit that a text needs.
-/

set_option autoImplicit false

namespace Formula

open Character Token Grammar

namespace Expr

def IsVariable (name : String) : Prop := IsName name ∧ name ∉ keywords

/-- A tree whose numbers are neither negative nor no number, and whose names can be read. -/
def Printable : Expr → Prop
  | .number value =>
    Binary64.magnitude value ≤ Binary64.infinite ∧ Binary64.isNegative value = false
  | .var name => IsVariable name
  | .neg operand => operand.Printable
  | .binary _ left right => left.Printable ∧ right.Printable
  | .call _ argument => argument.Printable

def Finite : Expr → Prop
  | .number value => Binary64.isFinite value = true
  | .var _ => True
  | .neg operand => operand.Finite
  | .binary _ left right => left.Finite ∧ right.Finite
  | .call _ argument => argument.Finite

/-- The tree with the variable `inf` in place of each infinite number. -/
def nameInfinity : Expr → Expr
  | .number value =>
    if Binary64.magnitude value = Binary64.infinite then .var "inf" else .number value
  | .var name => .var name
  | .neg operand => .neg operand.nameInfinity
  | .binary op left right => .binary op left.nameInfinity right.nameInfinity
  | .call function argument => .call function argument.nameInfinity

/-- The levels that reading the text of a tree takes. -/
def displayLevels : Expr → Nat
  | .number _ => 1
  | .var _ => 1
  | .neg operand => 2 + operand.displayLevels
  | .binary _ left right => 1 + max left.displayLevels (1 + right.displayLevels)
  | .call _ argument => 1 + argument.displayLevels

end Expr

namespace Display

/-! ## Phrases in parentheses -/

def operatorKind : Operator → Kind
  | .add => .plus
  | .sub => .minus
  | .mul => .times
  | .div => .divide
  | .pow => .power

theorem ofSymbol?_symbol (op : Operator) : Kind.ofSymbol? op.symbol = some (operatorKind op) := by
  cases op <;> rfl

def alone (phrase : Derivation .unary) : Derivation .expression := .lone (.single phrase)

def joined (left right : Derivation .unary) (sign : Token) :
    (op : Operator) → (joins : sign.kind = operatorKind op) → op ≠ .pow → Derivation .expression
  | .add, joins, _ => .sum (alone left) sign .add (.single right) (by rw [joins]; rfl)
  | .sub, joins, _ => .sum (alone left) sign .sub (.single right) (by rw [joins]; rfl)
  | .mul, joins, _ => .lone (.product (.single left) sign .mul right (by rw [joins]; rfl))
  | .div, joins, _ => .lone (.product (.single left) sign .div right (by rw [joins]; rfl))
  | .pow, _, ordinary => absurd rfl ordinary

theorem joined_tokens (left right : Derivation .unary) (sign : Token) (op : Operator)
    (joins : sign.kind = operatorKind op) (ordinary : op ≠ .pow) :
    (joined left right sign op joins ordinary).tokens = left.tokens ++ sign :: right.tokens := by
  cases op with
  | pow => exact absurd rfl ordinary
  | _ => rfl

theorem joined_tree (left right : Derivation .unary) (sign : Token) (op : Operator)
    (joins : sign.kind = operatorKind op) (ordinary : op ≠ .pow) :
    (joined left right sign op joins ordinary).tree = .binary op left.tree right.tree := by
  cases op with
  | pow => exact absurd rfl ordinary
  | _ => rfl

theorem joined_cost (left right : Derivation .unary) (sign : Token) (op : Operator)
    (joins : sign.kind = operatorKind op) (ordinary : op ≠ .pow) :
    (joined left right sign op joins ordinary).cost = max left.cost (1 + right.cost) := by
  cases op with
  | pow => exact absurd rfl ordinary
  | _ => simp only [joined, alone, Derivation.cost, Derivation.further]

/-! ## The tokens of a text -/

/-- Wherever it stands, the text of `tree` is the tokens of a primary that derives `tree`. -/
def Reads (text rest : List Char) (tree : Expr) (levels : Nat) : Prop :=
  ∀ position, ∃ (phrase : Derivation .primary) (after : Nat),
    Lexes text phrase.tokens rest position after ∧ phrase.tree = tree ∧ phrase.cost + 1 = levels

def ReadsUnary (text rest : List Char) (tree : Expr) (levels : Nat) : Prop :=
  ∀ position, ∃ (phrase : Derivation .unary) (after : Nat),
    Lexes text phrase.tokens rest position after ∧ phrase.tree = tree ∧ phrase.cost = levels

def ReadsExpression (text rest : List Char) (tree : Expr) (levels : Nat) : Prop :=
  ∀ position, ∃ (phrase : Derivation .expression) (after : Nat),
    Lexes text phrase.tokens rest position after ∧ phrase.tree = tree ∧ phrase.cost = levels

theorem Reads.unary {text rest : List Char} {tree : Expr} {levels : Nat}
    (reads : Reads text rest tree levels) : ReadsUnary text rest tree levels := by
  intro position
  obtain ⟨phrase, after, lexes, same, rfl⟩ := reads position
  refine ⟨.plain (.bare phrase), after, lexes, same, ?_⟩
  simp only [Derivation.cost]
  omega

theorem ReadsUnary.expression {text rest : List Char} {tree : Expr} {levels : Nat}
    (reads : ReadsUnary text rest tree levels) : ReadsExpression text rest tree levels := by
  intro position
  obtain ⟨phrase, after, lexes, same, cost⟩ := reads position
  exact ⟨alone phrase, after, lexes, same, cost⟩

theorem ends_nil : Ends [] := by
  intro c front
  cases front

theorem ends_blank (rest : List Char) : Ends (' ' :: rest) := by
  intro c front
  cases front
  exact Or.inl rfl

theorem ends_closing (rest : List Char) : Ends (')' :: rest) := by
  intro c front
  cases front
  exact Or.inr rfl

theorem reads_variable (name : String) (valid : Expr.IsVariable name) (rest : List Char)
    (ends : Ends rest) : Reads name.toList rest (.var name) 1 := by
  intro position
  have stops := ends.stops continuesName (by decide) (by decide)
  have lexes := lexes_name name valid.1 rest stops position
  rw [(Kind.ofName_eq_var_iff name).mpr valid.2] at lexes
  exact ⟨.leaf ⟨.var, name, position⟩ (.var name) rfl, _, lexes, rfl, rfl⟩

theorem isVariable_inf : Expr.IsVariable "inf" :=
  ⟨isName_of_letters "inf" 'i' ['n', 'f'] rfl (by decide), by decide⟩

theorem reads_magnitude (magnitude : Nat) (finite : magnitude < Binary64.infinite)
    (rest : List Char) (ends : Ends rest) :
    Reads (Decimal.magnitudeText magnitude) rest
      (.number (Binary64.ofMagnitude false magnitude)) 1 := by
  intro position
  have numeral := Decimal.magnitudeText_numeral magnitude finite
  have lexes := lexes_numeral _ rest numeral ends position
  have reads : leaf? ⟨.number, String.ofList (Decimal.magnitudeText magnitude), position⟩ =
      some (.number (Binary64.ofMagnitude false magnitude)) := by
    simp only [leaf?, Decimal.read?_magnitudeText magnitude finite, Option.map_some]
  exact ⟨.leaf _ _ reads, _, lexes, rfl, rfl⟩

theorem reads_number (value : Float) (bounded : Binary64.magnitude value ≤ Binary64.infinite)
    (clear : Binary64.isNegative value = false) (rest : List Char) (ends : Ends rest) :
    Reads (Decimal.text value).toList rest (Expr.nameInfinity (.number value)) 1 := by
  by_cases infinite : Binary64.magnitude value = Binary64.infinite
  · rw [Decimal.text_of_infinite value clear infinite, Expr.nameInfinity, if_pos infinite]
    exact reads_variable "inf" isVariable_inf rest ends
  · have reads := reads_magnitude (Binary64.magnitude value) (by omega) rest ends
    rw [Decimal.ofMagnitude_magnitude value clear] at reads
    rw [Decimal.text_toList value clear bounded, Expr.nameInfinity, if_neg infinite]
    exact reads

theorem lexes_enclosed (text rest : List Char) (tokens : List Token) (position after : Nat)
    (inner : Lexes text tokens (')' :: rest) (position + 1) after) :
    Lexes ('(' :: (text ++ [')']))
      (⟨.leftParen, "(", position⟩ :: (tokens ++ [⟨.rightParen, ")", after⟩])) rest position
      (after + 1) := by
  have opening := lexes_symbol '(' .leftParen rfl (text ++ [')'] ++ rest) position
  have closing := lexes_symbol ')' .rightParen rfl rest after
  exact Lexes.append opening (Lexes.append inner closing)

/-- Parentheses turn an expression into a primary and cost nothing themselves. -/
theorem reads_enclosed (text rest : List Char) (tree : Expr) (levels : Nat)
    (inner : ReadsExpression text (')' :: rest) tree levels) :
    Reads ('(' :: (text ++ [')'])) rest tree (1 + levels) := by
  intro position
  obtain ⟨phrase, after, lexes, same, rfl⟩ := inner (position + 1)
  exact ⟨.group ⟨.leftParen, "(", position⟩ phrase ⟨.rightParen, ")", after⟩ rfl rfl, after + 1,
    lexes_enclosed text rest phrase.tokens position after lexes, same, Nat.add_comm _ _⟩

theorem ReadsUnary.enclosed {text rest : List Char} {tree : Expr} {levels : Nat}
    (inner : ReadsUnary text (')' :: rest) tree levels) :
    Reads ('(' :: (text ++ [')'])) rest tree (1 + levels) :=
  reads_enclosed text rest tree levels inner.expression

theorem ReadsUnary.minus {text rest : List Char} {operand : Expr} {levels : Nat}
    (reads : ReadsUnary text rest operand levels) :
    ReadsUnary ('-' :: text) rest (.neg operand) (1 + levels) := by
  intro position
  obtain ⟨phrase, after, lexes, rfl, rfl⟩ := reads (position + 1)
  have sign := lexes_symbol '-' .minus rfl (text ++ rest) position
  exact ⟨.neg ⟨.minus, "-", position⟩ phrase rfl, after, Lexes.append sign lexes, rfl, rfl⟩

theorem reads_neg (text rest : List Char) (operand : Expr) (levels : Nat)
    (inner : ReadsUnary text (')' :: rest) operand levels) :
    Reads ('(' :: ('-' :: text ++ [')'])) rest (.neg operand) (2 + levels) := by
  have reads := inner.minus.enclosed
  rwa [← Nat.add_assoc] at reads

theorem lexes_joined (op : Operator) (text text' rest : List Char) (tokens tokens' : List Token)
    (position middle after : Nat)
    (front : Lexes text tokens (' ' :: op.symbol :: ' ' :: (text' ++ rest)) position middle)
    (back : Lexes text' tokens' rest (middle + 1 + 1 + 1) after) :
    Lexes (text ++ ' ' :: op.symbol :: ' ' :: text')
      (tokens ++ ⟨operatorKind op, String.ofList [op.symbol], middle + 1⟩ :: tokens') rest position
      after := by
  have blank := lexes_blank (op.symbol :: ' ' :: (text' ++ rest)) middle
  have sign := lexes_symbol op.symbol _ (ofSymbol?_symbol op) (' ' :: (text' ++ rest)) (middle + 1)
  have blank' := lexes_blank (text' ++ rest) (middle + 1 + 1)
  exact Lexes.append front (Lexes.append blank (Lexes.append sign (Lexes.append blank' back)))

/-- A power is a unary, and its base has to be a primary. -/
theorem reads_power (text text' rest : List Char) (base exponent : Expr) (levels levels' : Nat)
    (first : Reads text (' ' :: '^' :: ' ' :: (text' ++ rest)) base levels)
    (second : ReadsUnary text' rest exponent levels') :
    ReadsUnary (text ++ ' ' :: '^' :: ' ' :: text') rest (.binary .pow base exponent)
      (max levels (1 + levels')) := by
  intro position
  obtain ⟨phrase, middle, front, rfl, rfl⟩ := first position
  obtain ⟨phrase', after, back, rfl, rfl⟩ := second (middle + 1 + 1 + 1)
  refine ⟨.plain (.power phrase ⟨.power, String.ofList ['^'], middle + 1⟩ phrase' rfl), after,
    ?_, rfl, ?_⟩
  · rw [Derivation.tokens, Derivation.tokens]
    exact lexes_joined .pow text text' rest _ _ position middle after front back
  · simp only [Derivation.cost]
    omega

theorem reads_joined (op : Operator) (ordinary : op ≠ .pow) (text text' rest : List Char)
    (left right : Expr) (levels levels' : Nat)
    (first : ReadsUnary text (' ' :: op.symbol :: ' ' :: (text' ++ ')' :: rest)) left levels)
    (second : ReadsUnary text' (')' :: rest) right levels') :
    Reads ('(' :: ((text ++ ' ' :: op.symbol :: ' ' :: text') ++ [')'])) rest
      (.binary op left right) (1 + max levels (1 + levels')) := by
  apply reads_enclosed
  intro position
  obtain ⟨phrase, middle, front, rfl, rfl⟩ := first position
  obtain ⟨phrase', after, back, rfl, rfl⟩ := second (middle + 1 + 1 + 1)
  refine ⟨joined phrase phrase' ⟨operatorKind op, String.ofList [op.symbol], middle + 1⟩ op rfl
    ordinary, after, ?_, joined_tree _ _ _ _ _ _, joined_cost _ _ _ _ _ _⟩
  rw [joined_tokens]
  exact lexes_joined op text text' _ _ _ position middle after front back

theorem reads_binary (op : Operator) (text text' rest : List Char) (left right : Expr)
    (levels levels' : Nat)
    (first : Reads text (' ' :: op.symbol :: ' ' :: (text' ++ ')' :: rest)) left levels)
    (second : ReadsUnary text' (')' :: rest) right levels') :
    Reads ('(' :: ((text ++ ' ' :: op.symbol :: ' ' :: text') ++ [')'])) rest
      (.binary op left right) (1 + max levels (1 + levels')) := by
  by_cases power : op = .pow
  · subst power
    exact (reads_power text text' _ left right levels levels' first second).enclosed
  · exact reads_joined op power text text' rest left right levels levels' first.unary second

theorem isName_function (function : Trig) : IsName function.name := by
  cases function with
  | sin => exact isName_of_letters "sin" 's' ['i', 'n'] rfl (by decide)
  | cos => exact isName_of_letters "cos" 'c' ['o', 's'] rfl (by decide)
  | tan => exact isName_of_letters "tan" 't' ['a', 'n'] rfl (by decide)

theorem reads_call (function : Trig) (text rest : List Char) (argument : Expr) (levels : Nat)
    (inner : ReadsExpression text (')' :: rest) argument levels) :
    Reads (function.name.toList ++ '(' :: (text ++ [')'])) rest (.call function argument)
      (1 + levels) := by
  intro position
  obtain ⟨opening, entry⟩ : ∃ opening, opening = position + function.name.toList.length := ⟨_, rfl⟩
  have name := lexes_name function.name (isName_function function)
    ('(' :: (text ++ [')']) ++ rest) (stops_cons _ _ _ (by decide)) position
  rw [← entry] at name
  obtain ⟨phrase, after, lexes, rfl, rfl⟩ := inner (opening + 1)
  have enclosed := lexes_enclosed text rest phrase.tokens opening after lexes
  refine ⟨.call ⟨.ofName function.name, function.name, position⟩ function
    ⟨.leftParen, "(", opening⟩ phrase ⟨.rightParen, ")", after⟩ (Trig.ofKind?_ofName function)
    rfl rfl, after + 1, Lexes.append name enclosed, rfl, Nat.add_comm _ _⟩

/-! ## The text of a whole tree -/

theorem display_neg (operand : Expr) :
    (Expr.neg operand).display.toList = '(' :: ('-' :: operand.display.toList ++ [')']) := by
  simp [Expr.display]

theorem display_binary (op : Operator) (left right : Expr) :
    (Expr.binary op left right).display.toList =
      '(' ::
        ((left.display.toList ++ ' ' :: op.symbol :: ' ' :: right.display.toList) ++ [')']) := by
  simp [Expr.display]

theorem display_call (function : Trig) (argument : Expr) :
    (Expr.call function argument).display.toList =
      function.name.toList ++ '(' :: (argument.display.toList ++ [')']) := by
  simp [Expr.display]

theorem reads_display (e : Expr) (printable : e.Printable) (rest : List Char) (ends : Ends rest) :
    Reads e.display.toList rest e.nameInfinity e.displayLevels := by
  induction e generalizing rest with
  | number value => exact reads_number value printable.1 printable.2 rest ends
  | var name => exact reads_variable name printable rest ends
  | neg operand ih =>
    rw [display_neg]
    exact reads_neg _ rest _ _ (ih printable _ (ends_closing rest)).unary
  | binary op left right leftIH rightIH =>
    rw [display_binary]
    exact reads_binary op _ _ rest _ _ _ _ (leftIH printable.1 _ (ends_blank _))
      (rightIH printable.2 _ (ends_closing rest)).unary
  | call function argument ih =>
    rw [display_call]
    exact reads_call function _ rest _ _ (ih printable _ (ends_closing rest)).unary.expression

theorem display_nameInfinity (e : Expr) (printable : e.Printable) :
    e.nameInfinity.display = e.display := by
  induction e with
  | number value =>
    by_cases infinite : Binary64.magnitude value = Binary64.infinite
    · rw [Expr.nameInfinity, if_pos infinite]
      exact (Decimal.text_of_infinite value printable.2 infinite).symm
    · rw [Expr.nameInfinity, if_neg infinite]
  | var name => rfl
  | neg operand ih => simp only [Expr.nameInfinity, Expr.display, ih printable]
  | binary op left right leftIH rightIH =>
    simp only [Expr.nameInfinity, Expr.display, leftIH printable.1, rightIH printable.2]
  | call function argument ih => simp only [Expr.nameInfinity, Expr.display, ih printable]

theorem nameInfinity_of_finite (e : Expr) (finite : e.Finite) : e.nameInfinity = e := by
  induction e with
  | number value =>
    have below : Binary64.magnitude value < Binary64.infinite := of_decide_eq_true finite
    rw [Expr.nameInfinity, if_neg (Nat.ne_of_lt below)]
  | var name => rfl
  | neg operand ih => rw [Expr.nameInfinity, ih finite]
  | binary op left right leftIH rightIH =>
    rw [Expr.nameInfinity, leftIH finite.1, rightIH finite.2]
  | call function argument ih => rw [Expr.nameInfinity, ih finite]

/-- A whole text that reads as an expression splits into the tokens of a formula. -/
theorem ReadsExpression.scanned {text : String} {tree : Expr} {levels : Nat}
    (reads : ReadsExpression text.toList [] tree levels) :
    ∃ phrase : Derivation .expression, ∃ after,
      tokenize text = .ok (phrase.tokens ++ [Token.atEnd after]) ∧ phrase.tree = tree ∧
        phrase.cost = levels := by
  obtain ⟨phrase, after, lexes, same, cost⟩ := reads 0
  exact ⟨phrase, after, lexes.tokenize, same, cost⟩

theorem tokenize_display (e : Expr) (printable : e.Printable) :
    ∃ phrase : Derivation .expression, ∃ after,
      tokenize e.display = .ok (phrase.tokens ++ [Token.atEnd after]) ∧
      phrase.tree = e.nameInfinity ∧ phrase.cost = e.displayLevels :=
  (reads_display e printable [] ends_nil).unary.expression.scanned

theorem display_reads_back (e : Expr) (printable : e.Printable) :
    ∃ tokens, tokenize e.display = .ok tokens ∧
      (∀ limit, e.displayLevels ≤ limit → Expr.ofTokens limit tokens = .ok e.nameInfinity) ∧
      (∀ limit, limit < e.displayLevels →
        ∃ position, Expr.ofTokens limit tokens = .error (.tooDeep position limit)) ∧
      e.nameInfinity.display = e.display ∧
      (e.Finite → e.nameInfinity = e) := by
  obtain ⟨phrase, after, scanned, same, cost⟩ := tokenize_display e printable
  have derived := (phrase.body_tokens_append (Token.atEnd after) [] rfl).symm
  refine ⟨_, scanned, ?_, ?_, display_nameInfinity e printable, nameInfinity_of_finite e⟩
  · intro limit enough
    rw [← same]
    exact ofTokens_of_cost_le _ phrase derived limit (by omega)
  · intro limit short
    obtain ⟨_, _, _, token, _, _, _, _, fails⟩ :=
      ofTokens_of_lt_cost _ phrase derived limit (by omega)
    exact ⟨token.position, fails⟩

def sample : Expr :=
  .call .sin (.binary .sub
    (.binary .pow (.number (Float.ofBits 0x3fe0000000000000)) (.neg (.var "x")))
    (.number (Float.ofBits 0x7ff0000000000000)))

theorem sample_reads_back :
    sample.Printable ∧ ∃ tokens, tokenize sample.display = .ok tokens ∧
      Expr.ofTokens 7 tokens = .ok (.call .sin (.binary .sub
        (.binary .pow (.number (Float.ofBits 0x3fe0000000000000)) (.neg (.var "x")))
        (.var "inf"))) ∧
      ∃ position, Expr.ofTokens 6 tokens = .error (.tooDeep position 6) := by
  have variableX : Expr.IsVariable "x" := ⟨isName_of_letters "x" 'x' [] rfl (by decide), by decide⟩
  have printable : sample.Printable :=
    ⟨⟨⟨by decide, by decide⟩, variableX⟩, by decide, by decide⟩
  obtain ⟨tokens, scanned, accepted, refused, -, -⟩ := display_reads_back sample printable
  exact ⟨printable, tokens, scanned, accepted 7 (by decide), refused 6 (by decide)⟩

end Display

end Formula
