import Formula.Proofs.Grammar.Derivation

/-!
# Whatever is read is derived

Each rule takes exactly the tokens of a derivation off the front and returns its tree. The rules
that look inside a rule for expressions are taken first, with that rule as a parameter; unaries,
products and sums follow by induction on the room.
-/

set_option autoImplicit false

namespace Formula.Grammar

def Sound (category : Category) (rule : Rule) : Prop :=
  ∀ tokens tree rest, rule tokens = .ok (tree, rest) →
    ∃ phrase : Derivation category, phrase.tokens ++ rest = tokens ∧ phrase.tree = tree

section Rules

variable (stop : Token) (limit : Nat)

theorem after?_eq_some (kind : Token.Kind) (tokens rest : List Token)
    (success : after? kind tokens = some rest) :
    ∃ token, token.kind = kind ∧ tokens = token :: rest := by
  cases tokens with
  | nil => simp [after?] at success
  | cons token behind =>
    by_cases is : token.kind = kind
    · simp only [after?, is, if_true, Option.some.injEq] at success
      subst success
      exact ⟨token, is, rfl⟩
    · simp [after?, is] at success

theorem operator?_eq_some (ofKind? : Token.Kind → Option Operator) (tokens rest : List Token)
    (op : Operator) (success : operator? ofKind? tokens = some (op, rest)) :
    ∃ sign, ofKind? sign.kind = some op ∧ tokens = sign :: rest := by
  cases tokens with
  | nil => simp [operator?] at success
  | cons sign behind =>
    simp only [operator?, Option.map_eq_some_iff, Prod.mk.injEq] at success
    obtain ⟨found, joins, rfl, rfl⟩ := success
    exact ⟨sign, joins, rfl⟩

theorem enclosed_sound (rule : Rule) (sound : Sound .expression rule) (close : Expected)
    (tokens : List Token) (tree : Expr) (rest : List Token)
    (success : enclosed stop rule close tokens = .ok (tree, rest)) :
    ∃ (inner : Derivation .expression) (closing : Token), closing.kind = .rightParen ∧
      inner.tokens ++ closing :: rest = tokens ∧ inner.tree = tree := by
  unfold enclosed at success
  cases reading : rule tokens with
  | error error => simp [reading] at success
  | ok read =>
    obtain ⟨content, behind⟩ := read
    simp only [reading] at success
    cases closed : after? .rightParen behind with
    | none => simp [closed] at success
    | some left =>
      simp only [closed, Except.ok.injEq, Prod.mk.injEq] at success
      obtain ⟨rfl, rfl⟩ := success
      obtain ⟨closing, closes, rfl⟩ := after?_eq_some .rightParen behind left closed
      obtain ⟨inner, covers, same⟩ := sound tokens content _ reading
      exact ⟨inner, closing, closes, covers, same⟩

theorem called_sound (rule : Rule) (sound : Sound .expression rule) (name : Token)
    (function : Trig) (names : Trig.ofKind? name.kind = some function)
    (tokens : List Token) (tree : Expr) (rest : List Token)
    (success : called stop rule function tokens = .ok (tree, rest)) :
    ∃ phrase : Derivation .primary, phrase.tokens ++ rest = name :: tokens ∧
      phrase.tree = tree := by
  unfold called at success
  cases opened : after? .leftParen tokens with
  | none => simp [opened] at success
  | some inside =>
    simp only [opened] at success
    cases reading : enclosed stop rule (.closing function) inside with
    | error error => simp [reading] at success
    | ok read =>
      obtain ⟨content, behind⟩ := read
      simp only [reading, Except.ok.injEq, Prod.mk.injEq] at success
      obtain ⟨rfl, rfl⟩ := success
      obtain ⟨opening, opens, rfl⟩ := after?_eq_some .leftParen tokens inside opened
      obtain ⟨argument, closing, closes, rfl, rfl⟩ :=
        enclosed_sound stop rule sound (.closing function) inside content behind reading
      refine ⟨.call name function opening argument closing names opens closes, ?_, rfl⟩
      simp only [Derivation.tokens, List.cons_append, List.append_assoc, List.nil_append]

theorem leaf_sound (token : Token) (tree leaf : Expr) (rest behind : List Token)
    (reads : leaf? token = some leaf)
    (success : (.ok (leaf, behind) : Except SyntaxError (Expr × List Token)) = .ok (tree, rest)) :
    ∃ phrase : Derivation .primary, phrase.tokens ++ rest = token :: behind ∧
      phrase.tree = tree := by
  simp only [Except.ok.injEq, Prod.mk.injEq] at success
  obtain ⟨rfl, rfl⟩ := success
  exact ⟨.leaf token leaf reads, rfl, rfl⟩

theorem primary_sound (rule : Rule) (sound : Sound .expression rule) :
    Sound .primary (primary stop rule) := by
  intro tokens tree rest success
  cases tokens with
  | nil => simp [primary] at success
  | cons token behind =>
    cases kind : token.kind with
    | number =>
      simp only [primary, kind] at success
      cases read : Decimal.read? token.text with
      | none => simp [read] at success
      | some value =>
        simp only [read] at success
        exact leaf_sound token tree _ rest behind (by simp [leaf?, kind, read]) success
    | var | pi | euler =>
      simp only [primary, kind] at success
      exact leaf_sound token tree _ rest behind (by simp [leaf?, kind]) success
    | sin | cos | tan =>
      simp only [primary, kind] at success
      exact called_sound stop rule sound token _ (by rw [kind]; rfl) behind tree rest success
    | leftParen =>
      simp only [primary, kind] at success
      obtain ⟨inner, closing, closes, rfl, rfl⟩ :=
        enclosed_sound stop rule sound .groupEnd behind tree rest success
      refine ⟨.group token inner closing kind closes, ?_, rfl⟩
      simp only [Derivation.tokens, List.cons_append, List.append_assoc, List.nil_append]
    | _ => simp [primary, kind] at success

theorem factor_sound (rule more : Rule) (sound : Sound .expression rule)
    (moreSound : Sound .unary more) : Sound .factor (factor stop rule more) := by
  intro tokens tree rest success
  unfold factor at success
  cases reading : primary stop rule tokens with
  | error error => simp [reading] at success
  | ok read =>
    obtain ⟨content, behind⟩ := read
    obtain ⟨base, covers, rfl⟩ := primary_sound stop rule sound tokens content behind reading
    simp only [reading] at success
    cases raised : after? .power behind with
    | none =>
      simp only [raised, Except.ok.injEq, Prod.mk.injEq] at success
      obtain ⟨rfl, rfl⟩ := success
      exact ⟨.bare base, covers, rfl⟩
    | some left =>
      obtain ⟨caret, raises, rfl⟩ := after?_eq_some .power behind left raised
      simp only [raised] at success
      cases powerReading : more left with
      | error error => simp [powerReading] at success
      | ok read =>
        obtain ⟨content, behind⟩ := read
        simp only [powerReading, Except.ok.injEq, Prod.mk.injEq] at success
        obtain ⟨rfl, rfl⟩ := success
        obtain ⟨exponent, rfl, rfl⟩ := moreSound left content behind powerReading
        refine ⟨.power base caret exponent raises, ?_, rfl⟩
        simp only [Derivation.tokens, List.append_assoc, List.cons_append, covers]

theorem chain_eq_ok (operand : Rule) (more : Expr → Rule) (tokens : List Token) (tree : Expr)
    (rest : List Token) (success : chain operand more tokens = .ok (tree, rest)) :
    ∃ first behind, operand tokens = .ok (first, behind) ∧
      more first behind = .ok (tree, rest) := by
  unfold chain at success
  cases reading : operand tokens with
  | error error => simp [reading] at success
  | ok read =>
    obtain ⟨first, behind⟩ := read
    simp only [reading] at success
    exact ⟨first, behind, rfl, success⟩

/-- The loop of a chain: behind each operator that `ofKind?` knows it takes an operand, with a level
less for each. -/
structure Loop (ofKind? : Token.Kind → Option Operator) (operand : Nat → Rule)
    (loop : Nat → Expr → Rule) : Prop where
  done : ∀ {room left tokens}, operator? ofKind? tokens = none →
    loop room left tokens = .ok (left, tokens)
  exhausted : ∀ {left tokens op rest}, operator? ofKind? tokens = some (op, rest) →
    loop 0 left tokens = .error (.tooDeep (next stop rest).position limit)
  continued : ∀ {room left tokens op rest}, operator? ofKind? tokens = some (op, rest) →
    loop (room + 1) left tokens =
      chain (operand room) (fun right => loop room (.binary op left right)) rest

theorem products_loop :
    Loop stop limit Operator.ofProduct? (unary stop limit) (products stop limit) :=
  ⟨products_done, products_exhausted, products_next⟩

theorem sums_loop : Loop stop limit Operator.ofSum? (term stop limit) (sums stop limit) :=
  ⟨sums_done, sums_exhausted, sums_next⟩

/-- `join` puts one more operand behind a phrase. -/
theorem loop_sound (chained joined : Category) (ofKind? : Token.Kind → Option Operator)
    (operand : Nat → Rule) (loop : Nat → Expr → Rule)
    (looping : Loop stop limit ofKind? operand loop)
    (join : ∀ (before : Derivation chained) (sign : Token) (op : Operator)
      (last : Derivation joined), ofKind? sign.kind = some op →
        ∃ whole : Derivation chained, whole.tokens = before.tokens ++ sign :: last.tokens ∧
          whole.tree = .binary op before.tree last.tree)
    (room : Nat) (sound : ∀ left < room, Sound joined (operand left))
    (before : Derivation chained) (tokens : List Token) (tree : Expr) (rest : List Token)
    (success : loop room before.tree tokens = .ok (tree, rest)) :
    ∃ phrase : Derivation chained, phrase.tokens ++ rest = before.tokens ++ tokens ∧
      phrase.tree = tree := by
  induction room generalizing before tokens with
  | zero =>
    cases found : operator? ofKind? tokens with
    | none =>
      rw [looping.done found] at success
      cases success
      exact ⟨before, rfl, rfl⟩
    | some next =>
      rw [looping.exhausted found] at success
      cases success
  | succ room ih =>
    cases found : operator? ofKind? tokens with
    | none =>
      rw [looping.done found] at success
      cases success
      exact ⟨before, rfl, rfl⟩
    | some next =>
      obtain ⟨op, behind⟩ := next
      obtain ⟨sign, joins, rfl⟩ := operator?_eq_some ofKind? tokens behind op found
      rw [looping.continued found] at success
      obtain ⟨right, left, reading, success⟩ := chain_eq_ok _ _ behind tree rest success
      obtain ⟨last, rfl, rfl⟩ := sound room (Nat.lt_succ_self room) behind right left reading
      obtain ⟨whole, covers, same⟩ := join before sign op last joins
      rw [← same] at success
      obtain ⟨phrase, phraseCovers, phraseSame⟩ :=
        ih (fun left below => sound left (Nat.lt_succ_of_lt below)) whole left success
      refine ⟨phrase, ?_, phraseSame⟩
      rw [phraseCovers, covers, List.append_assoc, List.cons_append]

theorem products_sound (room : Nat)
    (sound : ∀ left < room, Sound .unary (unary stop limit left)) (before : Derivation .term)
    (tokens : List Token) (tree : Expr) (rest : List Token)
    (success : products stop limit room before.tree tokens = .ok (tree, rest)) :
    ∃ phrase : Derivation .term, phrase.tokens ++ rest = before.tokens ++ tokens ∧
      phrase.tree = tree := by
  apply loop_sound stop limit .term .unary _ _ _ (products_loop stop limit) _ room sound before
    tokens tree rest success
  intro before sign op last joins
  exact ⟨.product before sign op last joins, rfl, rfl⟩

theorem term_sound (room : Nat) (sound : ∀ left ≤ room, Sound .unary (unary stop limit left)) :
    Sound .term (term stop limit room) := by
  intro tokens tree rest success
  obtain ⟨content, behind, reading, success⟩ := chain_eq_ok _ _ tokens tree rest success
  obtain ⟨first, covers, rfl⟩ := sound room (Nat.le_refl room) tokens content behind reading
  obtain ⟨phrase, phraseCovers, same⟩ := products_sound stop limit room
    (fun left below => sound left (Nat.le_of_lt below)) (.single first) behind tree rest success
  exact ⟨phrase, phraseCovers.trans covers, same⟩

theorem sums_sound (room : Nat)
    (sound : ∀ left < room, Sound .term (term stop limit left))
    (before : Derivation .expression) (tokens : List Token) (tree : Expr) (rest : List Token)
    (success : sums stop limit room before.tree tokens = .ok (tree, rest)) :
    ∃ phrase : Derivation .expression, phrase.tokens ++ rest = before.tokens ++ tokens ∧
      phrase.tree = tree := by
  apply loop_sound stop limit .expression .term _ _ _ (sums_loop stop limit) _ room sound before
    tokens tree rest success
  intro before sign op last joins
  exact ⟨.sum before sign op last joins, rfl, rfl⟩

theorem expression_sound (room : Nat)
    (sound : ∀ left ≤ room, Sound .unary (unary stop limit left)) :
    Sound .expression (expression stop limit room) := by
  have terms : ∀ left ≤ room, Sound .term (term stop limit left) := by
    intro left below
    exact term_sound stop limit left fun less lower => sound less (Nat.le_trans lower below)
  intro tokens tree rest success
  obtain ⟨content, behind, reading, success⟩ := chain_eq_ok _ _ tokens tree rest success
  obtain ⟨first, covers, rfl⟩ := terms room (Nat.le_refl room) tokens content behind reading
  obtain ⟨phrase, phraseCovers, same⟩ := sums_sound stop limit room
    (fun left below => terms left (Nat.le_of_lt below)) (.lone first) behind tree rest success
  exact ⟨phrase, phraseCovers.trans covers, same⟩

theorem unary_sound (room : Nat) : Sound .unary (unary stop limit room) := by
  induction room using Nat.strongRecOn with
  | ind room ih =>
    intro tokens tree rest success
    cases room with
    | zero => simp [unary_zero] at success
    | succ room =>
      cases signed : after? .minus tokens with
      | some behind =>
        obtain ⟨minus, negates, rfl⟩ := after?_eq_some .minus tokens behind signed
        obtain ⟨content, left, reading, success⟩ := chain_eq_ok (unary stop limit room)
          (fun operand rest => .ok (.neg operand, rest)) behind tree rest
          ((unary_minus signed).symm.trans success)
        cases success
        obtain ⟨operand, rfl, rfl⟩ := ih room (Nat.lt_succ_self room) behind content rest reading
        exact ⟨.neg minus operand negates, rfl, rfl⟩
      | none =>
        rw [unary_factor signed] at success
        have inner := expression_sound stop limit room fun left below =>
          ih left (Nat.lt_succ_of_le below)
        obtain ⟨operand, covers, same⟩ := factor_sound stop _ _ inner
          (ih room (Nat.lt_succ_self room)) tokens tree rest success
        exact ⟨.plain operand, covers, same⟩

end Rules
end Formula.Grammar
