import Formula.Proofs.Grammar.Stopping

/-!
# Every error has a stub

When a rule fails it has read a stub, whose levels in front of its end fit into the room, and it was
blocked behind the stub. What a rule reads without failing is a phrase that nothing continues, and
so the phrase costs no more than the room.
-/

set_option autoImplicit false

namespace Formula.Grammar

section Rules

variable (stop : Token) (limit : Nat)

/-! ## What was read before a failure -/

/-- Reading one more operand keeps what holds in front of its end, and the loop is left where no
operator follows. -/
theorem loop_ended (ofKind? : Token.Kind → Option Operator) (operand : Nat → Rule)
    (loop : Nat → Expr → Rule) (looping : Loop stop limit ofKind? operand loop)
    (Kept : List Token → Prop)
    (keeps : ∀ room tokens tree rest, operand room tokens = .ok (tree, rest) → Kept rest)
    (room : Nat) (left : Expr) (tokens : List Token) (tree : Expr) (rest : List Token)
    (kept : Kept tokens) (success : loop room left tokens = .ok (tree, rest)) :
    Kept rest ∧ operator? ofKind? rest = none := by
  induction room generalizing left tokens with
  | zero =>
    cases found : operator? ofKind? tokens with
    | none =>
      rw [looping.done found] at success
      cases success
      exact ⟨kept, found⟩
    | some next =>
      rw [looping.exhausted found] at success
      cases success
  | succ room ih =>
    cases found : operator? ofKind? tokens with
    | none =>
      rw [looping.done found] at success
      cases success
      exact ⟨kept, found⟩
    | some next =>
      obtain ⟨op, behind⟩ := next
      rw [looping.continued found] at success
      obtain ⟨right, back, reading, success⟩ := chain_eq_ok _ _ behind tree rest success
      exact ih _ back (keeps room behind right back reading) success

theorem unary_ended (room : Nat) (tokens : List Token) (tree : Expr) (rest : List Token)
    (success : unary stop limit room tokens = .ok (tree, rest)) : after? .power rest = none := by
  induction room generalizing tokens tree with
  | zero => simp [unary_zero] at success
  | succ room ih =>
    cases signed : after? .minus tokens with
    | some behind =>
      rw [unary_minus signed] at success
      cases reading : unary stop limit room behind with
      | error error => simp [reading] at success
      | ok read =>
        obtain ⟨operand, left⟩ := read
        simp only [reading] at success
        cases success
        exact ih behind operand reading
    | none =>
      rw [unary_factor signed] at success
      cases first : primary stop (expression stop limit room) tokens with
      | error error => simp [factor, first] at success
      | ok read =>
        obtain ⟨base, left⟩ := read
        cases raised : after? .power left with
        | none =>
          simp only [factor, first, raised] at success
          cases success
          exact raised
        | some behind =>
          cases reading : unary stop limit room behind with
          | error error => simp [factor, first, raised, reading] at success
          | ok read =>
            obtain ⟨exponent, last⟩ := read
            simp only [factor, first, raised, reading] at success
            cases success
            exact ih behind exponent reading

theorem term_ended (room : Nat) (tokens : List Token) (tree : Expr) (rest : List Token)
    (success : term stop limit room tokens = .ok (tree, rest)) :
    after? .power rest = none ∧ operator? Operator.ofProduct? rest = none := by
  obtain ⟨first, behind, reading, success⟩ := chain_eq_ok _ _ tokens tree rest success
  exact loop_ended stop limit _ _ _ (products_loop stop limit)
    (fun rest => after? .power rest = none) (unary_ended stop limit) room first behind tree rest
    (unary_ended stop limit room tokens first behind reading) success

theorem expression_ended (room : Nat) (tokens : List Token) (tree : Expr) (rest : List Token)
    (success : expression stop limit room tokens = .ok (tree, rest)) : Ended rest := by
  obtain ⟨first, behind, reading, success⟩ := chain_eq_ok _ _ tokens tree rest success
  obtain ⟨⟨noPower, noProduct⟩, noSum⟩ := loop_ended stop limit _ _ _ (sums_loop stop limit)
    (fun rest => after? .power rest = none ∧ operator? Operator.ofProduct? rest = none)
    (term_ended stop limit) room first behind tree rest
    (term_ended stop limit room tokens first behind reading) success
  exact ⟨noPower, noProduct, noSum⟩

theorem cost_le_of_descend {category : Category} (phrase : Derivation category) (room : Nat)
    (tokens : List Token) (result : Except SyntaxError (Expr × List Token))
    (outcome : Expr × List Token)
    (success : descend stop limit room tokens phrase.levels result = .ok outcome) :
    phrase.cost ≤ room :=
  (phrase.depth_le_iff room).mp (taken_of_descend _ _ _ _ _ _ _ success (by simp))

theorem unary_phrase (room : Nat) (tokens : List Token) (tree : Expr) (rest : List Token)
    (success : unary stop limit room tokens = .ok (tree, rest)) :
    ∃ phrase : Derivation .unary, phrase.tokens ++ rest = tokens ∧ phrase.tree = tree ∧
      phrase.cost ≤ room := by
  have noPower := unary_ended stop limit room tokens tree rest success
  obtain ⟨phrase, rfl, rfl⟩ := unary_sound stop limit room tokens tree rest success
  rw [phrase.read stop limit room rest noPower] at success
  exact ⟨phrase, rfl, rfl, cost_le_of_descend stop limit phrase room _ _ _ success⟩

theorem primary_phrase (room : Nat) (tokens : List Token) (tree : Expr) (rest : List Token)
    (success : primary stop (expression stop limit room) tokens = .ok (tree, rest)) :
    ∃ phrase : Derivation .primary, phrase.tokens ++ rest = tokens ∧ phrase.tree = tree ∧
      phrase.cost ≤ room := by
  have sound := expression_sound stop limit room fun left _ => unary_sound stop limit left
  obtain ⟨phrase, rfl, rfl⟩ := primary_sound stop _ sound tokens tree rest success
  rw [phrase.read stop limit room rest] at success
  exact ⟨phrase, rfl, rfl, cost_le_of_descend stop limit phrase room _ _ _ success⟩

theorem term_phrase (room : Nat) (tokens : List Token) (tree : Expr) (rest : List Token)
    (success : term stop limit room tokens = .ok (tree, rest)) :
    ∃ phrase : Derivation .term, phrase.tokens ++ rest = tokens ∧ phrase.tree = tree ∧
      phrase.cost ≤ room := by
  have ended := term_ended stop limit room tokens tree rest success
  obtain ⟨phrase, rfl, rfl⟩ := term_sound stop limit room
    (fun left _ => unary_sound stop limit left) tokens tree rest success
  rw [phrase.read stop limit room rest ended.1] at success
  exact ⟨phrase, rfl, rfl, cost_le_of_descend stop limit phrase room _ _ _ success⟩

theorem expression_phrase (room : Nat) (tokens : List Token) (tree : Expr) (rest : List Token)
    (success : expression stop limit room tokens = .ok (tree, rest)) :
    ∃ phrase : Derivation .expression, phrase.tokens ++ rest = tokens ∧ phrase.tree = tree ∧
      phrase.cost ≤ room := by
  have ended := expression_ended stop limit room tokens tree rest success
  obtain ⟨phrase, rfl, rfl⟩ := expression_sound stop limit room
    (fun left _ => unary_sound stop limit left) tokens tree rest success
  rw [phrase.read stop limit room rest ended.noPower ended.noProduct] at success
  exact ⟨phrase, rfl, rfl, cost_le_of_descend stop limit phrase room _ _ _ success⟩

/-! ## The stub of an error -/

def FailsAtStub (category : Category) (room : Nat) (reading : Rule) : Prop :=
  ∀ tokens error, reading tokens = .error error →
    ∃ (stub : Stub category) (rest : List Token), stub.tokens ++ rest = tokens ∧
      stub.Fails limit room (next stop rest) error

theorem Stub.Fails.within {inner outer : Category} (frame : Frame inner outer)
    (stub : Stub inner) (room : Nat) (token : Token) (error : SyntaxError)
    (fits : ∀ level ∈ frame.levels, level.depth ≤ room)
    (fails : stub.Fails limit (room - frame.down) token error) :
    (Stub.within frame stub).Fails limit room token error := by
  have below := frame.down_le_of_taken room fits
  refine ⟨?_, ?_⟩
  · simp only [Stub.levels, Stub.tokens, List.forall_mem_append, List.forall_mem_map, Level.shift,
      List.length_append]
    refine ⟨fun level member _ => fits level member, fun level member inside => ?_⟩
    have := fails.taken level member (by omega)
    omega
  · have blocked := fails.blocked
    rw [Nat.sub_sub] at blocked
    exact blocked

theorem Derivation.levels_fit {category : Category} (phrase : Derivation category) (room : Nat)
    (fits : phrase.cost ≤ room) : ∀ level ∈ phrase.levels, level.depth ≤ room :=
  (phrase.depth_le_iff room).mpr fits

theorem enclosed_fails (ends : stop.kind = .finish) (room : Nat) (close : Expected)
    (closes : close = .groupEnd ∨ ∃ function, close = .closing function)
    (inside : FailsAtStub stop limit .expression room (expression stop limit room))
    (tokens : List Token) (error : SyntaxError)
    (fails : enclosed stop (expression stop limit room) close tokens = .error error) :
    (∃ (stub : Stub .expression) (rest : List Token), stub.tokens ++ rest = tokens ∧
      stub.Fails limit room (next stop rest) error) ∨
    ∃ (inner : Derivation .expression) (rest : List Token), inner.tokens ++ rest = tokens ∧
      inner.cost ≤ room ∧ Blocked limit (next stop rest) close room error := by
  unfold enclosed at fails
  cases reading : expression stop limit room tokens with
  | error first =>
    simp only [reading, Except.error.injEq] at fails
    subst fails
    exact Or.inl (inside tokens first reading)
  | ok read =>
    obtain ⟨tree, rest⟩ := read
    simp only [reading] at fails
    cases closed : after? .rightParen rest with
    | some behind => simp [closed] at fails
    | none =>
      simp only [closed, Except.error.injEq] at fails
      subst fails
      have ended := expression_ended stop limit room tokens tree rest reading
      obtain ⟨inner, covers, -, fits⟩ := expression_phrase stop limit room tokens tree rest reading
      exact Or.inr ⟨inner, rest, covers, fits, .closing room close closes
        ((after?_eq_none stop .rightParen (by rw [ends]; decide) rest).mp closed)
        ((ended_iff stop ends rest).mp ended)⟩

/-- What a primary, and so a factor, fails with: there is no operand at all, or a stub. -/
def FailsInside (category : Category) (room : Nat) (tokens : List Token) (error : SyntaxError) :
    Prop :=
  (∃ expected, refusal? (next stop tokens) = some expected ∧
    error = .unexpected (next stop tokens) expected) ∨
  ∃ (stub : Stub category) (rest : List Token), stub.tokens ++ rest = tokens ∧
    stub.Fails limit room (next stop rest) error

theorem called_fails (ends : stop.kind = .finish) (room : Nat)
    (inside : FailsAtStub stop limit .expression room (expression stop limit room))
    (name : Token) (function : Trig) (names : Trig.ofKind? name.kind = some function)
    (tokens : List Token) (error : SyntaxError)
    (fails : called stop (expression stop limit room) function tokens = .error error) :
    ∃ (stub : Stub .primary) (rest : List Token), stub.tokens ++ rest = name :: tokens ∧
      stub.Fails limit room (next stop rest) error := by
  unfold called at fails
  cases opened : after? .leftParen tokens with
  | none =>
    simp only [opened, Except.error.injEq] at fails
    subst fails
    exact ⟨.unopened name function names, tokens, rfl, by simp [Stub.levels],
      .opening _ function
        ((after?_eq_none stop .leftParen (by rw [ends]; decide) tokens).mp opened)⟩
  | some behind =>
    obtain ⟨opening, opens, rfl⟩ := after?_eq_some .leftParen tokens behind opened
    simp only [opened] at fails
    cases reading : enclosed stop (expression stop limit room) (.closing function) behind with
    | ok read =>
      simp only [reading] at fails
      cases fails
    | error first =>
      simp only [reading, Except.error.injEq] at fails
      subst fails
      rcases enclosed_fails stop limit ends room (.closing function) (Or.inr ⟨function, rfl⟩)
        inside behind first reading with
        ⟨stub, rest, rfl, stops⟩ | ⟨argument, rest, rfl, fits, blocked⟩
      · exact ⟨.within (.call name function opening names opens) stub, rest, rfl,
          stops.within limit _ stub room _ _ (by simp [Frame.levels])⟩
      · refine ⟨.unclosedCall name function opening argument names opens, rest, rfl, ?_, blocked⟩
        simp only [Stub.levels, List.forall_mem_map, Level.shift, Nat.zero_add]
        exact fun level member _ => argument.levels_fit room fits level member

theorem group_fails (ends : stop.kind = .finish) (room : Nat)
    (inside : FailsAtStub stop limit .expression room (expression stop limit room))
    (opening : Token) (opens : opening.kind = .leftParen) (tokens : List Token)
    (error : SyntaxError)
    (fails : enclosed stop (expression stop limit room) .groupEnd tokens = .error error) :
    ∃ (stub : Stub .primary) (rest : List Token), stub.tokens ++ rest = opening :: tokens ∧
      stub.Fails limit room (next stop rest) error := by
  rcases enclosed_fails stop limit ends room .groupEnd (Or.inl rfl) inside tokens error fails with
    ⟨stub, rest, rfl, stops⟩ | ⟨inner, rest, rfl, fits, blocked⟩
  · exact ⟨.within (.group opening opens) stub, rest, rfl,
      stops.within limit _ stub room _ _ (by simp [Frame.levels])⟩
  · refine ⟨.unclosedGroup opening inner opens, rest, rfl, ?_, blocked⟩
    simp only [Stub.levels, List.forall_mem_map, Level.shift, Nat.zero_add]
    exact fun level member _ => inner.levels_fit room fits level member

theorem primary_fails (ends : stop.kind = .finish) (room : Nat)
    (inside : FailsAtStub stop limit .expression room (expression stop limit room))
    (tokens : List Token) (noMinus : after? .minus tokens = none) (error : SyntaxError)
    (fails : primary stop (expression stop limit room) tokens = .error error) :
    FailsInside stop limit .primary room tokens error := by
  cases tokens with
  | nil =>
    simp only [primary, Except.error.injEq] at fails
    subst fails
    exact Or.inl ⟨.operand, by simp only [refusal?, next, ends], rfl⟩
  | cons token behind =>
    cases kind : token.kind with
    | number =>
      simp only [primary, kind] at fails
      cases read : Decimal.read? token.text with
      | some value => simp [read] at fails
      | none =>
        simp only [read, Except.error.injEq] at fails
        subst fails
        exact Or.inl ⟨.validNumber, by simp [refusal?, next, kind, read], rfl⟩
    | var | pi | euler => simp [primary, kind] at fails
    | sin | cos | tan =>
      simp only [primary, kind] at fails
      exact Or.inr (called_fails stop limit ends room inside token _ (by rw [kind]; rfl) behind
        error fails)
    | leftParen =>
      simp only [primary, kind] at fails
      exact Or.inr (group_fails stop limit ends room inside token kind behind error fails)
    | minus => simp [after?, kind] at noMinus
    | plus | times | divide | power | rightParen | finish =>
      simp only [primary, kind, Except.error.injEq] at fails
      subst fails
      exact Or.inl ⟨.operand, by simp only [refusal?, next, kind], rfl⟩

theorem factor_fails (ends : stop.kind = .finish) (room : Nat)
    (inside : FailsAtStub stop limit .expression room (expression stop limit room))
    (raising : FailsAtStub stop limit .unary room (unary stop limit room))
    (tokens : List Token) (noMinus : after? .minus tokens = none) (error : SyntaxError)
    (fails : factor stop (expression stop limit room) (unary stop limit room) tokens =
      .error error) :
    FailsInside stop limit .factor room tokens error := by
  unfold factor at fails
  cases reading : primary stop (expression stop limit room) tokens with
  | error first =>
    simp only [reading, Except.error.injEq] at fails
    subst fails
    rcases primary_fails stop limit ends room inside tokens noMinus first reading with
      refused | ⟨stub, rest, rfl, stops⟩
    · exact Or.inl refused
    · exact Or.inr ⟨.within .bare stub, rest, rfl,
        stops.within limit _ stub room _ _ (by simp [Frame.levels])⟩
  | ok read =>
    obtain ⟨tree, left⟩ := read
    obtain ⟨base, rfl, -, fits⟩ := primary_phrase stop limit room tokens tree left reading
    simp only [reading] at fails
    cases raised : after? .power left with
    | none => simp [raised] at fails
    | some behind =>
      obtain ⟨caret, raises, rfl⟩ := after?_eq_some .power left behind raised
      simp only [raised] at fails
      cases exponent : unary stop limit room behind with
      | ok read =>
        simp only [exponent] at fails
        cases fails
      | error first =>
        simp only [exponent, Except.error.injEq] at fails
        subst fails
        obtain ⟨stub, rest, rfl, stops⟩ := raising behind first exponent
        refine Or.inr ⟨.within (.power base caret raises) stub, rest, ?_,
          stops.within limit _ stub room _ _ (base.levels_fit room fits)⟩
        simp only [Stub.tokens, Frame.tokens, List.append_assoc, List.cons_append, List.nil_append]

/-! ## Chains -/

structure Growth (chained joined : Category) (ofKind? : Token.Kind → Option Operator) where
  frame : Derivation chained → (sign : Token) → (op : Operator) → ofKind? sign.kind = some op →
    Frame joined chained
  tokens_eq : ∀ before sign op joins,
    (frame before sign op joins).tokens = before.tokens ++ [sign]
  levels_eq : ∀ before sign op joins, (frame before sign op joins).levels =
    before.levels ++ [⟨before.further + 1, before.tokens.length + 1⟩]
  down_eq : ∀ before sign op joins, (frame before sign op joins).down = before.further + 1
  closing_eq : ∀ before sign op joins, (frame before sign op joins).closing = []
  tree_eq : ∀ before sign op joins (last : Derivation joined),
    ((frame before sign op joins).fill last).tree = .binary op before.tree last.tree
  further_eq : ∀ before sign op joins (last : Derivation joined),
    ((frame before sign op joins).fill last).further = before.further + 1
  cost_eq : ∀ before sign op joins (last : Derivation joined),
    ((frame before sign op joins).fill last).cost =
      max before.cost (before.further + 1 + last.cost)
  awaits : Stub joined
  awaits_eq : awaits.tokens = [] ∧ awaits.levels = [] ∧ awaits.down = 0 ∧
    awaits.missing = .operand

def productGrowth : Growth .term .unary Operator.ofProduct? where
  frame := .product
  tokens_eq _ _ _ _ := rfl
  levels_eq _ _ _ _ := rfl
  down_eq _ _ _ _ := rfl
  closing_eq _ _ _ _ := rfl
  tree_eq _ _ _ _ _ := rfl
  further_eq _ _ _ _ _ := rfl
  cost_eq _ _ _ _ _ := rfl
  awaits := .operand
  awaits_eq := ⟨rfl, rfl, rfl, rfl⟩

def sumGrowth : Growth .expression .term Operator.ofSum? where
  frame := .sum
  tokens_eq _ _ _ _ := rfl
  levels_eq _ _ _ _ := rfl
  down_eq _ _ _ _ := rfl
  closing_eq _ _ _ _ := rfl
  tree_eq _ _ _ _ _ := rfl
  further_eq _ _ _ _ _ := rfl
  cost_eq _ _ _ _ _ := rfl
  awaits := .within .single .operand
  awaits_eq := ⟨rfl, rfl, rfl, rfl⟩

theorem chain_eq_error (operand : Rule) (more : Expr → Rule) (tokens : List Token)
    (error : SyntaxError) (fails : chain operand more tokens = .error error) :
    operand tokens = .error error ∨ ∃ first behind, operand tokens = .ok (first, behind) ∧
      more first behind = .error error := by
  unfold chain at fails
  cases reading : operand tokens with
  | error first =>
    simp only [reading] at fails
    exact Or.inl fails
  | ok read =>
    obtain ⟨first, behind⟩ := read
    simp only [reading] at fails
    exact Or.inr ⟨first, behind, rfl, fails⟩

section Loops

variable {chained joined : Category} {ofKind? : Token.Kind → Option Operator}
  (growth : Growth chained joined ofKind?)

/-- The loop of a chain has no level left for one more operand. -/
theorem Growth.exhausted (before : Derivation chained) (sign : Token) (op : Operator)
    (joins : ofKind? sign.kind = some op) (fits : before.cost ≤ before.further) (token : Token) :
    (Stub.within (growth.frame before sign op joins) growth.awaits).Fails limit before.further
      token (.tooDeep token.position limit) := by
  obtain ⟨noTokens, noLevels, noDown, operand⟩ := growth.awaits_eq
  refine ⟨?_, ?_⟩
  · simp only [Stub.levels, Stub.tokens, growth.levels_eq, growth.tokens_eq, noTokens, noLevels,
      List.map_nil, List.append_nil, List.forall_mem_append, List.forall_mem_singleton,
      List.length_append, List.length_singleton]
    exact ⟨fun level member _ => before.levels_fit _ fits level member, by omega⟩
  · have full : before.further - (before.further + 1 + 0) = 0 := by omega
    simp only [Stub.missing, Stub.down, growth.down_eq, noDown, operand, full]
    exact .full

variable {operand : Nat → Rule} {loop : Nat → Expr → Rule}

theorem loop_fails (growth : Growth chained joined ofKind?)
    (looping : Loop stop limit ofKind? operand loop)
    (phrases : ∀ room tokens tree rest, operand room tokens = .ok (tree, rest) →
      ∃ phrase : Derivation joined, phrase.tokens ++ rest = tokens ∧ phrase.tree = tree ∧
        phrase.cost ≤ room)
    (total room : Nat) (operands : ∀ left < room, FailsAtStub stop limit joined left (operand left))
    (before : Derivation chained) (fits : before.cost ≤ total)
    (split : before.further + room = total) (tokens : List Token) (error : SyntaxError)
    (fails : loop room before.tree tokens = .error error) :
    ∃ (stub : Stub chained) (rest : List Token), stub.tokens ++ rest = before.tokens ++ tokens ∧
      stub.Fails limit total (next stop rest) error := by
  -- `before` grows by what is read, and with the levels that are left it makes up the whole room
  induction room generalizing before tokens with
  | zero =>
    cases found : operator? ofKind? tokens with
    | none =>
      rw [looping.done found] at fails
      cases fails
    | some next =>
      obtain ⟨op, behind⟩ := next
      obtain ⟨sign, joins, rfl⟩ := operator?_eq_some ofKind? tokens behind op found
      rw [looping.exhausted found] at fails
      cases fails
      obtain rfl : before.further = total := split
      refine ⟨_, behind, ?_, growth.exhausted limit before sign op joins fits _⟩
      simp only [Stub.tokens, growth.tokens_eq, growth.awaits_eq.1, List.append_assoc,
        List.cons_append, List.nil_append]
  | succ room ih =>
    cases found : operator? ofKind? tokens with
    | none =>
      rw [looping.done found] at fails
      cases fails
    | some next =>
      obtain ⟨op, behind⟩ := next
      obtain ⟨sign, joins, rfl⟩ := operator?_eq_some ofKind? tokens behind op found
      rw [looping.continued found] at fails
      have within : total - (growth.frame before sign op joins).down = room := by
        rw [growth.down_eq]
        omega
      rcases chain_eq_error _ _ behind error fails with fails | ⟨right, left, reading, fails⟩
      · obtain ⟨stub, rest, rfl, stops⟩ := operands room (Nat.lt_succ_self room) behind error fails
        refine ⟨.within (growth.frame before sign op joins) stub, rest, ?_,
          .within limit _ stub total _ error ?_ (within.symm ▸ stops)⟩
        · simp only [Stub.tokens, growth.tokens_eq, List.append_assoc, List.cons_append,
            List.nil_append]
        · simp only [growth.levels_eq, List.forall_mem_append, List.forall_mem_singleton]
          exact ⟨before.levels_fit total fits, by omega⟩
      · obtain ⟨last, rfl, rfl, lastFits⟩ := phrases room behind right left reading
        rw [← growth.tree_eq before sign op joins last] at fails
        obtain ⟨stub, rest, covers, stops⟩ := ih
          (fun less below => operands less (Nat.lt_succ_of_lt below))
          ((growth.frame before sign op joins).fill last) (by rw [growth.cost_eq]; omega)
          (by rw [growth.further_eq]; omega) left fails
        refine ⟨stub, rest, ?_, stops⟩
        rw [covers]
        simp only [Frame.fill_tokens, growth.tokens_eq, growth.closing_eq, List.append_assoc,
          List.cons_append, List.nil_append]

end Loops

theorem term_fails (room : Nat)
    (unaries : ∀ left ≤ room, FailsAtStub stop limit .unary left (unary stop limit left)) :
    FailsAtStub stop limit .term room (term stop limit room) := by
  intro tokens error fails
  rcases chain_eq_error _ _ tokens error fails with fails | ⟨content, behind, reading, fails⟩
  · obtain ⟨stub, rest, rfl, stops⟩ := unaries room (Nat.le_refl room) tokens error fails
    exact ⟨.within .single stub, rest, rfl,
      stops.within limit _ stub room _ _ (by simp [Frame.levels])⟩
  · obtain ⟨first, rfl, rfl, fits⟩ := unary_phrase stop limit room tokens content behind reading
    exact loop_fails stop limit productGrowth (products_loop stop limit) (unary_phrase stop limit)
      room room (fun left below => unaries left (Nat.le_of_lt below)) (.single first) fits
      (Nat.zero_add room) behind error fails

theorem expression_fails (room : Nat)
    (unaries : ∀ left ≤ room, FailsAtStub stop limit .unary left (unary stop limit left)) :
    FailsAtStub stop limit .expression room (expression stop limit room) := by
  have terms : ∀ left ≤ room, FailsAtStub stop limit .term left (term stop limit left) := by
    intro left below
    exact term_fails stop limit left fun less lower => unaries less (Nat.le_trans lower below)
  intro tokens error fails
  rcases chain_eq_error _ _ tokens error fails with fails | ⟨content, behind, reading, fails⟩
  · obtain ⟨stub, rest, rfl, stops⟩ := terms room (Nat.le_refl room) tokens error fails
    exact ⟨.within .lone stub, rest, rfl,
      stops.within limit _ stub room _ _ (by simp [Frame.levels])⟩
  · obtain ⟨first, rfl, rfl, fits⟩ := term_phrase stop limit room tokens content behind reading
    exact loop_fails stop limit sumGrowth (sums_loop stop limit) (term_phrase stop limit)
      room room (fun left below => terms left (Nat.le_of_lt below)) (.lone first) fits
      (Nat.zero_add room) behind error fails

theorem unary_fails (ends : stop.kind = .finish) (room : Nat) :
    FailsAtStub stop limit .unary room (unary stop limit room) := by
  induction room using Nat.strongRecOn with
  | ind room ih =>
    intro tokens error fails
    cases room with
    | zero =>
      rw [unary_zero] at fails
      cases fails
      exact ⟨.operand, tokens, rfl, by simp [Stub.levels], .full⟩
    | succ room =>
      have one : ∀ level ∈ [(⟨1, 0⟩ : Level)], level.depth ≤ room + 1 := by simp
      cases signed : after? .minus tokens with
      | some behind =>
        obtain ⟨minus, negates, rfl⟩ := after?_eq_some .minus tokens behind signed
        rcases chain_eq_error (unary stop limit room)
          (fun operand rest => .ok (.neg operand, rest)) behind error
          ((unary_minus signed).symm.trans fails) with fails | ⟨operand, left, -, fails⟩
        · obtain ⟨stub, rest, rfl, stops⟩ := ih room (Nat.lt_succ_self room) behind error fails
          exact ⟨.within (.neg minus negates) stub, rest, rfl,
            stops.within limit (.neg minus negates) stub (room + 1) _ _ one⟩
        · cases fails
      | none =>
        rw [unary_factor signed] at fails
        have inside := expression_fails stop limit room fun left below =>
          ih left (Nat.lt_succ_of_le below)
        rcases factor_fails stop limit ends room inside (ih room (Nat.lt_succ_self room)) tokens
          signed error fails with ⟨expected, refused, rfl⟩ | ⟨stub, rest, rfl, stops⟩
        · exact ⟨.operand, tokens, rfl, by simp [Stub.levels], .operand room expected refused⟩
        · exact ⟨.within .plain stub, rest, rfl,
            stops.within limit .plain stub (room + 1) _ _ one⟩

end Rules

end Formula.Grammar
