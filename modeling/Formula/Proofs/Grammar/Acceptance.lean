import Formula.Proofs.Grammar.Reading
import Formula.Proofs.Grammar.Soundness

/-!
# Which tokens are a formula

Tokens are accepted under some limit exactly when the grammar derives what stands before the first
end of the text, and the tree is the one that is derived. The limit that is needed is the cost of
the derivation; below it, reading ends at the first level that is deeper than the limit.
-/

set_option autoImplicit false

namespace Formula.Grammar

theorem body_derivation_ne_nil (tokens : List Token) (phrase : Derivation .expression)
    (derived : phrase.tokens = body tokens) : body tokens ≠ [] := by
  rw [← derived]
  exact phrase.tokens_ne_nil

/-- The outcome for tokens with a derivation, whatever the limit is. -/
theorem ofTokens_derivation (tokens : List Token) (phrase : Derivation .expression)
    (derived : phrase.tokens = body tokens) (limit : Nat) :
    Expr.ofTokens limit tokens =
      match phrase.levels.find? fun level => limit < level.depth with
      | some level =>
        .error (.tooDeep (next (finish tokens) (phrase.tokens.drop level.cursor)).position limit)
      | none => .ok phrase.tree := by
  have reading := phrase.read (finish tokens) limit limit [] rfl rfl
  rw [sums_done rfl, List.append_nil] at reading
  unfold descend at reading
  rw [Expr.ofTokens, if_neg (body_derivation_ne_nil tokens phrase derived), ← derived]
  cases found : phrase.levels.find? fun level => limit < level.depth with
  | some level =>
    rw [found] at reading
    simp only [reading]
  | none =>
    rw [found] at reading
    simp only [reading]

theorem ofTokens_of_cost_le (tokens : List Token) (phrase : Derivation .expression)
    (derived : phrase.tokens = body tokens) (limit : Nat) (enough : phrase.cost ≤ limit) :
    Expr.ofTokens limit tokens = .ok phrase.tree := by
  have fits : phrase.levels.find? (fun level => limit < level.depth) = none := by
    apply List.find?_eq_none.mpr
    intro level member
    have := (phrase.depth_le_iff limit).mpr enough level member
    simpa using this
  rw [ofTokens_derivation tokens phrase derived limit, fits]

/-- Under a limit below the cost, the first level beyond the limit is refused at its token. -/
theorem ofTokens_of_lt_cost (tokens : List Token) (phrase : Derivation .expression)
    (derived : phrase.tokens = body tokens) (limit : Nat) (short : limit < phrase.cost) :
    ∃ earlier level later token, phrase.levels = earlier ++ level :: later ∧
      (∀ before ∈ earlier, before.depth ≤ limit) ∧ limit < level.depth ∧
      (body tokens)[level.cursor]? = some token ∧
      Expr.ofTokens limit tokens = .error (.tooDeep token.position limit) := by
  cases found : phrase.levels.find? fun level => limit < level.depth with
  | none =>
    have shallow : phrase.cost ≤ limit := by
      apply (phrase.depth_le_iff limit).mp
      intro level member
      simpa using List.find?_eq_none.mp found level member
    omega
  | some level =>
    obtain ⟨beyond, earlier, later, split, before⟩ := List.find?_eq_some_iff_append.mp found
    have member : level ∈ phrase.levels := List.mem_of_find?_eq_some found
    have inside : level.cursor < (body tokens).length := by
      rw [← derived]
      exact phrase.cursor_lt_length level member
    refine ⟨earlier, level, later, (body tokens)[level.cursor], split, ?_, by simpa using beyond,
      List.getElem?_eq_getElem inside, ?_⟩
    · intro other otherMember
      simpa using before other otherMember
    · have front := List.drop_eq_getElem_cons inside
      rw [ofTokens_derivation tokens phrase derived limit, found, derived]
      simp only [front, next]

theorem ofTokens_sound (tokens : List Token) (limit : Nat) (tree : Expr)
    (success : Expr.ofTokens limit tokens = .ok tree) :
    ∃ phrase : Derivation .expression, phrase.tokens = body tokens ∧ phrase.tree = tree := by
  unfold Expr.ofTokens at success
  split at success
  · cases success
  · split at success
    · cases success
    · rename_i reading
      cases success
      obtain ⟨phrase, covers, same⟩ := expression_sound (finish tokens) limit limit
        (fun left _ => unary_sound (finish tokens) limit left) _ _ _ reading
      rw [List.append_nil] at covers
      exact ⟨phrase, covers, same⟩
    · cases success

theorem Derivation.tree_unique (phrase other : Derivation .expression)
    (same : phrase.tokens = other.tokens) : phrase.tree = other.tree := by
  have whole := phrase.body_tokens
  have first := ofTokens_of_cost_le phrase.tokens phrase whole.symm
    (phrase.cost + other.cost) (Nat.le_add_right _ _)
  have second := ofTokens_of_cost_le phrase.tokens other (same.symm.trans whole.symm)
    (phrase.cost + other.cost) (Nat.le_add_left _ _)
  exact Except.ok.inj (first.symm.trans second)

/-- Acceptance under a limit, in terms of derivations alone. -/
theorem ofTokens_eq_ok_iff (tokens : List Token) (limit : Nat) (tree : Expr) :
    Expr.ofTokens limit tokens = .ok tree ↔
      ∃ phrase : Derivation .expression, phrase.tokens = body tokens ∧ phrase.tree = tree ∧
        phrase.cost ≤ limit := by
  constructor
  · intro success
    obtain ⟨phrase, derived, same⟩ := ofTokens_sound tokens limit tree success
    refine ⟨phrase, derived, same, ?_⟩
    by_contra short
    obtain ⟨_, _, _, token, _, _, _, _, fails⟩ :=
      ofTokens_of_lt_cost tokens phrase derived limit (Nat.lt_of_not_le short)
    rw [success] at fails
    cases fails
  · rintro ⟨phrase, derived, rfl, enough⟩
    exact ofTokens_of_cost_le tokens phrase derived limit enough

/-! ## The grammar and the reader agree -/

theorem ofTokens_recognizes_grammar (tokens : List Token) :
    (∀ limit tree, Expr.ofTokens limit tokens = .ok tree →
      body tokens ≠ [] ∧ Derives (body tokens) tree) ∧
    (∀ tree, Derives (body tokens) tree →
      ∀ limit, (body tokens).length ≤ limit → Expr.ofTokens limit tokens = .ok tree) ∧
    ∀ phrase tree other, Derives phrase tree → Derives phrase other → tree = other := by
  refine ⟨?_, ?_, ?_⟩
  · intro limit tree success
    obtain ⟨phrase, derived, same⟩ := ofTokens_sound tokens limit tree success
    exact ⟨body_derivation_ne_nil tokens phrase derived, phrase, derived, same⟩
  · rintro tree ⟨phrase, derived, rfl⟩ limit enough
    have bound := phrase.cost_le_length
    rw [derived] at bound
    exact ofTokens_of_cost_le tokens phrase derived limit (Nat.le_trans bound enough)
  · rintro phrase tree other ⟨first, covers, rfl⟩ ⟨second, otherCovers, rfl⟩
    exact first.tree_unique second (covers.trans otherCovers.symm)

/-! ## The limit and the cost -/

theorem limit_trips_at_cost (tokens : List Token) (phrase : Derivation .expression)
    (derived : phrase.tokens = body tokens) (limit : Nat) :
    (phrase.cost ≤ limit → Expr.ofTokens limit tokens = .ok phrase.tree) ∧
    (limit < phrase.cost →
      ∃ earlier level later token, phrase.levels = earlier ++ level :: later ∧
        (∀ before ∈ earlier, before.depth ≤ limit) ∧ limit < level.depth ∧
        (body tokens)[level.cursor]? = some token ∧
        Expr.ofTokens limit tokens = .error (.tooDeep token.position limit)) :=
  ⟨ofTokens_of_cost_le tokens phrase derived limit,
    ofTokens_of_lt_cost tokens phrase derived limit⟩

/-- The derivation of `a*-b`, which costs three levels: the second operand, its sign and what is
negated. -/
def negatedProduct : Derivation .expression :=
  .lone (.product
    (.single (.plain (.bare (.leaf ⟨.var, "a", 0⟩ (.var "a") rfl))))
    ⟨.times, "*", 1⟩ .mul
    (.neg ⟨.minus, "-", 2⟩ (.plain (.bare (.leaf ⟨.var, "b", 3⟩ (.var "b") rfl))) rfl)
    rfl)

theorem negatedProduct_trips_below_three :
    negatedProduct.tokens = body (negatedProduct.tokens ++ [Token.atEnd 4, ⟨.plus, "+", 5⟩]) ∧
    Expr.ofTokens 3 (negatedProduct.tokens ++ [Token.atEnd 4, ⟨.plus, "+", 5⟩]) =
      .ok (.binary .mul (.var "a") (.neg (.var "b"))) ∧
    ∃ position, Expr.ofTokens 2 (negatedProduct.tokens ++ [Token.atEnd 4, ⟨.plus, "+", 5⟩]) =
      .error (.tooDeep position 2) := by
  have derived : negatedProduct.tokens =
      body (negatedProduct.tokens ++ [Token.atEnd 4, ⟨.plus, "+", 5⟩]) := rfl
  refine ⟨derived, ?_, ?_⟩
  · exact (limit_trips_at_cost _ negatedProduct derived 3).1 (by decide)
  · obtain ⟨_, _, _, token, _, _, _, _, fails⟩ :=
      (limit_trips_at_cost _ negatedProduct derived 2).2 (by decide)
    exact ⟨token.position, fails⟩

end Formula.Grammar
