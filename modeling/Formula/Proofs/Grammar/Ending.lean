import Formula.Proofs.Grammar.Threshold

/-!
# The end of the text

The first token that ends the text is the last one that counts: what stands behind it is not looked
at, and where there is none, one right behind the last token stands in. Nothing of the ending token
shows but in an error in front of it, which names it or gives its position.
-/

set_option autoImplicit false

namespace Formula.Grammar

/-- What becomes of tokens, as a function of the token that ends them. -/
inductive Ending (tokens : List Token) (limit : Nat) : (Token → Except SyntaxError Expr) → Prop where
  | accepted (tree : Expr) : Ending tokens limit fun _ => .ok tree
  | empty (nothing : tokens = []) : Ending tokens limit fun _ => .error .empty
  /-- The error is at one of the tokens. -/
  | inside (error : SyntaxError) (token : Token) (member : token ∈ tokens)
    (points : error.PointsTo token) : Ending tokens limit fun _ => .error error
  /-- The text ends where something else is expected. -/
  | unexpected (expected : Expected) :
    Ending tokens limit fun last => .error (.unexpected last expected)
  /-- The levels are used up where the text ends. -/
  | tooDeep : Ending tokens limit fun last => .error (.tooDeep last.position limit)

/-! ## Tokens that count -/

/-- Only the tokens before the end and the end itself are looked at. -/
theorem ofTokens_congr (tokens other : List Token) (before : body tokens = body other)
    (last : finish tokens = finish other) (limit : Nat) :
    Expr.ofTokens limit tokens = Expr.ofTokens limit other := by
  unfold Expr.ofTokens
  rw [before, last]

section Ordinary

variable (tokens : List Token) (ordinary : ∀ token ∈ tokens, token.isFinish = false)

include ordinary

theorem body_ended (last : Token) (is : last.isFinish = true) (behind : List Token) :
    body (tokens ++ last :: behind) = tokens := by
  rw [body_append tokens ordinary, body_cons_of_finish last is, List.append_nil]

/-- Without an end the text ends right behind its last token. -/
theorem finish_of_ordinary :
    finish tokens = Token.atEnd ((tokens.getLast?.map Token.stop).getD 0) := by
  rw [finish, find?_of_ordinary tokens ordinary]

theorem ofTokens_behind_end (limit : Nat) (last : Token) (is : last.isFinish = true)
    (behind : List Token) :
    Expr.ofTokens limit (tokens ++ last :: behind) = Expr.ofTokens limit (tokens ++ [last]) := by
  apply ofTokens_congr
  · rw [body_ended tokens ordinary last is, body_ended tokens ordinary last is]
  · rw [finish_append tokens ordinary last is, finish_append tokens ordinary last is]

theorem ofTokens_without_end (limit : Nat) :
    Expr.ofTokens limit tokens =
      Expr.ofTokens limit
        (tokens ++ [Token.atEnd ((tokens.getLast?.map Token.stop).getD 0)]) := by
  apply ofTokens_congr
  · rw [body_ended tokens ordinary _ rfl, body_of_ordinary tokens ordinary]
  · rw [finish_append tokens ordinary _ rfl, finish_of_ordinary tokens ordinary]

end Ordinary

/-! ## Reading up to the end -/

/-- Reading stops at an end for the same reason as at any other end. -/
theorem Blocked.at_end {limit room : Nat} {token : Token} {missing : Expected}
    {error : SyntaxError} (blocked : Blocked limit token missing room error)
    (is : token.kind = .finish) :
    error = .tooDeep token.position limit ∨
    ∃ expected, error = .unexpected token expected ∧ ∀ last : Token, last.kind = .finish →
      Blocked limit last missing room (.unexpected last expected) := by
  cases blocked with
  | full => exact Or.inl rfl
  | operand room expected refused =>
    refine Or.inr ⟨expected, rfl, ?_⟩
    intro last ends
    have same : refusal? last = refusal? token := by
      unfold refusal?
      rw [ends, is]
    exact .operand room expected (same.trans refused)
  | opening room function other =>
    refine Or.inr ⟨_, rfl, ?_⟩
    intro last ends
    exact .opening room function (by rw [ends]; decide)
  | closing room close closes other ended =>
    refine Or.inr ⟨_, rfl, ?_⟩
    intro last ends
    exact .closing room _ closes (by rw [ends]; decide) (by rw [ends]; decide)

def EndsAs (tokens : List Token) (limit : Nat) (outcome : Token → Except SyntaxError Expr) : Prop :=
  ∀ last : Token, last.isFinish = true → Expr.ofTokens limit (tokens ++ [last]) = outcome last

section Outcomes

variable (tokens : List Token) (ordinary : ∀ token ∈ tokens, token.isFinish = false) (limit : Nat)

include ordinary

theorem endsAs_of_ok (tree : Expr)
    (accepted : Expr.ofTokens limit (tokens ++ [Token.atEnd 0]) = .ok tree) :
    EndsAs tokens limit fun _ => .ok tree := by
  intro last is
  obtain ⟨phrase, derived, same, fits⟩ := (ofTokens_eq_ok_iff _ limit tree).mp accepted
  rw [body_ended tokens ordinary _ rfl] at derived
  exact (ofTokens_eq_ok_iff _ limit tree).mpr
    ⟨phrase, derived.trans (body_ended tokens ordinary last is []).symm, same, fits⟩

/-- A stub in front of further tokens ends in the same error whatever ends them. -/
theorem endsAs_of_stub_inside (nonempty : tokens ≠ []) (stub : Stub .expression) (token : Token)
    (rest : List Token) (split : tokens = stub.tokens ++ token :: rest) (error : SyntaxError)
    (fails : Expr.ofTokens limit (tokens ++ [Token.atEnd 0]) = .error error)
    (stops : stub.Fails limit limit token error) : EndsAs tokens limit fun _ => .error error := by
  intro last is
  have whole := body_ended tokens ordinary (Token.atEnd 0) rfl []
  have whole' := body_ended tokens ordinary last is []
  have agree : Agree (tokens ++ [Token.atEnd 0]) (tokens ++ [last]) stub.tokens (token :: rest)
      (token :: rest) :=
    ⟨whole.trans split, whole'.trans split, rfl, fun _ => by rw [whole']; exact nonempty⟩
  rw [ofTokens_of_agree_stub _ _ (by rw [whole]; exact nonempty) limit stub _ _ agree error
    stops.blocked, fails]

/-- A stub that is all there is fails at the end, in the same way at each. -/
theorem ending_of_stub (nonempty : tokens ≠ []) (stub : Stub .expression)
    (split : tokens = stub.tokens) (error : SyntaxError)
    (fails : Expr.ofTokens limit (tokens ++ [Token.atEnd 0]) = .error error)
    (stops : stub.Fails limit limit (Token.atEnd 0) error) :
    ∃ outcome, Ending tokens limit outcome ∧ EndsAs tokens limit outcome := by
  have covers : ∀ last : Token, last.isFinish = true →
      body (tokens ++ [last]) = stub.tokens ++ [] := by
    intro last is
    rw [body_ended tokens ordinary last is, List.append_nil, split]
  have keeps : ∀ last : Token, last.isFinish = true → body (tokens ++ [last]) ≠ [] := by
    intro last is
    rw [body_ended tokens ordinary last is]
    exact nonempty
  rcases stops.blocked.at_end rfl with deep | ⟨expected, wrong, again⟩
  · refine ⟨_, .tooDeep, ?_⟩
    intro last is
    have blocked := stops.blocked
    rw [deep] at blocked
    obtain ⟨operand, full, -⟩ := blocked.of_tooDeep
    rw [ofTokens_full _ (keeps last is) limit stub [] (covers last is)
      ⟨stops.taken, operand, Nat.le_of_sub_eq_zero full⟩, finish_append tokens ordinary last is]
    rfl
  · refine ⟨_, .unexpected expected, ?_⟩
    intro last is
    have taken := taken_of_ofTokens _ (keeps _ rfl) limit stub [] (covers _ rfl) error
      (by rw [finish_append tokens ordinary _ rfl]; exact stops.blocked) fails
      (by rw [wrong]; simp)
    refine ofTokens_of_taken _ (keeps last is) limit stub [] (covers last is) _ ?_ taken
    rw [finish_append tokens ordinary last is]
    exact again last (beq_iff_eq.mp is)

theorem exists_ending : ∃ outcome, Ending tokens limit outcome ∧ EndsAs tokens limit outcome := by
  have whole := body_ended tokens ordinary (Token.atEnd 0) rfl []
  have ends := finish_append tokens ordinary (Token.atEnd 0) rfl []
  cases reading : Expr.ofTokens limit (tokens ++ [Token.atEnd 0]) with
  | ok tree => exact ⟨_, .accepted tree, endsAs_of_ok tokens ordinary limit tree reading⟩
  | error error =>
    rcases ofTokens_error_cases _ limit error reading with
      ⟨nothing, rfl⟩ | ⟨nonempty, stub, rest, split, stops⟩ |
      ⟨phrase, token, rest, split, fits, ended, rfl⟩
    · rw [whole] at nothing
      refine ⟨_, .empty nothing, ?_⟩
      intro last is
      exact (ofTokens_eq_empty_iff _ limit).mpr
        ((body_ended tokens ordinary last is []).trans nothing)
    · rw [whole] at nonempty split
      rw [ends] at stops
      cases rest with
      | nil =>
        rw [List.append_nil] at split
        exact ending_of_stub tokens ordinary limit nonempty stub split error reading stops
      | cons token rest =>
        have member : token ∈ tokens := by
          rw [split]
          simp
        exact ⟨_, .inside error token member stops.blocked.pointsTo,
          endsAs_of_stub_inside tokens ordinary limit nonempty stub token rest split error reading
            stops⟩
    · rw [whole] at split
      have member : token ∈ tokens := by
        rw [split]
        simp
      refine ⟨_, .inside (.trailing token) token member rfl, ?_⟩
      intro last is
      exact ofTokens_trailing _ limit phrase fits token rest
        ((body_ended tokens ordinary last is []).trans split) ended

end Outcomes

/-- Nothing behind the first end counts, a missing end is right behind the last token, and the end
itself shows only where it is what an error names. -/
theorem ofTokens_up_to_end (tokens : List Token)
    (ordinary : ∀ token ∈ tokens, token.isFinish = false) (limit : Nat) :
    (∀ last : Token, last.isFinish = true → ∀ behind,
      Expr.ofTokens limit (tokens ++ [last] ++ behind) = Expr.ofTokens limit (tokens ++ [last])) ∧
    Expr.ofTokens limit tokens =
      Expr.ofTokens limit
        (tokens ++ [Token.atEnd ((tokens.getLast?.map Token.stop).getD 0)]) ∧
    ∃ outcome, Ending tokens limit outcome ∧ EndsAs tokens limit outcome := by
  refine ⟨?_, ofTokens_without_end tokens ordinary limit, exists_ending tokens ordinary limit⟩
  intro last is behind
  rw [List.append_assoc]
  exact ofTokens_behind_end tokens ordinary limit last is behind

def openGroup : List Token := [⟨.leftParen, "(", 0⟩, ⟨.number, "1", 1⟩]

def strangeEnd : Token := ⟨.finish, "end", 40⟩

theorem openGroup_fails_at_end :
    (∀ token ∈ openGroup, token.isFinish = false) ∧ strangeEnd.isFinish = true ∧
    Expr.ofTokens 8 (openGroup ++ [strangeEnd] ++ [⟨.rightParen, ")", 2⟩]) =
      .error (.unexpected strangeEnd .groupEnd) ∧
    Expr.ofTokens 8 openGroup = .error (.unexpected (Token.atEnd 2) .groupEnd) := by
  have ordinary : ∀ token ∈ openGroup, token.isFinish = false := by decide
  obtain ⟨behind, missing, -⟩ := ofTokens_up_to_end openGroup ordinary 8
  refine ⟨ordinary, rfl, ?_, ?_⟩
  · rw [behind strangeEnd rfl]
    decide +kernel
  · rw [missing]
    decide +kernel

end Formula.Grammar
