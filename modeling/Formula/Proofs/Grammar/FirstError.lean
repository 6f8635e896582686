import Formula.Proofs.Grammar.Acceptance
import Formula.Proofs.Grammar.Failure

/-!
# The first wrong token

The error for a token list is found at the first token with which the tokens before it cannot go
on. The main statements say that the error is the same for all token lists that agree up to this
token; that the tokens before an unexpected one can be continued to a formula; and that the tokens
before a trailing one are a formula.
-/

set_option autoImplicit false

namespace Formula

def SyntaxError.PointsTo : SyntaxError → Token → Prop
  | .empty, _ => False
  | .unexpected found _, token => found = token
  | .trailing found, token => found = token
  | .tooDeep position _, token => position = token.position

namespace Grammar

/-- The tokens with their end, which is put behind them where it is missing. -/
def closed (tokens : List Token) : List Token :=
  if tokens.any Token.isFinish then tokens else tokens ++ [finish tokens]

/-! ## The tokens before the end -/

theorem body_not_finish (tokens : List Token) : ∀ token ∈ body tokens, token.isFinish = false := by
  intro token member
  simpa using List.mem_takeWhile_imp member

theorem find?_of_ordinary (tokens : List Token)
    (ordinary : ∀ token ∈ tokens, token.isFinish = false) :
    tokens.find? Token.isFinish = none := by
  apply List.find?_eq_none.mpr
  intro token member
  rw [ordinary token member]
  exact Bool.false_ne_true

theorem finish_append (taken : List Token) (ordinary : ∀ token ∈ taken, token.isFinish = false)
    (token : Token) (is : token.isFinish = true) (rest : List Token) :
    finish (taken ++ token :: rest) = token := by
  simp only [finish, List.find?_append, find?_of_ordinary taken ordinary, Option.none_or,
    List.find?_cons, is]

theorem closed_eq (tokens : List Token) :
    ∃ behind, closed tokens = body tokens ++ finish tokens :: behind := by
  have split : body tokens ++ tokens.dropWhile (fun token => !token.isFinish) = tokens :=
    List.takeWhile_append_dropWhile
  unfold closed
  cases left : tokens.dropWhile fun token => !token.isFinish with
  | nil =>
    rw [left, List.append_nil] at split
    have endless : tokens.any Token.isFinish = false := by
      apply List.any_eq_false.mpr
      intro token member
      rw [← split] at member
      simp [body_not_finish tokens token member]
    rw [endless, split]
    exact ⟨[], by simp⟩
  | cons token behind =>
    have is : token.isFinish = true := by
      have stops := List.head?_dropWhile_not (fun token : Token => !token.isFinish) tokens
      rw [left] at stops
      simpa using stops
    rw [left] at split
    have ended : tokens.any Token.isFinish = true := by
      apply List.any_eq_true.mpr
      exact ⟨token, by rw [← split]; simp, is⟩
    have same := finish_append (body tokens) (body_not_finish tokens) token is behind
    rw [split] at same
    rw [ended, if_pos rfl, same]
    exact ⟨behind, split.symm⟩

theorem finish_kind (tokens : List Token) : (finish tokens).kind = .finish := by
  unfold finish
  split
  · rename_i token found
    have is : token.isFinish = true := List.find?_some found
    exact eq_of_beq is
  · rfl

theorem next_drop_append (stop stop' : Token) (taken rest rest' : List Token)
    (same : next stop rest = next stop' rest') (cursor : Nat) (inside : cursor ≤ taken.length) :
    next stop ((taken ++ rest).drop cursor) = next stop' ((taken ++ rest').drop cursor) := by
  induction taken generalizing cursor with
  | nil =>
    obtain rfl : cursor = 0 := by simpa using inside
    exact same
  | cons token taken ih =>
    cases cursor with
    | zero => rfl
    | succ cursor => exact ih cursor (by simpa using inside)

/-! ## Token lists that agree up to a token -/

/-- Two token lists with the same tokens in front of `rest` and of `rest'`, and the same token, or
the same end, there. -/
structure Agree (tokens other taken rest rest' : List Token) : Prop where
  split : body tokens = taken ++ rest
  split' : body other = taken ++ rest'
  same : next (finish tokens) rest = next (finish other) rest'
  nonempty : body tokens ≠ [] → body other ≠ []

theorem closed_take (tokens taken rest : List Token) (split : body tokens = taken ++ rest) :
    ∃ behind, closed tokens = taken ++ next (finish tokens) rest :: behind := by
  obtain ⟨behind, closes⟩ := closed_eq tokens
  rw [closes, split]
  cases rest with
  | nil => exact ⟨behind, by simp [next]⟩
  | cons token rest => exact ⟨rest ++ finish tokens :: behind, by simp [next]⟩

theorem agree_of_append (tokens taken rest behind : List Token)
    (split : body tokens = taken ++ rest) :
    ∃ rest', Agree tokens (taken ++ next (finish tokens) rest :: behind) taken rest rest' := by
  have ordinary : ∀ token ∈ taken, token.isFinish = false := by
    intro token member
    exact body_not_finish tokens token (by rw [split]; exact List.mem_append_left rest member)
  cases rest with
  | nil =>
    have is : (finish tokens).isFinish = true := beq_iff_eq.mpr (finish_kind tokens)
    have whole : body (taken ++ finish tokens :: behind) = taken := by
      rw [body_append taken ordinary, body_cons_of_finish _ is, List.append_nil]
    refine ⟨[], split, by simpa [next] using whole, ?_, ?_⟩
    · exact (finish_append taken ordinary (finish tokens) is behind).symm
    · intro nonempty
      rw [split, List.append_nil] at nonempty
      simpa [next, whole] using nonempty
  | cons token rest =>
    have inside : token.isFinish = false :=
      body_not_finish tokens token (by rw [split]; simp)
    refine ⟨token :: body behind, split, ?_, rfl, ?_⟩
    · rw [body_append taken ordinary, next, body_cons token inside]
    · rw [body_append taken ordinary, next, body_cons token inside]
      simp

theorem agree_of_take (tokens other taken rest : List Token) (split : body tokens = taken ++ rest)
    (agree : other.take (taken.length + 1) = (closed tokens).take (taken.length + 1)) :
    ∃ rest', Agree tokens other taken rest rest' := by
  obtain ⟨behind, closes⟩ := closed_take tokens taken rest split
  have front : (closed tokens).take (taken.length + 1) = taken ++ [next (finish tokens) rest] := by
    rw [closes, List.take_append, List.take_of_length_le (Nat.le_succ _), Nat.add_sub_cancel_left]
    rfl
  have whole := List.take_append_drop (taken.length + 1) other
  rw [agree, front, List.append_assoc, List.singleton_append] at whole
  rw [← whole]
  exact agree_of_append tokens taken rest _ split

/-! ## Reading agreeing token lists -/

theorem ofTokens_of_error (tokens : List Token) (nonempty : body tokens ≠ []) (limit : Nat)
    (error : SyntaxError)
    (fails : expression (finish tokens) limit limit (body tokens) = .error error) :
    Expr.ofTokens limit tokens = .error error := by
  rw [Expr.ofTokens, if_neg nonempty, fails]

/-- A token list that starts with a stub fails with the first level beyond the limit, or with the
error behind the stub. -/
theorem ofTokens_of_stub (tokens : List Token) (nonempty : body tokens ≠ []) (limit : Nat)
    (stub : Stub .expression) (rest : List Token) (split : body tokens = stub.tokens ++ rest)
    (error : SyntaxError)
    (blocked : Blocked limit (next (finish tokens) rest) stub.missing (limit - stub.down) error) :
    ∃ first, Expr.ofTokens limit tokens = .error first ∧
      descend (finish tokens) limit limit (body tokens) stub.levels (.error error) =
        .error first := by
  have reading := stub.read (finish tokens) limit (finish_kind tokens) limit rest error blocked
  obtain ⟨first, fails⟩ := descend_error (finish tokens) limit limit (body tokens) stub.levels error
  refine ⟨first, ofTokens_of_error tokens nonempty limit first ?_, fails⟩
  rw [split] at fails ⊢
  exact reading.trans fails

/-- Where the limit does not trip, a stub ends in the error behind it. -/
theorem ofTokens_of_taken (tokens : List Token) (nonempty : body tokens ≠ []) (limit : Nat)
    (stub : Stub .expression) (rest : List Token) (split : body tokens = stub.tokens ++ rest)
    (error : SyntaxError)
    (blocked : Blocked limit (next (finish tokens) rest) stub.missing (limit - stub.down) error)
    (taken : ∀ level ∈ stub.levels, level.depth ≤ limit) :
    Expr.ofTokens limit tokens = .error error := by
  obtain ⟨first, fails, descends⟩ :=
    ofTokens_of_stub tokens nonempty limit stub rest split error blocked
  rw [descend_of_taken _ _ _ _ _ taken] at descends
  cases descends
  exact fails

/-- An error other than that of the limit is found behind levels that fit. -/
theorem taken_of_ofTokens (tokens : List Token) (nonempty : body tokens ≠ []) (limit : Nat)
    (stub : Stub .expression) (rest : List Token) (split : body tokens = stub.tokens ++ rest)
    (error : SyntaxError)
    (blocked : Blocked limit (next (finish tokens) rest) stub.missing (limit - stub.down) error)
    (fails : Expr.ofTokens limit tokens = .error error)
    (shallow : ∀ position given, error ≠ .tooDeep position given) :
    ∀ level ∈ stub.levels, level.depth ≤ limit := by
  obtain ⟨first, fails', descends⟩ :=
    ofTokens_of_stub tokens nonempty limit stub rest split error blocked
  cases fails.symm.trans fails'
  exact taken_of_descend _ _ _ _ _ _ _ descends fun position same =>
    shallow position limit (Except.error.inj same)

theorem descend_of_agree (tokens other taken rest rest' : List Token)
    (agree : Agree tokens other taken rest rest') (limit room : Nat) (levels : List Level)
    (inside : ∀ level ∈ levels, level.cursor ≤ taken.length)
    (result : Except SyntaxError (Expr × List Token)) :
    descend (finish tokens) limit room (body tokens) levels result =
      descend (finish other) limit room (body other) levels result := by
  unfold descend
  cases found : levels.find? fun level => room < level.depth with
  | none => rfl
  | some level =>
    have same := next_drop_append (finish tokens) (finish other) taken rest rest' agree.same
      level.cursor (inside level (List.mem_of_find?_eq_some found))
    simp only [agree.split, agree.split', same]

theorem ofTokens_of_agree_stub (tokens other : List Token) (nonempty : body tokens ≠ [])
    (limit : Nat) (stub : Stub .expression) (rest rest' : List Token)
    (agree : Agree tokens other stub.tokens rest rest') (error : SyntaxError)
    (blocked : Blocked limit (next (finish tokens) rest) stub.missing (limit - stub.down) error) :
    Expr.ofTokens limit other = Expr.ofTokens limit tokens := by
  obtain ⟨first, fails, descends⟩ :=
    ofTokens_of_stub tokens nonempty limit stub rest agree.split error blocked
  obtain ⟨first', fails', descends'⟩ := ofTokens_of_stub other (agree.nonempty nonempty) limit stub
    rest' agree.split' error (agree.same ▸ blocked)
  rw [descend_of_agree tokens other stub.tokens rest rest' agree limit limit stub.levels
    stub.cursor_le_length, descends'] at descends
  rw [fails, fails']
  cases descends
  rfl

theorem ofTokens_trailing (tokens : List Token) (limit : Nat) (phrase : Derivation .expression)
    (fits : phrase.cost ≤ limit) (token : Token) (rest : List Token)
    (split : body tokens = phrase.tokens ++ token :: rest) (ended : Ended (token :: rest)) :
    Expr.ofTokens limit tokens = .error (.trailing token) := by
  have reading := phrase.read (finish tokens) limit limit (token :: rest) ended.noPower
    ended.noProduct
  rw [sums_done ended.noSum, descend_of_taken _ _ _ _ _ (phrase.levels_fit limit fits)] at reading
  rw [Expr.ofTokens, if_neg (by rw [split]; simp), split, reading]

theorem ofTokens_of_agree_trailing (tokens other : List Token) (limit : Nat)
    (phrase : Derivation .expression) (fits : phrase.cost ≤ limit) (token : Token)
    (rest rest' : List Token) (agree : Agree tokens other phrase.tokens (token :: rest) rest')
    (ended : Ended (token :: rest)) : Expr.ofTokens limit other = .error (.trailing token) := by
  have ordinary : token.isFinish = false :=
    body_not_finish tokens token (by rw [agree.split]; simp)
  cases rest' with
  | nil =>
    have stops : token = finish other := agree.same
    have is : (finish other).isFinish = true := beq_iff_eq.mpr (finish_kind other)
    rw [← stops, ordinary] at is
    cases is
  | cons token' rest' =>
    obtain rfl : token = token' := agree.same
    have joinless := (ended_iff (finish tokens) (finish_kind tokens) (token :: rest)).mp ended
    have ended' := (ended_iff (finish other) (finish_kind other) (token :: rest')).mpr joinless
    exact ofTokens_trailing other limit phrase fits token rest' agree.split' ended'

/-- What a token list fails with: nothing is there, a stub is cut off, or tokens are left behind an
expression. -/
theorem ofTokens_error_cases (tokens : List Token) (limit : Nat) (error : SyntaxError)
    (fails : Expr.ofTokens limit tokens = .error error) :
    (body tokens = [] ∧ error = .empty) ∨
    (body tokens ≠ [] ∧ ∃ (stub : Stub .expression) (rest : List Token),
      body tokens = stub.tokens ++ rest ∧
        stub.Fails limit limit (next (finish tokens) rest) error) ∨
    ∃ (phrase : Derivation .expression) (token : Token) (rest : List Token),
      body tokens = phrase.tokens ++ token :: rest ∧ phrase.cost ≤ limit ∧
        Ended (token :: rest) ∧ error = .trailing token := by
  unfold Expr.ofTokens at fails
  split at fails
  · rename_i empty
    cases fails
    exact Or.inl ⟨empty, rfl⟩
  · rename_i nonempty
    cases reading : expression (finish tokens) limit limit (body tokens) with
    | error first =>
      rw [reading] at fails
      cases fails
      obtain ⟨stub, rest, covers, stops⟩ := expression_fails (finish tokens) limit limit
        (fun left _ => unary_fails (finish tokens) limit (finish_kind tokens) left) _ _ reading
      exact Or.inr (Or.inl ⟨nonempty, stub, rest, covers.symm, stops⟩)
    | ok read =>
      obtain ⟨tree, rest⟩ := read
      rw [reading] at fails
      cases rest with
      | nil => cases fails
      | cons token rest =>
        cases fails
        have ended := expression_ended _ _ _ _ _ _ reading
        obtain ⟨phrase, covers, -, fits⟩ := expression_phrase _ _ _ _ _ _ reading
        exact Or.inr (Or.inr ⟨phrase, token, rest, covers.symm, fits, ended, rfl⟩)

/-! ## Errors at the first wrong token -/

theorem Blocked.pointsTo {limit room : Nat} {token : Token} {missing : Expected}
    {error : SyntaxError} (blocked : Blocked limit token missing room error) :
    error.PointsTo token := by
  cases blocked <;> rfl

theorem Blocked.ne_trailing {limit room : Nat} {token : Token} {missing : Expected}
    {error : SyntaxError} (blocked : Blocked limit token missing room error) (found : Token) :
    error ≠ .trailing found := by
  cases blocked <;> simp

theorem ofTokens_eq_empty_iff (tokens : List Token) (limit : Nat) :
    Expr.ofTokens limit tokens = .error .empty ↔ body tokens = [] := by
  constructor
  · intro fails
    rcases ofTokens_error_cases tokens limit .empty fails with
      ⟨nothing, -⟩ | ⟨-, stub, rest, -, stops⟩ | ⟨_, _, _, _, _, _, trails⟩
    · exact nothing
    · exact stops.blocked.pointsTo.elim
    · cases trails
  · intro nothing
    rw [Expr.ofTokens, if_pos nothing]

theorem ofTokens_empty_iff (tokens : List Token) (limit : Nat) :
    Expr.ofTokens limit tokens = .error .empty ↔
      ∃ token rest, closed tokens = token :: rest ∧ token.isFinish = true := by
  obtain ⟨behind, closes⟩ := closed_eq tokens
  rw [ofTokens_eq_empty_iff, closes]
  cases before : body tokens with
  | nil =>
    exact iff_of_true rfl ⟨finish tokens, behind, rfl, beq_iff_eq.mpr (finish_kind tokens)⟩
  | cons first rest =>
    have ordinary := body_not_finish tokens first (by rw [before]; exact List.mem_cons_self)
    apply iff_of_false (List.cons_ne_nil first rest)
    rintro ⟨token, _, starts, is⟩
    obtain ⟨rfl, -⟩ := List.cons.inj starts
    exact Bool.false_ne_true (ordinary.symm.trans is)

/-- The tokens in front of the one that an error names, and that they are a formula if it is a
trailing one. -/
theorem ofTokens_error_behind (tokens : List Token) (limit : Nat) (error : SyntaxError)
    (fails : Expr.ofTokens limit tokens = .error error) (ordinary : error ≠ .empty) :
    ∃ front token rest, closed tokens = front ++ token :: rest ∧ error.PointsTo token ∧
      ∀ found, error = .trailing found → ∃ tree, ∀ position,
        Expr.ofTokens limit (front ++ [Token.atEnd position]) = .ok tree := by
  rcases ofTokens_error_cases tokens limit error fails with
    ⟨-, nothing⟩ | ⟨-, stub, rest, split, stops⟩ | ⟨phrase, token, rest, split, fits, -, trails⟩
  · exact absurd nothing ordinary
  · obtain ⟨behind, closes⟩ := closed_take tokens stub.tokens rest split
    refine ⟨stub.tokens, _, behind, closes, stops.blocked.pointsTo, ?_⟩
    intro found trails
    exact absurd trails (stops.blocked.ne_trailing found)
  · obtain ⟨behind, closes⟩ := closed_take tokens phrase.tokens (token :: rest) split
    subst trails
    refine ⟨phrase.tokens, token, behind, closes, rfl, ?_⟩
    intro found _
    refine ⟨phrase.tree, ?_⟩
    intro position
    exact ofTokens_of_cost_le _ phrase (phrase.body_tokens_append (Token.atEnd position) [] rfl).symm
      limit fits

/-- The tokens of a stub can be continued to a formula, for one level more. -/
theorem viable_of_stub (stub : Stub .expression) (limit : Nat)
    (taken : ∀ level ∈ stub.levels, level.depth ≤ limit) :
    ∃ continuation tree, Expr.ofTokens (limit + 1) (stub.tokens ++ continuation) = .ok tree := by
  obtain ⟨continuation, completes⟩ := stub.tokens_complete
  refine ⟨continuation, stub.complete.tree, ?_⟩
  rw [← completes]
  exact ofTokens_of_cost_le _ stub.complete stub.complete.body_tokens.symm (limit + 1)
    (stub.cost_complete limit taken)

theorem closed_front (tokens taken rest : List Token) (split : body tokens = taken ++ rest) :
    taken.length ≤ (body tokens).length ∧
      (closed tokens)[taken.length]? = some (next (finish tokens) rest) ∧
      (closed tokens).take taken.length = taken := by
  obtain ⟨behind, closes⟩ := closed_take tokens taken rest split
  refine ⟨by simp [split], ?_, ?_⟩
  · rw [closes, List.getElem?_append_right (Nat.le_refl _), Nat.sub_self]
    rfl
  · rw [closes, List.take_left]

theorem error_at_first_wrong_token (tokens : List Token) (limit : Nat) :
    (Expr.ofTokens limit tokens = .error .empty ↔
      ∃ token rest, closed tokens = token :: rest ∧ token.isFinish = true) ∧
    ∀ error, Expr.ofTokens limit tokens = .error error → error ≠ .empty →
      ∃ index token, index ≤ (body tokens).length ∧ (closed tokens)[index]? = some token ∧
        error.PointsTo token ∧
        (∀ other, other.take (index + 1) = (closed tokens).take (index + 1) →
          Expr.ofTokens limit other = .error error) ∧
        (∀ found expected, error = .unexpected found expected →
          ∃ continuation tree,
            Expr.ofTokens (limit + 1) ((closed tokens).take index ++ continuation) = .ok tree) ∧
        ∀ found, error = .trailing found →
          (∃ tree, Expr.ofTokens limit ((closed tokens).take index) = .ok tree) ∧
            found.kind ∉ [.plus, .minus, .times, .divide, .power, .finish] := by
  refine ⟨ofTokens_empty_iff tokens limit, ?_⟩
  intro error fails ordinary
  rcases ofTokens_error_cases tokens limit error fails with
    ⟨-, nothing⟩ | ⟨nonempty, stub, rest, split, stops⟩ |
    ⟨phrase, token, rest, split, fits, ended, trails⟩
  · exact absurd nothing ordinary
  · obtain ⟨inside, there, front⟩ := closed_front tokens stub.tokens rest split
    refine ⟨stub.tokens.length, _, inside, there, stops.blocked.pointsTo, ?_, ?_, ?_⟩
    · intro other agree
      obtain ⟨rest', agrees⟩ := agree_of_take tokens other stub.tokens rest split agree
      rw [ofTokens_of_agree_stub tokens other nonempty limit stub rest rest' agrees error
        stops.blocked, fails]
    · rintro found expected rfl
      obtain ⟨first, fails', descends⟩ :=
        ofTokens_of_stub tokens nonempty limit stub rest split _ stops.blocked
      cases fails.symm.trans fails'
      rw [front]
      exact viable_of_stub stub limit (taken_of_descend _ _ _ _ _ _ _ descends (by simp))
    · intro found trails
      exact absurd trails (stops.blocked.ne_trailing found)
  · obtain ⟨inside, there, front⟩ := closed_front tokens phrase.tokens (token :: rest) split
    subst trails
    refine ⟨phrase.tokens.length, token, inside, there, rfl, ?_, ?_, ?_⟩
    · intro other agree
      obtain ⟨rest', agrees⟩ := agree_of_take tokens other phrase.tokens _ split agree
      exact ofTokens_of_agree_trailing tokens other limit phrase fits token rest rest' agrees ended
    · rintro found expected trails
      cases trails
    · rintro found trails
      cases trails
      refine ⟨⟨phrase.tree, ?_⟩, ?_⟩
      · rw [front]
        exact ofTokens_of_cost_le _ phrase phrase.body_tokens.symm limit fits
      · have ordinary : token.kind ≠ .finish := by
          have := body_not_finish tokens token (by rw [split]; simp)
          simpa [Token.isFinish] using this
        have joinless := (ended_iff (finish tokens) (finish_kind tokens) _).mp ended
        simp only [joining, next, List.mem_cons, List.not_mem_nil, or_false, not_or] at joinless
        simp only [List.mem_cons, List.not_mem_nil, or_false, not_or]
        exact ⟨joinless.1, joinless.2.1, joinless.2.2.1, joinless.2.2.2.1, joinless.2.2.2.2,
          ordinary⟩

end Grammar
end Formula
