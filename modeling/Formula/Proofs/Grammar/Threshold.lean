import Formula.Proofs.Grammar.FirstError
import Mathlib.Data.Nat.Find
import Mathlib.Tactic.Choose

/-!
# The limit is invisible unless it trips

For every token list, formula or not, there is a threshold for the limit: below it the limit is
what the list fails with, and from it on the outcome is always the same. Where the limit trips
moves forward only as it grows. The token at which it trips is told from the outside, by the
shortest part of the tokens that settles the outcome.
-/

set_option autoImplicit false

namespace Formula.Grammar

/-- The outcome is settled by the tokens up to the one at `index`. -/
def SettledAt (limit : Nat) (tokens : List Token) (index : Nat) : Prop :=
  ∀ other, other.take (index + 1) = (closed tokens).take (index + 1) →
    Expr.ofTokens limit other = Expr.ofTokens limit tokens

/-- The limit trips at the token at `index`: the error carries its position, and the outcome is
settled there and no earlier. -/
structure TripsAt (limit : Nat) (tokens : List Token) (index : Nat) : Prop where
  reported : ∃ token, (closed tokens)[index]? = some token ∧
    Expr.ofTokens limit tokens = .error (.tooDeep token.position limit)
  settled : SettledAt limit tokens index
  first : ∀ earlier < index, ¬ SettledAt limit tokens earlier

structure Stub.Full (stub : Stub .expression) (limit : Nat) : Prop where
  taken : ∀ level ∈ stub.levels, level.cursor < stub.tokens.length → level.depth ≤ limit
  operand : stub.missing = .operand
  used : limit ≤ stub.down

/-! ## Tripping limits and stubs -/

theorem Stub.Full.blocked {stub : Stub .expression} {limit : Nat} (full : stub.Full limit)
    (token : Token) :
    Blocked limit token stub.missing (limit - stub.down) (.tooDeep token.position limit) := by
  rw [full.operand, Nat.sub_eq_zero_of_le full.used]
  exact .full

theorem Blocked.of_tooDeep {limit room : Nat} {token : Token} {missing : Expected}
    {position given : Nat} (blocked : Blocked limit token missing room (.tooDeep position given)) :
    missing = .operand ∧ room = 0 ∧ given = limit := by
  cases blocked
  exact ⟨rfl, rfl, rfl⟩

theorem full_of_tooDeep (tokens : List Token) (limit position given : Nat)
    (fails : Expr.ofTokens limit tokens = .error (.tooDeep position given)) :
    given = limit ∧ body tokens ≠ [] ∧ ∃ (stub : Stub .expression) (rest : List Token),
      body tokens = stub.tokens ++ rest ∧ stub.Full limit := by
  rcases ofTokens_error_cases tokens limit _ fails with
    ⟨-, empty⟩ | ⟨nonempty, stub, rest, split, stops⟩ | ⟨_, _, _, _, _, _, trails⟩
  · cases empty
  · obtain ⟨operand, full, same⟩ := stops.blocked.of_tooDeep
    exact ⟨same, nonempty, stub, rest, split, stops.taken, operand, Nat.le_of_sub_eq_zero full⟩
  · cases trails

theorem ofTokens_full (tokens : List Token) (nonempty : body tokens ≠ []) (limit : Nat)
    (stub : Stub .expression) (rest : List Token) (split : body tokens = stub.tokens ++ rest)
    (full : stub.Full limit) :
    Expr.ofTokens limit tokens =
      .error (.tooDeep (next (finish tokens) rest).position limit) := by
  obtain ⟨first, fails, descends⟩ :=
    ofTokens_of_stub tokens nonempty limit stub rest split _ (full.blocked _)
  unfold descend at descends
  split at descends
  · rename_i level found
    -- all levels before the end of the stub were taken, so this one is at its end
    have member := List.mem_of_find?_eq_some found
    have beyond : limit < level.depth := by simpa using List.find?_some found
    have inside := stub.cursor_le_length level member
    have outside : ¬ level.cursor < stub.tokens.length :=
      fun before => absurd beyond (Nat.not_lt.mpr (full.taken level member before))
    have last : level.cursor = stub.tokens.length := by omega
    rw [split, last, List.drop_left] at descends
    cases descends
    exact fails
  · cases descends
    exact fails

/-! ## Where the limit trips -/

theorem not_settled_before_end (tokens : List Token) (nonempty : body tokens ≠ []) (limit : Nat)
    (stub : Stub .expression) (rest : List Token) (split : body tokens = stub.tokens ++ rest)
    (full : stub.Full limit) (earlier : Nat) (before : earlier < stub.tokens.length) :
    ¬ SettledAt limit tokens earlier := by
  intro settled
  -- a list that has the tokens of the stub and then ends, at another position
  let moved := Token.atEnd ((next (finish tokens) rest).position + 1)
  have ordinary : ∀ token ∈ stub.tokens, token.isFinish = false := by
    intro token member
    exact body_not_finish tokens token (by rw [split]; exact List.mem_append_left rest member)
  have whole : body (stub.tokens ++ [moved]) = stub.tokens := by
    rw [body_append _ ordinary, body_cons_of_finish moved rfl, List.append_nil]
  have ends : finish (stub.tokens ++ [moved]) = moved :=
    finish_append stub.tokens ordinary moved rfl []
  obtain ⟨-, -, front⟩ := closed_front tokens stub.tokens rest split
  have agree : (stub.tokens ++ [moved]).take (earlier + 1) =
      (closed tokens).take (earlier + 1) := by
    rw [List.take_append_of_le_length before, ← front, List.take_take, Nat.min_eq_left before]
  have elsewhere := ofTokens_full (stub.tokens ++ [moved])
    (by rw [whole]; exact List.ne_nil_of_length_pos (by omega)) limit stub [] (by simp [whole]) full
  rw [settled _ agree, ofTokens_full tokens nonempty limit stub rest split full, ends] at elsewhere
  simp [next, moved, Token.atEnd] at elsewhere

theorem settled_at_end (tokens : List Token) (nonempty : body tokens ≠ []) (limit : Nat)
    (stub : Stub .expression) (rest : List Token) (split : body tokens = stub.tokens ++ rest)
    (error : SyntaxError)
    (blocked : Blocked limit (next (finish tokens) rest) stub.missing (limit - stub.down) error) :
    SettledAt limit tokens stub.tokens.length := by
  intro other agree
  obtain ⟨rest', agrees⟩ := agree_of_take tokens other stub.tokens rest split agree
  exact ofTokens_of_agree_stub tokens other nonempty limit stub rest rest' agrees error blocked

theorem tripsAt_full (tokens : List Token) (nonempty : body tokens ≠ []) (limit : Nat)
    (stub : Stub .expression) (rest : List Token) (split : body tokens = stub.tokens ++ rest)
    (full : stub.Full limit) : TripsAt limit tokens stub.tokens.length where
  reported := ⟨_, (closed_front tokens stub.tokens rest split).2.1,
    ofTokens_full tokens nonempty limit stub rest split full⟩
  settled := settled_at_end tokens nonempty limit stub rest split _ (full.blocked _)
  first := not_settled_before_end tokens nonempty limit stub rest split full

theorem trips_of_tooDeep (tokens : List Token) (limit position given : Nat)
    (fails : Expr.ofTokens limit tokens = .error (.tooDeep position given)) :
    ∃ index, TripsAt limit tokens index := by
  obtain ⟨-, nonempty, stub, rest, split, full⟩ := full_of_tooDeep tokens limit position given fails
  exact ⟨_, tripsAt_full tokens nonempty limit stub rest split full⟩

theorem TripsAt.mono {tokens : List Token} {low high index index' : Nat} (order : low ≤ high)
    (trips : TripsAt low tokens index) (trips' : TripsAt high tokens index') : index ≤ index' := by
  obtain ⟨token, -, fails⟩ := trips'.reported
  obtain ⟨-, nonempty, stub, rest, split, full⟩ := full_of_tooDeep tokens high _ _ fails
  have room : low ≤ stub.down := Nat.le_trans order full.used
  have blocked : Blocked low (next (finish tokens) rest) stub.missing (low - stub.down)
      (.tooDeep (next (finish tokens) rest).position low) := by
    rw [full.operand, Nat.sub_eq_zero_of_le room]
    exact .full
  -- what is too deep for the larger limit is so for the smaller one: its outcome is settled there
  have early : index ≤ stub.tokens.length := by
    by_contra late
    exact trips.first _ (Nat.lt_of_not_le late)
      (settled_at_end tokens nonempty low stub rest split _ blocked)
  have late : stub.tokens.length ≤ index' := by
    by_contra early
    exact not_settled_before_end tokens nonempty high stub rest split full index'
      (Nat.lt_of_not_le early) trips'.settled
  exact Nat.le_trans early late

/-! ## The threshold -/

def Deep (limit : Nat) (tokens : List Token) : Prop :=
  ∃ position given, Expr.ofTokens limit tokens = .error (.tooDeep position given)

theorem Blocked.grow {low high room room' : Nat} {token : Token} {missing : Expected}
    {error : SyntaxError} (blocked : Blocked low token missing room error) (more : room ≤ room')
    (shallow : ∀ position given, error ≠ .tooDeep position given) :
    Blocked high token missing room' error := by
  cases blocked with
  | full => exact absurd rfl (shallow _ _)
  | operand room expected refused =>
    obtain ⟨left, rfl⟩ := Nat.exists_eq_add_of_lt more
    exact .operand _ expected refused
  | opening room function other => exact .opening _ function other
  | closing room close closes other ends => exact .closing _ _ closes other ends

/-- An outcome that is not due to the limit stays when the limit grows. -/
theorem ofTokens_grow (tokens : List Token) (low high : Nat) (order : low ≤ high)
    (shallow : ¬ Deep low tokens) : Expr.ofTokens high tokens = Expr.ofTokens low tokens := by
  cases outcome : Expr.ofTokens low tokens with
  | ok tree =>
    obtain ⟨phrase, derived, same, fits⟩ := (ofTokens_eq_ok_iff tokens low tree).mp outcome
    exact (ofTokens_eq_ok_iff tokens high tree).mpr
      ⟨phrase, derived, same, Nat.le_trans fits order⟩
  | error error =>
    have ordinary : ∀ position given, error ≠ .tooDeep position given := by
      rintro position given rfl
      exact shallow ⟨position, given, outcome⟩
    rcases ofTokens_error_cases tokens low error outcome with
      ⟨nothing, rfl⟩ | ⟨nonempty, stub, rest, split, stops⟩ |
      ⟨phrase, token, rest, split, fits, ended, rfl⟩
    · rw [Expr.ofTokens, if_pos nothing]
    · have taken := taken_of_ofTokens tokens nonempty low stub rest split error stops.blocked outcome
        ordinary
      exact ofTokens_of_taken tokens nonempty high stub rest split error
        (stops.blocked.grow (Nat.sub_le_sub_right order stub.down) ordinary)
        fun level member => Nat.le_trans (taken level member) order
    · exact ofTokens_trailing tokens high phrase (Nat.le_trans fits order) token rest split ended

theorem not_deep_of_length_lt (tokens : List Token) (limit : Nat)
    (enough : (body tokens).length < limit) : ¬ Deep limit tokens := by
  rintro ⟨position, given, fails⟩
  obtain ⟨-, -, stub, rest, split, full⟩ := full_of_tooDeep tokens limit position given fails
  have used := full.used
  -- a stub uses no more levels than it has tokens
  have few := stub.down_le_length_of_inner.1
  have inside := (closed_front tokens stub.tokens rest split).1
  omega

/-- Below some threshold the limit trips, at tokens further and further on, and from the threshold
on it makes no difference. -/
theorem limit_invisible_from_threshold (tokens : List Token) :
    ∃ threshold outcome, threshold ≤ 1 + (body tokens).length ∧
      (∀ position given, outcome ≠ .error (.tooDeep position given)) ∧
      (∀ limit, threshold ≤ limit → Expr.ofTokens limit tokens = outcome) ∧
      ∃ index : Nat → Nat, (∀ limit < threshold, TripsAt limit tokens (index limit)) ∧
        ∀ low high, low ≤ high → high < threshold → index low ≤ index high := by
  classical
  have exists_shallow : ∃ limit, ¬ Deep limit tokens :=
    ⟨1 + (body tokens).length, not_deep_of_length_lt tokens _ (by omega)⟩
  have shallow := Nat.find_spec exists_shallow
  have deep : ∀ limit < Nat.find exists_shallow, ∃ index, TripsAt limit tokens index := by
    intro limit below
    obtain ⟨position, given, fails⟩ := not_not.mp (Nat.find_min exists_shallow below)
    exact trips_of_tooDeep tokens limit position given fails
  choose! index trips using deep
  refine ⟨Nat.find exists_shallow, Expr.ofTokens (Nat.find exists_shallow) tokens,
    Nat.find_min' exists_shallow (not_deep_of_length_lt tokens _ (by omega)), ?_, ?_, index,
    trips, ?_⟩
  · intro position given fails
    exact shallow ⟨position, given, fails⟩
  · intro limit enough
    exact ofTokens_grow tokens _ limit enough shallow
  · intro low high order below
    exact (trips low (Nat.lt_of_le_of_lt order below)).mono order (trips high below)

end Formula.Grammar
