import Formula.Proofs.Grammar.Execution

/-!
# The limit guards the stack

The levels in use are never fewer than the unaries that are active, because every unary on the
stack holds a level of its own. So no more unaries are active at a time than the limit and one
more, however many tokens there are, and with them the whole stack is bounded: between two unaries
there are at most four activations of other rules. A reader that counts the active unaries, and
gives up before one too many begins, never gives up.
-/

set_option autoImplicit false

namespace Formula.Grammar.Machine

namespace Config

def activations : Config → List Category
  | .running control _ _ callers =>
    control.category :: callers.map fun caller => caller.pending.outer
  | _ => []

def unaries (config : Config) : Nat := config.activations.count .unary

def beginsUnary : Config → Bool
  | .running (.enter .unary) _ _ _ => true
  | _ => false

end Config

/-! ## A reader that counts the active unaries -/

section Guarded

variable (tokens : List Token) (limit : Nat)

/-- Gives up where a unary begins that makes them more than `limit + 1`. -/
def guardedStep (config : Config) : Option Config :=
  if config.beginsUnary ∧ limit + 1 < config.unaries then none else some (step tokens limit config)

def guardedAt : (moment : Nat) → Option Config
  | 0 => some (start tokens)
  | moment + 1 => (guardedAt moment).bind (guardedStep tokens limit)

end Guarded

/-! ## How many activations there are -/

/-- The activations that may stand on a unary, or on none, and below a phrase of the category; two
more than that, as the stack starts with an expression. -/
def height : Category → Nat
  | .factor => 0
  | .primary => 1
  | .expression => 2
  | .term => 3
  | .unary => 4

theorem Pending.height_outer (pending : Pending) :
    height pending.outer + 1 ≤ height pending.awaited + 5 * [pending.outer].count .unary := by
  cases pending with
  | operand chain before further => cases chain <;> exact Nat.le_of_ble_eq_true rfl
  | _ => exact Nat.le_of_ble_eq_true rfl

theorem Pending.count_outer (pending : Pending) :
    [pending.outer].count .unary ≤ pending.levels := by
  cases pending with
  | operand chain before further => cases chain <;> exact Nat.zero_le _
  | _ => exact Nat.le_of_ble_eq_true rfl

namespace Nested

variable {limit : Nat} {category : Category} {began : Mark} {callers : List Caller}

theorem count_le_depth (nested : Nested limit category began callers) :
    (callers.map fun caller => caller.pending.outer).count .unary ≤ began.depth := by
  induction nested with
  | outermost => exact Nat.le_refl 0
  | within pending below counted read fits ih =>
    have own := pending.count_outer
    rw [List.map_cons, List.count_cons, ← List.count_singleton, counted]
    dsimp only
    omega

theorem length_le (nested : Nested limit category began callers) :
    callers.length + 2 ≤
      5 * (callers.map fun caller => caller.pending.outer).count .unary + height category := by
  induction nested with
  | outermost => exact Nat.le_refl 2
  | within pending below counted read fits ih =>
    have own := pending.height_outer
    rw [List.map_cons, List.count_cons, ← List.count_singleton, List.length_cons]
    dsimp only
    omega

end Nested

section Bounds

variable {tokens : List Token} {limit : Nat} {config : Config}

theorem unaries_le (sound : config.Sound tokens limit) : config.unaries ≤ limit + 1 := by
  cases sound with
  | done => exact Nat.zero_le _
  | running nested holds =>
    have few := nested.count_le_depth
    have fits := nested.depth_le_limit
    rw [Config.unaries, Config.activations, List.count_cons]
    split <;> omega

theorem activations_le (sound : config.Sound tokens limit) :
    config.activations.length ≤ 5 * limit + 3 := by
  cases sound with
  | done => exact Nat.zero_le _
  | @running control began now callers nested holds =>
    have few := nested.count_le_depth
    have fits := nested.depth_le_limit
    have short := nested.length_le
    have low : height control.category ≤ 4 := by
      cases control.category <;> decide
    rw [Config.activations, List.length_cons, List.length_map]
    omega

theorem guardedAt_eq (moment : Nat) :
    guardedAt tokens limit moment = some (stateAt tokens limit moment) := by
  induction moment with
  | zero => rfl
  | succ moment ih =>
    have few := unaries_le (stateAt_sound tokens limit moment)
    rw [guardedAt, ih, Option.bind_some, guardedStep, if_neg (by omega), stateAt]

end Bounds

/-- No more unaries are active than the limit and one more. A reader that would give up at a
further one never gives up, and its outcome is the one of the grammar. -/
theorem unaries_within_limit (tokens : List Token) (limit : Nat) :
    (∀ moment, (stateAt tokens limit moment).unaries ≤ limit + 1 ∧
      (stateAt tokens limit moment).activations.length ≤ 5 * limit + 3 ∧
      guardedAt tokens limit moment ≠ none) ∧
    ∀ outcome, (∃ moment now, guardedAt tokens limit moment = some (.done outcome now)) ↔
      outcome = Expr.ofTokens limit tokens := by
  refine ⟨fun moment => ?_, fun outcome => ⟨?_, ?_⟩⟩
  · have sound := stateAt_sound tokens limit moment
    rw [guardedAt_eq]
    exact ⟨unaries_le sound, activations_le sound, Option.some_ne_none _⟩
  · rintro ⟨moment, now, ended⟩
    have stands := stateAt_standsFor tokens limit moment
    rw [guardedAt_eq] at ended
    rw [Option.some.inj ended] at stands
    cases stands
    rfl
  · rintro rfl
    obtain ⟨moment, now, ended⟩ := exists_done tokens limit
    exact ⟨moment, now, by rw [guardedAt_eq, ended]⟩

/-- The unary behind the second of two minus signs is the last one that begins. -/
example : (stateAt [⟨.minus, "-", 0⟩, ⟨.minus, "-", 1⟩] 1 4).unaries = 2 := by decide

end Formula.Grammar.Machine
