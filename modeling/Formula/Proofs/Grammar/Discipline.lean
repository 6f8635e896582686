import Formula.Proofs.Grammar.Execution

/-!
# The discipline of the reader

What holds at every moment of reading: where the cursor may be, how far the counter may go, that
levels which are given back have been counted, and what a call of a rule has done when it succeeds.
A call is told by the moments at which it begins and ends, with the same callers waiting from the
one to the other.
-/

set_option autoImplicit false

namespace Formula.Grammar.Machine

variable (tokens : List Token) (limit : Nat)

/-- The activation of the category began at the moment `first`, at `began` and above `callers`, who
have been waiting up to `moment`. -/
structure Entered (first moment : Nat) (category : Category) (began : Mark)
    (callers : List Caller) : Prop where
  before : first ≤ moment
  enters : stateAt tokens limit first = .running (.enter category) began began callers
  waiting : ∀ between, first ≤ between → between ≤ moment →
    callers <:+ (stateAt tokens limit between).callers

def AllEntered (moment : Nat) : Category → (began : Mark) → List Caller → Prop
  | category, began, [] => ∃ first, Entered tokens limit first moment category began []
  | category, began, caller :: callers =>
    (∃ first, Entered tokens limit first moment category began (caller :: callers)) ∧
      AllEntered moment caller.pending.outer caller.began callers

variable {tokens limit}

theorem Entered.succ {first moment : Nat} {category : Category} {began : Mark}
    {callers : List Caller} (entered : Entered tokens limit first moment category began callers)
    (kept : callers <:+ (stateAt tokens limit (moment + 1)).callers) :
    Entered tokens limit first (moment + 1) category began callers where
  before := Nat.le_succ_of_le entered.before
  enters := entered.enters
  waiting := by
    intro between after before
    rcases Nat.le_succ_iff.mp before with before | rfl
    · exact entered.waiting between after before
    · exact kept

theorem AllEntered.succ {moment : Nat} {callers : List Caller} (category : Category) (began : Mark)
    (entered : AllEntered tokens limit moment category began callers)
    (kept : callers <:+ (stateAt tokens limit (moment + 1)).callers) :
    AllEntered tokens limit (moment + 1) category began callers := by
  induction callers generalizing category began with
  | nil =>
    obtain ⟨first, entered⟩ := entered
    exact ⟨first, entered.succ kept⟩
  | cons caller callers ih =>
    obtain ⟨⟨first, entered⟩, below⟩ := entered
    exact ⟨⟨first, entered.succ kept⟩,
      ih _ _ below ((List.suffix_cons caller callers).trans kept)⟩

theorem AllEntered.top {moment : Nat} {category : Category} {began : Mark} {callers : List Caller}
    (entered : AllEntered tokens limit moment category began callers) :
    ∃ first, Entered tokens limit first moment category began callers := by
  cases callers with
  | nil => exact entered
  | cons caller callers => exact entered.1

theorem entered_of_enter {moment : Nat} {category : Category} {began : Mark}
    {callers : List Caller}
    (enters : stateAt tokens limit moment = .running (.enter category) began began callers) :
    Entered tokens limit moment moment category began callers where
  before := Nat.le_refl _
  enters := enters
  waiting := by
    intro between after before
    obtain rfl := Nat.le_antisymm before after
    rw [enters]
    exact List.suffix_refl callers

theorem allEntered_stateAt (moment : Nat) (control : Control) (began now : Mark)
    (callers : List Caller)
    (state : stateAt tokens limit moment = .running control began now callers) :
    AllEntered tokens limit moment control.category began callers := by
  induction moment generalizing control began now callers with
  | zero =>
    have starts := state
    rw [stateAt, start] at starts
    split at starts
    · cases starts
    · cases starts
      exact ⟨0, entered_of_enter state⟩
  | succ moment ih =>
    have sound := stateAt_sound tokens limit moment
    have stepped := state
    rw [stateAt] at stepped
    cases previous : stateAt tokens limit moment with
    | done | overdrawn =>
      rw [previous] at stepped
      cases stepped
    | running control' began' now' callers' =>
      rw [previous] at stepped sound
      obtain ⟨nested, holds⟩ := sound
      have entered := ih control' began' now' callers' previous
      have acts := act_holds nested holds
      rw [step] at stepped
      cases action : act tokens limit now' control' with
      | go next now'' =>
        rw [action] at acts stepped
        cases stepped
        rw [acts.1]
        exact entered.succ _ _ (by rw [state]; exact List.suffix_refl _)
      | call pending now'' =>
        rw [action] at acts stepped
        cases stepped
        refine ⟨⟨moment + 1, entered_of_enter state⟩, ?_⟩
        rw [← acts.1] at entered
        exact entered.succ _ _ (by rw [state]; exact List.suffix_cons _ _)
      | answer result =>
        rw [action] at stepped
        cases callers' with
        | nil => cases stepped
        | cons caller callers' =>
          cases stepped
          rw [resume_category]
          exact entered.2.succ _ _ (by rw [state]; exact List.suffix_refl _)
      | overdraw =>
        rw [action] at acts
        exact acts.elim

/-! ## Every moment -/

/-- The error that is on its way to the caller of the reader, or has got there. -/
def Config.error? : Config → Option SyntaxError
  | .running control _ _ _ => control.error?
  | .done (.error error) _ => some error
  | _ => none

structure Config.Within (tokens : List Token) (limit : Nat) (config : Config) : Prop where
  inside : config.now.cursor ≤ (body tokens).length
  shallow : config.now.depth ≤ config.now.cursor + 1
  fits : config.now.depth ≤ limit ∨
    config.now.depth = limit + 1 ∧ ∃ position, config.error? = some (.tooDeep position limit)
  /-- No more levels have been given back than were counted. -/
  solvent : ∀ now, config ≠ .overdrawn now

theorem Config.Sound.within {config : Config} (sound : config.Sound tokens limit) :
    config.Within tokens limit := by
  cases sound with
  | running nested holds => exact ⟨holds.inside, holds.shallow, holds.fits, nofun⟩
  | done inside shallow fits =>
    refine ⟨inside, shallow, fits.imp_right ?_, nofun⟩
    rintro ⟨full, position, rfl⟩
    exact ⟨full, position, rfl⟩

/-- A call that has succeeded leaves the counter as it found it, has read something, and has read
all that belongs to its phrase. -/
theorem returned_call (moment : Nat) (category : Category) (tree : Expr) (began now : Mark)
    (callers : List Caller)
    (state : stateAt tokens limit moment =
      .running (.ended category (.ok tree)) began now callers) :
    ∃ first < moment, Entered tokens limit first moment category began callers ∧
      now.depth = began.depth ∧ began.cursor < now.cursor ∧
      (current tokens now.cursor).kind ∉ category.joining := by
  obtain ⟨first, entered⟩ := (allEntered_stateAt moment _ began now callers state).top
  have sound := stateAt_sound tokens limit moment
  rw [state] at sound
  obtain ⟨nested, holds⟩ := sound
  have other : first ≠ moment := by
    rintro rfl
    cases state.symm.trans entered.enters
  exact ⟨first, Nat.lt_of_le_of_ne entered.before other, entered, holds.restored rfl, holds.read,
    holds.ends⟩

/-- At every moment the cursor is within the text and the counter within the limit, unless an error
says so, and never has more been given back than was counted. Every call that succeeds has restored
the counter behind its phrase. So the reader ends, with the outcome of the grammar. -/
theorem reader_disciplined (tokens : List Token) (limit : Nat) :
    (∀ moment, (stateAt tokens limit moment).Within tokens limit ∧
      ∀ category tree began now callers,
        stateAt tokens limit moment = .running (.ended category (.ok tree)) began now callers →
          ∃ first < moment, Entered tokens limit first moment category began callers ∧
            now.depth = began.depth ∧ began.cursor < now.cursor ∧
            (current tokens now.cursor).kind ∉ category.joining) ∧
    ∃ moment now, stateAt tokens limit moment = .done (Expr.ofTokens limit tokens) now :=
  ⟨fun moment => ⟨(stateAt_sound tokens limit moment).within, returned_call moment⟩,
    exists_done tokens limit⟩

end Formula.Grammar.Machine
