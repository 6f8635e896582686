import Formula.Proofs.Grammar.FirstError
import Formula.Proofs.Grammar.Machine

/-!
# The counter and the cursor

What every state of the machine keeps. The counter holds the levels of the activations on the
stack, each activation its own; after an error it may hold more, but never less, so that levels can
always be given back. The cursor has gone far enough for these levels, and has not gone behind the
end of the text.

The statement is `Config.Sound`. A step within an activation keeps it by `act_holds`, a return to
the caller by `resume_holds`.
-/

set_option autoImplicit false

namespace Formula.Grammar

/-- The kinds of tokens with which a phrase of a category goes on behind its last token. A minus
sign of a unary and the parentheses of a primary are looked for inside the phrase. -/
def Category.joining : Category → List Token.Kind
  | .primary => []
  | .factor | .unary => [.power]
  | .term => [.power, .times, .divide]
  | .expression => [.power, .times, .divide, .plus, .minus]

namespace Machine

theorem Chain.not_joining (chain : Chain) (kind : Token.Kind)
    (behind : kind ∉ chain.operand.joining) (other : chain.ofKind? kind = none) :
    kind ∉ chain.category.joining := by
  revert behind other
  cases chain <;> cases kind <;> decide

theorem Chain.ordinary_of_some (chain : Chain) (kind : Token.Kind) (op : Operator)
    (joins : chain.ofKind? kind = some op) : kind ≠ .finish := by
  rintro rfl
  cases chain <;> cases joins

/-! ## The tokens at the cursor -/

section Tokens

variable (tokens : List Token)

theorem current_eq_next (cursor : Nat) (inside : cursor ≤ (body tokens).length) :
    current tokens cursor = next (finish tokens) ((body tokens).drop cursor) := by
  have front := (closed_front tokens _ _ (List.take_append_drop cursor (body tokens)).symm).2.1
  rw [List.length_take_of_le inside] at front
  unfold closed at front
  unfold current
  split at front
  · rw [front, Option.getD_some]
  · rename_i endless
    have ordinary : ∀ token ∈ tokens, token.isFinish = false := by simpa using endless
    have stand : finish tokens = Token.atEnd ((tokens.getLast?.map Token.stop).getD 0) := by
      rw [finish, find?_of_ordinary tokens ordinary]
    rw [List.getElem?_append] at front
    split at front
    · rw [front, Option.getD_some]
    · rename_i behind
      rw [List.getElem?_eq_none (Nat.le_of_not_lt behind), Option.getD_none, ← stand]
      have same := List.mem_of_getElem? front
      exact (List.mem_singleton.mp same).symm

theorem lt_of_ordinary (cursor : Nat) (inside : cursor ≤ (body tokens).length)
    (ordinary : (current tokens cursor).kind ≠ .finish) : cursor < (body tokens).length := by
  apply Nat.lt_of_le_of_ne inside
  rintro rfl
  rw [current_eq_next tokens _ inside, List.drop_length] at ordinary
  exact ordinary (finish_kind tokens)

theorem advance_of_ordinary (now : Mark) (inside : now.cursor ≤ (body tokens).length)
    (ordinary : (current tokens now.cursor).kind ≠ .finish) :
    advance tokens now = ⟨now.cursor + 1, now.depth⟩ ∧
      now.cursor + 1 ≤ (body tokens).length := by
  have inside := lt_of_ordinary tokens now.cursor inside ordinary
  have shorter : (body tokens).length ≤ tokens.length := (List.takeWhile_sublist _).length_le
  exact ⟨if_pos (Nat.lt_of_lt_of_le inside shorter), inside⟩

end Tokens

inductive PrimaryStart (tokens : List Token) (now : Mark) : Action → Prop where
  | leaf (tree : Expr) (ordinary : (current tokens now.cursor).kind ≠ .finish)
    (reads : leaf? (current tokens now.cursor) = some tree) :
    PrimaryStart tokens now (.go (.ended .primary (.ok tree)) (advance tokens now))
  | name (function : Trig) (ordinary : (current tokens now.cursor).kind ≠ .finish)
    (names : Trig.ofKind? (current tokens now.cursor).kind = some function) :
    PrimaryStart tokens now (.go (.opening function) (advance tokens now))
  | group (ordinary : (current tokens now.cursor).kind ≠ .finish)
    (opens : (current tokens now.cursor).kind = .leftParen) :
    PrimaryStart tokens now (.call (.inner none) (advance tokens now))
  | refused (expected : Expected)
    (refuses : ∀ stop inside rest, primary stop inside (current tokens now.cursor :: rest) =
      .error (.unexpected (current tokens now.cursor) expected))
    (atEnd : (current tokens now.cursor).kind = .finish → expected = .operand) :
    PrimaryStart tokens now (unexpected tokens .primary expected now)

theorem startPrimary_cases (tokens : List Token) (now : Mark) :
    PrimaryStart tokens now (startPrimary tokens now) := by
  unfold startPrimary
  cases kind : (current tokens now.cursor).kind with
  | number =>
    cases read : Decimal.read? (current tokens now.cursor).text with
    | some value =>
      exact .leaf _ (by rw [kind]; decide) (by simp only [leaf?, kind, read, Option.map_some])
    | none =>
      refine .refused _ (fun stop inside rest => ?_) (fun finish => by cases kind.symm.trans finish)
      simp only [primary, kind, read]
  | pi | euler | var => exact .leaf _ (by rw [kind]; decide) (by simp only [leaf?, kind])
  | sin | cos | tan => exact .name _ (by rw [kind]; decide) (by simp only [Trig.ofKind?, kind])
  | leftParen => exact .group (by rw [kind]; decide) kind
  | _ => exact .refused _ (fun stop inside rest => by simp only [primary, kind]) fun _ => rfl

/-! ## What the activations hold -/

namespace Pending

def levels : Pending → Nat
  | .operand _ _ further => further
  | .negated | .unsigned => 1
  | _ => 0

/-- A number of tokens that an activation has read at least before it waits. -/
def read : Pending → Nat
  | .operand _ _ further => 2 * further
  | .negated | .inner _ => 1
  | .exponent _ => 2
  | .unsigned | .base => 0

end Pending

/-- How much the counter may be ahead of the cursor where a phrase of the category begins. -/
def spare : Category → Nat
  | .factor | .primary => 1
  | _ => 0

theorem Pending.levels_le (pending : Pending) :
    pending.levels + spare pending.outer ≤ pending.read + spare pending.awaited := by
  cases pending with
  | operand chain before further =>
    cases chain with
    | product | sum =>
      simp only [levels, read, outer, awaited, Chain.category, Chain.operand, spare]
      omega
  | _ => simp only [levels, read, outer, awaited, spare, Nat.reduceAdd, Nat.reduceLeDiff]

/-- An activation of the category began at `began` below its callers. Each of them waits with its
levels counted, for a phrase that begins behind the tokens that it has read. -/
inductive Nested (limit : Nat) : Category → (began : Mark) → List Caller → Prop where
  | outermost : Nested limit .expression ⟨0, 0⟩ []
  | within (pending : Pending) {outer began : Mark} {callers : List Caller}
      (below : Nested limit pending.outer outer callers)
      (counted : began.depth = outer.depth + pending.levels)
      (read : outer.cursor + pending.read ≤ began.cursor) (fits : began.depth ≤ limit) :
      Nested limit pending.awaited began (⟨pending, outer⟩ :: callers)

namespace Nested

variable {limit : Nat} {category : Category} {began : Mark} {callers : List Caller}

theorem depth_le_cursor (nested : Nested limit category began callers) :
    began.depth ≤ began.cursor + spare category := by
  induction nested with
  | outermost => exact Nat.zero_le _
  | within pending below counted read fits ih =>
    have := pending.levels_le
    omega

theorem depth_le_limit (nested : Nested limit category began callers) : began.depth ≤ limit := by
  cases nested with
  | outermost => exact Nat.zero_le limit
  | within pending below counted read fits => exact fits

end Nested

namespace Control

def category : Control → Category
  | .enter category => category
  | .sign | .settle _ => .unary
  | .loop chain _ _ | .joined chain _ _ _ => chain.category
  | .opening _ | .close _ _ => .primary
  | .raise _ => .factor
  | .ended category _ => category

def levels : Control → Nat
  | .loop _ _ further | .joined _ _ _ further => further
  | .sign | .settle _ => 1
  | _ => 0

def read : Control → Nat
  | .enter _ | .sign => 0
  | .loop _ _ further => 2 * further + 1
  | .joined _ _ _ further => 2 * further + 2
  | .opening _ | .close _ _ | .raise _ => 1
  | .settle (.ok _) | .ended _ (.ok _) => 1
  | .settle (.error _) | .ended _ (.error _) => 0

def error? : Control → Option SyntaxError
  | .settle (.error error) | .ended _ (.error error) => some error
  | _ => none

/-- The category of a phrase that has just been read up to the cursor. -/
def phrase : Control → Category
  | .loop chain _ _ => chain.operand
  | .settle (.ok _) => .unary
  | .ended category (.ok _) => category
  | _ => .primary

structure Holds (tokens : List Token) (limit : Nat) (control : Control) (began now : Mark) :
    Prop where
  inside : now.cursor ≤ (body tokens).length
  shallow : now.depth ≤ now.cursor + 1
  fits : now.depth ≤ limit ∨
    now.depth = limit + 1 ∧ ∃ position, control.error? = some (.tooDeep position limit)
  read : began.cursor + control.read ≤ now.cursor
  counted : began.depth + control.levels ≤ now.depth
  restored : control.error? = none → now.depth = began.depth + control.levels
  ends : (current tokens now.cursor).kind ∉ control.phrase.joining

end Control

def Action.Holds (tokens : List Token) (limit : Nat) (control : Control) (began : Mark) :
    Action → Prop
  | .go next now => next.category = control.category ∧ next.Holds tokens limit began now
  | .call pending now =>
    pending.outer = control.category ∧ now.depth = began.depth + pending.levels ∧
      began.cursor + pending.read ≤ now.cursor ∧
      (Control.enter pending.awaited).Holds tokens limit now now
  | .answer result => control = .ended control.category result
  | .overdraw => False

/-! ## A step within an activation -/

section Act

variable {tokens : List Token} {limit : Nat} {control : Control} {began now : Mark}

namespace Control.Holds

theorem depth_le_limit (holds : control.Holds tokens limit began now)
    (running : control.error? = none) : now.depth ≤ limit := by
  rcases holds.fits with fits | ⟨-, position, failed⟩
  · exact fits
  · rw [running] at failed
    cases failed

theorem enter (category : Category) (inside : now.cursor ≤ (body tokens).length)
    (shallow : now.depth ≤ now.cursor + 1) (fits : now.depth ≤ limit) :
    (Control.enter category).Holds tokens limit now now where
  inside := inside
  shallow := shallow
  fits := Or.inl fits
  read := Nat.le_refl _
  counted := Nat.le_refl _
  restored := fun _ => rfl
  ends := List.not_mem_nil

/-- An activation may end with any error before it has counted a level too much. -/
theorem fail (holds : control.Holds tokens limit began now) (running : control.error? = none)
    (category : Category) (error : SyntaxError) :
    (Control.ended category (.error error)).Holds tokens limit began now where
  inside := holds.inside
  shallow := holds.shallow
  fits := Or.inl (holds.depth_le_limit running)
  read := Nat.le_trans (Nat.le_add_right _ _) holds.read
  counted := Nat.le_trans (Nat.le_add_right _ _) holds.counted
  restored := nofun
  ends := List.not_mem_nil

end Control.Holds

/-- A token that is read leaves the counter as it is. -/
theorem advance_holds (holds : control.Holds tokens limit began now)
    (running : control.error? = none) (ordinary : (current tokens now.cursor).kind ≠ .finish)
    (next : Control) (same : next.levels = control.levels) (read : next.read ≤ control.read + 1)
    (fresh : next.phrase = .primary) :
    next.Holds tokens limit began (advance tokens now) := by
  obtain ⟨moved, inside⟩ := advance_of_ordinary tokens now holds.inside ordinary
  have before := holds.read
  have shallow := holds.shallow
  have counted := holds.restored running
  rw [moved]
  refine ⟨inside, ?_, Or.inl (holds.depth_le_limit running), ?_, ?_, fun _ => ?_, ?_⟩
  · exact Nat.le_succ_of_le shallow
  · show began.cursor + next.read ≤ now.cursor + 1
    omega
  · exact Nat.le_of_eq (by rw [counted, same])
  · rw [same]
    exact counted
  · rw [fresh]
    exact List.not_mem_nil

/-- An activation may read a token and wait for a phrase behind it. -/
theorem call_holds (holds : control.Holds tokens limit began now)
    (running : control.error? = none) (ordinary : (current tokens now.cursor).kind ≠ .finish)
    (pending : Pending) (outer : pending.outer = control.category)
    (same : pending.levels = control.levels) (read : pending.read ≤ control.read + 1) :
    (Action.call pending (advance tokens now)).Holds tokens limit control began := by
  obtain ⟨moved, inside⟩ := advance_of_ordinary tokens now holds.inside ordinary
  have before := holds.read
  have counted := holds.restored running
  rw [moved]
  refine ⟨outer, by rw [same]; exact counted, ?_, ?_⟩
  · show began.cursor + pending.read ≤ now.cursor + 1
    omega
  · exact .enter _ inside (Nat.le_succ_of_le holds.shallow) (holds.depth_le_limit running)

theorem descend_holds (holds : control.Holds tokens limit began now)
    (running : control.error? = none) (behind : now.depth ≤ now.cursor) (next : Mark → Action)
    (goes : now.depth + 1 ≤ limit →
      (next ⟨now.cursor, now.depth + 1⟩).Holds tokens limit control began) :
    (descend tokens limit control.category next now).Holds tokens limit control began := by
  unfold descend
  split
  · rename_i beyond
    have fits := holds.depth_le_limit running
    have full : now.depth = limit := Nat.le_antisymm fits (Nat.le_of_lt_succ beyond)
    have counted := holds.counted
    refine ⟨rfl, holds.inside, Nat.succ_le_succ behind, Or.inr ⟨?_, _, rfl⟩, ?_, ?_, nofun,
      List.not_mem_nil⟩
    · rw [full]
    · exact Nat.le_trans (Nat.le_add_right _ _) holds.read
    · show began.depth + 0 ≤ now.depth + 1
      omega
  · rename_i room
    exact goes (Nat.le_of_not_lt room)

theorem settle_holds (result : Except SyntaxError Expr)
    (holds : (Control.settle result).Holds tokens limit began now) :
    (act tokens limit now (.settle result)).Holds tokens limit (.settle result) began := by
  have counted : began.depth + 1 ≤ now.depth := holds.counted
  have shallow := holds.shallow
  have fits := holds.fits
  simp only [act, release, if_pos (show 1 ≤ now.depth by omega)]
  refine ⟨rfl, holds.inside, ?_, Or.inl ?_, ?_, ?_, ?_, ?_⟩
  · show now.depth - 1 ≤ now.cursor + 1
    omega
  · show now.depth - 1 ≤ limit
    omega
  · cases result with
    | ok | error => exact holds.read
  · show began.depth + 0 ≤ now.depth - 1
    omega
  · intro running
    cases result with
    | ok tree =>
      have exactly : now.depth = began.depth + 1 := holds.restored rfl
      show now.depth - 1 = began.depth + 0
      omega
    | error error => cases running
  · cases result with
    | ok | error => exact holds.ends

theorem loop_holds (chain : Chain) (left : Expr) (further : Nat)
    (holds : (Control.loop chain left further).Holds tokens limit began now) :
    (act tokens limit now (.loop chain left further)).Holds tokens limit
      (.loop chain left further) began := by
  have counted : now.depth = began.depth + further := holds.restored rfl
  have read : began.cursor + (2 * further + 1) ≤ now.cursor := holds.read
  cases found : chain.ofKind? (current tokens now.cursor).kind with
  | some op =>
    simp only [act, found]
    have ordinary := chain.ordinary_of_some _ op found
    exact ⟨rfl, advance_holds holds rfl ordinary _ rfl (Nat.le_refl _) rfl⟩
  | none =>
    simp only [act, found, release, if_pos (show further ≤ now.depth by omega)]
    refine ⟨rfl, holds.inside, ?_, Or.inl ?_, ?_, ?_, fun _ => ?_, ?_⟩
    · exact Nat.le_trans (Nat.sub_le _ _) holds.shallow
    · exact Nat.le_trans (Nat.sub_le _ _) (holds.depth_le_limit rfl)
    · show began.cursor + 1 ≤ now.cursor
      omega
    · show began.depth + 0 ≤ now.depth - further
      omega
    · show now.depth - further = began.depth + 0
      omega
    · exact chain.not_joining _ holds.ends found

theorem startPrimary_holds (holds : (Control.enter .primary).Holds tokens limit began now) :
    (startPrimary tokens now).Holds tokens limit (.enter .primary) began := by
  have first := startPrimary_cases tokens now
  generalize startPrimary tokens now = action at first ⊢
  cases first with
  | leaf tree ordinary =>
    exact ⟨rfl, advance_holds holds rfl ordinary _ rfl (Nat.le_refl _) rfl⟩
  | name function ordinary =>
    exact ⟨rfl, advance_holds holds rfl ordinary _ rfl (Nat.le_refl _) rfl⟩
  | group ordinary => exact call_holds holds rfl ordinary (.inner none) rfl rfl (Nat.le_refl _)
  | refused expected => exact ⟨rfl, holds.fail rfl _ _⟩

theorem act_holds {callers : List Caller} (nested : Nested limit control.category began callers)
    (holds : control.Holds tokens limit began now) :
    (act tokens limit now control).Holds tokens limit control began := by
  have spared := nested.depth_le_cursor
  have shallow := holds.shallow
  have read := holds.read
  cases control with
  | enter category =>
    have counted : now.depth = began.depth := holds.restored rfl
    cases category with
    | primary => exact startPrimary_holds holds
    | factor | term | expression =>
      exact ⟨rfl, counted, read, .enter _ holds.inside shallow (holds.depth_le_limit rfl)⟩
    | unary =>
      have behind : now.depth ≤ now.cursor := counted ▸ Nat.le_trans spared read
      refine descend_holds holds rfl behind _ fun fits => ⟨rfl, ?_⟩
      exact ⟨holds.inside, Nat.succ_le_succ behind, Or.inl fits, read,
        Nat.le_of_eq (congrArg Nat.succ counted.symm), fun _ => congrArg Nat.succ counted,
        List.not_mem_nil⟩
  | sign =>
    simp only [act]
    split
    · rename_i minus
      exact call_holds holds rfl (by rw [minus]; decide) .negated rfl rfl (Nat.le_refl _)
    · exact ⟨rfl, holds.restored rfl, read,
        .enter _ holds.inside shallow (holds.depth_le_limit rfl)⟩
  | loop chain left further => exact loop_holds chain left further holds
  | joined chain left op further =>
    have counted : now.depth = began.depth + further := holds.restored rfl
    have spared : began.depth ≤ began.cursor := by cases chain <;> exact spared
    have read : began.cursor + (2 * further + 2) ≤ now.cursor := read
    refine descend_holds holds rfl (by omega) _ fun fits => ⟨rfl, ?_, read, ?_⟩
    · show now.depth + 1 = began.depth + (further + 1)
      omega
    · exact .enter _ holds.inside (show now.depth + 1 ≤ now.cursor + 1 by omega) fits
  | opening function =>
    simp only [act]
    split
    · rename_i opens
      exact call_holds holds rfl (by rw [opens]; decide) (.inner _) rfl rfl (Nat.le_succ _)
    · exact ⟨rfl, holds.fail rfl _ _⟩
  | close function inner =>
    simp only [act]
    split
    · rename_i closes
      exact ⟨rfl, advance_holds holds rfl (by rw [closes]; decide) _ rfl (Nat.le_succ _) rfl⟩
    · exact ⟨rfl, holds.fail rfl _ _⟩
  | raise base =>
    simp only [act]
    split
    · rename_i raises
      exact call_holds holds rfl (by rw [raises]; decide) (.exponent base) rfl rfl (Nat.le_refl _)
    · rename_i other
      exact ⟨rfl, holds.inside, shallow, holds.fits, read, holds.counted, holds.restored,
        fun member => other (List.mem_singleton.mp member)⟩
  | settle result => exact settle_holds result holds
  | ended category result => rfl

end Act

/-! ## A return to the caller -/

section Return

variable {tokens : List Token} {limit : Nat} {outer began now : Mark}

theorem resume_category (pending : Pending) (result : Except SyntaxError Expr) :
    (pending.resume result).category = pending.outer := by
  rcases pending with ⟨chain, _ | ⟨left, op⟩, further⟩ | _ | _ | _ | _ | _ <;>
    cases result <;> rfl

/-- The caller goes on behind the phrase that it has waited for. -/
theorem holds_of_ok (category : Category) (tree : Expr)
    (holds : (Control.ended category (.ok tree)).Holds tokens limit began now) (control : Control)
    (counted : began.depth = outer.depth + control.levels)
    (read : outer.cursor + control.read ≤ began.cursor + 1)
    (ends : ∀ kind, kind ∉ category.joining → kind ∉ control.phrase.joining) :
    control.Holds tokens limit outer now := by
  have restored : now.depth = began.depth := holds.restored rfl
  have behind : began.cursor + 1 ≤ now.cursor := holds.read
  exact ⟨holds.inside, holds.shallow, Or.inl (holds.depth_le_limit rfl), by omega, by omega,
    fun _ => by omega, ends _ holds.ends⟩

/-- The caller fails with the error of the phrase that it has waited for. -/
theorem holds_of_error (category : Category) (error : SyntaxError)
    (holds : (Control.ended category (.error error)).Holds tokens limit began now)
    (control : Control) (failed : control.error? = some error)
    (counted : outer.depth + control.levels ≤ began.depth)
    (read : outer.cursor + control.read ≤ began.cursor) (ends : control.phrase = .primary) :
    control.Holds tokens limit outer now := by
  have kept : began.depth ≤ now.depth := holds.counted
  have behind : began.cursor ≤ now.cursor := holds.read
  refine ⟨holds.inside, holds.shallow, ?_, by omega, by omega, fun running => ?_, ?_⟩
  · rw [failed]
    exact holds.fits
  · rw [failed] at running
    cases running
  · rw [ends]
    exact List.not_mem_nil

theorem resume_holds (pending : Pending) (result : Except SyntaxError Expr)
    (counted : began.depth = outer.depth + pending.levels)
    (read : outer.cursor + pending.read ≤ began.cursor)
    (holds : (Control.ended pending.awaited result).Holds tokens limit began now) :
    (pending.resume result).Holds tokens limit outer now := by
  cases result with
  | error error =>
    have less : outer.depth ≤ began.depth := by omega
    have before : outer.cursor ≤ began.cursor := by omega
    cases pending with
    | negated | unsigned =>
      exact holds_of_error _ error holds _ rfl (Nat.le_of_eq counted.symm) before rfl
    | operand | base | exponent | inner => exact holds_of_error _ error holds _ rfl less before rfl
  | ok tree =>
    have behind := Nat.succ_le_succ read
    have one : outer.cursor + 1 ≤ began.cursor + 1 := by omega
    cases pending with
    | operand chain before further =>
      rcases before with _ | ⟨left, op⟩
      · exact holds_of_ok _ tree holds (.loop ..) counted behind fun kind => id
      · exact holds_of_ok _ tree holds (.loop ..) counted behind fun kind => id
    | negated | unsigned => exact holds_of_ok _ tree holds (.settle _) counted one fun kind => id
    | base => exact holds_of_ok _ tree holds (.raise tree) counted one fun kind => id
    | exponent raised => exact holds_of_ok _ tree holds (.ended ..) counted one fun kind => id
    | inner function =>
      exact holds_of_ok _ tree holds (.close ..) counted one fun kind _ => List.not_mem_nil

end Return

/-! ## Every state -/

inductive Config.Sound (tokens : List Token) (limit : Nat) : Config → Prop where
  | running {control : Control} {began now : Mark} {callers : List Caller}
    (nested : Nested limit control.category began callers)
    (holds : control.Holds tokens limit began now) :
    Sound tokens limit (.running control began now callers)
  | done {outcome : Except SyntaxError Expr} {now : Mark}
    (inside : now.cursor ≤ (body tokens).length) (shallow : now.depth ≤ now.cursor + 1)
    (fits : now.depth ≤ limit ∨
      now.depth = limit + 1 ∧ ∃ position, outcome = .error (.tooDeep position limit)) :
    Sound tokens limit (.done outcome now)

section Run

variable (tokens : List Token) (limit : Nat)

theorem start_sound : (start tokens).Sound tokens limit := by
  unfold start
  split
  · exact .done (Nat.zero_le _) (Nat.zero_le _) (Or.inl (Nat.zero_le _))
  · exact .running .outermost (.enter _ (Nat.zero_le _) (Nat.zero_le _) (Nat.zero_le _))

theorem step_sound (config : Config) (sound : config.Sound tokens limit) :
    (step tokens limit config).Sound tokens limit := by
  cases sound with
  | done inside shallow fits => exact .done inside shallow fits
  | @running control began now callers nested holds =>
    have acts := act_holds nested holds
    simp only [step]
    cases action : act tokens limit now control with
    | go next now' =>
      rw [action] at acts
      exact .running (acts.1 ▸ nested) acts.2
    | call pending now' =>
      rw [action] at acts
      obtain ⟨outer, counted, read, enters⟩ := acts
      exact .running (.within pending (outer ▸ nested) counted read (enters.depth_le_limit rfl))
        enters
    | answer result =>
      rw [action] at acts
      have ended : control = .ended control.category result := acts
      generalize control.category = category at ended nested
      subst ended
      cases nested with
      | outermost =>
        refine .done holds.inside holds.shallow (holds.fits.imp_right ?_)
        rintro ⟨full, position, failed⟩
        cases result with
        | ok tree => cases failed
        | error error => exact ⟨full, position, congrArg Except.error (Option.some.inj failed)⟩
      | within pending below counted read fits =>
        exact .running (resume_category pending result ▸ below)
          (resume_holds pending result counted read holds)
    | overdraw =>
      rw [action] at acts
      exact acts.elim

theorem stateAt_sound (moment : Nat) : (stateAt tokens limit moment).Sound tokens limit := by
  induction moment with
  | zero => exact start_sound tokens limit
  | succ moment ih => exact step_sound tokens limit _ ih

end Run

end Machine

end Formula.Grammar
