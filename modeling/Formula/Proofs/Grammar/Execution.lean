import Formula.Proofs.Grammar.Counter

/-!
# The machine reads what the grammar reads

A state of the machine stands for an outcome: what the rules make of the tokens that are left, for
the activation on top and then for one caller after the other. No step changes the outcome, and a
measure of the tokens left and of the stack falls with every step. So the machine ends, and it ends
with the outcome of `Expr.ofTokens`.
-/

set_option autoImplicit false

namespace Formula.Grammar.Machine

/-! ## What is left to read -/

section Rest

variable (tokens : List Token)

def rest (cursor : Nat) : List Token := (body tokens).drop cursor

variable (cursor : Nat) (inside : cursor ≤ (body tokens).length)

include inside

theorem next_rest : next (finish tokens) (rest tokens cursor) = current tokens cursor :=
  (current_eq_next tokens cursor inside).symm

theorem rest_of_ordinary (ordinary : (current tokens cursor).kind ≠ .finish) :
    rest tokens cursor = current tokens cursor :: rest tokens (cursor + 1) := by
  have behind := lt_of_ordinary tokens cursor inside ordinary
  have same := next_rest tokens cursor inside
  unfold rest at same ⊢
  rw [List.drop_eq_getElem_cons behind] at same ⊢
  rw [show (body tokens)[cursor] = current tokens cursor from same]

theorem after?_rest (kind : Token.Kind) (ordinary : kind ≠ .finish) :
    after? kind (rest tokens cursor) =
      if (current tokens cursor).kind = kind then some (rest tokens (cursor + 1)) else none := by
  split
  · rename_i is
    rw [rest_of_ordinary tokens cursor inside (is ▸ ordinary), after?_of_kind kind _ is]
  · rename_i other
    apply (after?_eq_none (finish tokens) kind (finish_kind tokens ▸ ordinary) _).mpr
    rw [next_rest tokens cursor inside]
    exact other

theorem operator?_rest (chain : Chain) :
    operator? chain.ofKind? (rest tokens cursor) =
      (chain.ofKind? (current tokens cursor).kind).map
        fun op => (op, rest tokens (cursor + 1)) := by
  cases found : chain.ofKind? (current tokens cursor).kind with
  | some op =>
    have ordinary := chain.ordinary_of_some _ op found
    rw [rest_of_ordinary tokens cursor inside ordinary, operator?, found]
  | none =>
    have endless : chain.ofKind? (finish tokens).kind = none := by
      rw [finish_kind tokens]
      cases chain <;> rfl
    apply (operator?_eq_none (finish tokens) chain.ofKind? endless _).mpr
    rw [next_rest tokens cursor inside]
    exact found

end Rest

/-! ## The outcome that a state stands for -/

section Reading

variable (stop : Token) (limit : Nat)

def Chain.more : Chain → (room : Nat) → Expr → Rule
  | .product => products stop limit
  | .sum => sums stop limit

theorem Chain.loop (chain : Chain) :
    Loop stop limit chain.ofKind? (rule stop limit chain.operand) (chain.more stop limit) := by
  cases chain with
  | product => exact products_loop stop limit
  | sum => exact sums_loop stop limit

/-- What the rules make of the tokens that are left, from where an activation is. -/
def Control.reading (room : Nat) (rest : List Token) :
    Control → Except SyntaxError (Expr × List Token)
  | .enter category => rule stop limit category room rest
  | .sign => unary stop limit (room + 1) rest
  | .loop chain left _ => chain.more stop limit room left rest
  | .joined chain left op _ =>
    match room with
    | 0 => .error (.tooDeep (next stop rest).position limit)
    | room + 1 =>
      Grammar.chain (rule stop limit chain.operand room)
        (fun right => chain.more stop limit room (.binary op left right)) rest
  | .opening function => called stop (expression stop limit room) function rest
  | .close function inner =>
    match after? .rightParen rest with
    | some rest => .ok (enclose function inner, rest)
    | none => .error (.unexpected (next stop rest) (closer function))
  | .raise base =>
    match after? .power rest with
    | none => .ok (base, rest)
    | some rest =>
      match unary stop limit room rest with
      | .error error => .error error
      | .ok (exponent, rest) => .ok (.binary .pow base exponent, rest)
  | .settle result => result.map fun tree => (tree, rest)
  | .ended _ result => result.map fun tree => (tree, rest)

def Pending.after (pending : Pending) (room : Nat)
    (awaited : Except SyntaxError (Expr × List Token)) : Except SyntaxError (Expr × List Token) :=
  match awaited with
  | .error error => .error error
  | .ok (tree, rest) => (pending.resume (.ok tree)).reading stop limit room rest

end Reading

section Act

variable (tokens : List Token) (limit : Nat)

def Action.Reads (now : Mark) (expected : Except SyntaxError (Expr × List Token)) : Action → Prop
  | .go next now =>
    next.reading (finish tokens) limit (limit - now.depth) (rest tokens now.cursor) = expected
  | .call pending now =>
    pending.after (finish tokens) limit (limit - now.depth)
      (rule (finish tokens) limit pending.awaited (limit - now.depth) (rest tokens now.cursor)) =
        expected
  | .answer result => result.map (fun tree => (tree, rest tokens now.cursor)) = expected
  | .overdraw => True

theorem startPrimary_reads (now : Mark) (inside : now.cursor ≤ (body tokens).length) :
    (startPrimary tokens now).Reads tokens limit now
      (primary (finish tokens) (expression (finish tokens) limit (limit - now.depth))
        (rest tokens now.cursor)) := by
  have first := startPrimary_cases tokens now
  generalize startPrimary tokens now = action at first ⊢
  cases first with
  | leaf tree ordinary reads =>
    rw [rest_of_ordinary tokens _ inside ordinary, primary_leaf _ _ _ tree reads,
      (advance_of_ordinary tokens now inside ordinary).1]
    rfl
  | name function ordinary names =>
    rw [rest_of_ordinary tokens _ inside ordinary, primary_call _ _ _ function names,
      (advance_of_ordinary tokens now inside ordinary).1]
    rfl
  | group ordinary opens =>
    rw [rest_of_ordinary tokens _ inside ordinary, primary_group _ _ _ opens,
      (advance_of_ordinary tokens now inside ordinary).1]
    rfl
  | refused expected refuses atEnd =>
    have same := next_rest tokens now.cursor inside
    cases left : rest tokens now.cursor with
    | nil =>
      rw [left, next] at same
      rw [atEnd (same ▸ finish_kind tokens), primary, same]
      rfl
    | cons token behind =>
      rw [left, next] at same
      rw [same, refuses]
      rfl

/-- A level is taken where the rule has room for it. -/
theorem descend_reads (category : Category) (goes : Mark → Action) (now : Mark)
    (inside : now.cursor ≤ (body tokens).length)
    (reading : (room : Nat) → Except SyntaxError (Expr × List Token))
    (exhausted : reading 0 =
      .error (.tooDeep (next (finish tokens) (rest tokens now.cursor)).position limit))
    (continued : (goes ⟨now.cursor, now.depth + 1⟩).Reads tokens limit now
      (reading (limit - (now.depth + 1) + 1))) :
    (descend tokens limit category goes now).Reads tokens limit now
      (reading (limit - now.depth)) := by
  unfold descend
  split
  · rename_i beyond
    have full : limit - now.depth = 0 := by omega
    rw [full, exhausted, next_rest tokens now.cursor inside]
    rfl
  · rename_i room
    have left : limit - now.depth = limit - (now.depth + 1) + 1 := by omega
    rw [left]
    exact continued

section Look

variable {tokens}
variable (now : Mark) (inside : now.cursor ≤ (body tokens).length)

include inside

theorem sign_reads :
    (act tokens limit now .sign).Reads tokens limit now
      (unary (finish tokens) limit (limit - now.depth + 1) (rest tokens now.cursor)) := by
  have found := after?_rest tokens now.cursor inside .minus (by decide)
  simp only [act]
  split
  · rename_i minus
    rw [if_pos minus] at found
    rw [unary_minus found,
      (advance_of_ordinary tokens now inside (by rw [minus]; decide)).1]
    rfl
  · rename_i other
    rw [if_neg other] at found
    rw [unary_factor found]
    simp only [Action.Reads, Pending.after, Pending.awaited, rule]
    cases factor (finish tokens) _ _ (rest tokens now.cursor) with
    | error error => rfl
    | ok read => rfl

theorem loop_reads (chain : Chain) (left : Expr) (further : Nat) (enough : further ≤ now.depth) :
    (act tokens limit now (.loop chain left further)).Reads tokens limit now
      (chain.more (finish tokens) limit (limit - now.depth) left (rest tokens now.cursor)) := by
  have looping := chain.loop (finish tokens) limit
  have looks := operator?_rest tokens now.cursor inside chain
  cases found : chain.ofKind? (current tokens now.cursor).kind with
  | some op =>
    rw [found] at looks
    have ordinary := chain.ordinary_of_some _ op found
    simp only [act, found]
    rw [(advance_of_ordinary tokens now inside ordinary).1]
    show (Control.joined chain left op further).reading _ _ _ (rest tokens (now.cursor + 1)) =
      chain.more (finish tokens) limit (limit - now.depth) left (rest tokens now.cursor)
    cases limit - now.depth with
    | zero => exact (looping.exhausted looks).symm
    | succ room => exact (looping.continued looks).symm
  | none =>
    rw [found] at looks
    simp only [act, found, release, if_pos enough]
    exact (looping.done looks).symm

theorem opening_reads (function : Trig) :
    (act tokens limit now (.opening function)).Reads tokens limit now
      (called (finish tokens) (expression (finish tokens) limit (limit - now.depth)) function
        (rest tokens now.cursor)) := by
  have found := after?_rest tokens now.cursor inside .leftParen (by decide)
  simp only [act]
  split
  · rename_i opens
    rw [if_pos opens] at found
    rw [called, found, (advance_of_ordinary tokens now inside (by rw [opens]; decide)).1]
    simp only [Action.Reads, Pending.after, Pending.awaited, rule, enclosed]
    cases expression (finish tokens) limit _ (rest tokens (now.cursor + 1)) with
    | error error => rfl
    | ok read =>
      obtain ⟨tree, behind⟩ := read
      simp only [Pending.resume, Control.reading]
      cases after? .rightParen behind with
      | none => rfl
      | some behind => rfl
  · rename_i other
    rw [if_neg other] at found
    rw [called, found, next_rest tokens now.cursor inside]
    rfl

theorem close_reads (function : Option Trig) (inner : Expr) :
    (act tokens limit now (.close function inner)).Reads tokens limit now
      ((Control.close function inner).reading (finish tokens) limit (limit - now.depth)
        (rest tokens now.cursor)) := by
  have found := after?_rest tokens now.cursor inside .rightParen (by decide)
  simp only [act]
  split
  · rename_i closes
    rw [if_pos closes] at found
    rw [Control.reading, found,
      (advance_of_ordinary tokens now inside (by rw [closes]; decide)).1]
    rfl
  · rename_i other
    rw [if_neg other] at found
    rw [Control.reading, found, next_rest tokens now.cursor inside]
    rfl

theorem raise_reads (base : Expr) :
    (act tokens limit now (.raise base)).Reads tokens limit now
      ((Control.raise base).reading (finish tokens) limit (limit - now.depth)
        (rest tokens now.cursor)) := by
  have found := after?_rest tokens now.cursor inside .power (by decide)
  simp only [act]
  split
  · rename_i raises
    rw [if_pos raises] at found
    rw [Control.reading, found,
      (advance_of_ordinary tokens now inside (by rw [raises]; decide)).1]
    rfl
  · rename_i other
    rw [if_neg other] at found
    rw [Control.reading, found]
    rfl

end Look

theorem act_reads (control : Control) (began now : Mark)
    (holds : control.Holds tokens limit began now) :
    (act tokens limit now control).Reads tokens limit now
      (control.reading (finish tokens) limit (limit - now.depth) (rest tokens now.cursor)) := by
  have inside := holds.inside
  cases control with
  | enter category =>
    cases category with
    | expression | term | factor => rfl
    | unary =>
      exact descend_reads tokens limit .unary (.go .sign) now inside
        (fun room => unary (finish tokens) limit room (rest tokens now.cursor)) unary_zero rfl
    | primary => exact startPrimary_reads tokens limit now inside
  | sign => exact sign_reads limit now inside
  | loop chain left further =>
    have counted : now.depth = began.depth + further := holds.restored rfl
    exact loop_reads limit now inside chain left further (by omega)
  | joined chain left op further =>
    exact descend_reads tokens limit _ _ now inside
      (fun room => (Control.joined chain left op further).reading (finish tokens) limit room
        (rest tokens now.cursor)) rfl rfl
  | opening function => exact opening_reads limit now inside function
  | close function inner => exact close_reads limit now inside function inner
  | raise base => exact raise_reads limit now inside base
  | settle result =>
    have counted : began.depth + 1 ≤ now.depth := holds.counted
    simp only [act, release, if_pos (show 1 ≤ now.depth by omega)]
    rfl
  | ended category result => rfl

end Act

/-! ## Every state stands for the same outcome -/

/-- What the callers make of the outcome of the activation on top, which began with `depth` levels
in use. -/
def unwind (stop : Token) (limit : Nat) : (depth : Nat) → List Caller →
    Except SyntaxError (Expr × List Token) → Except SyntaxError (Expr × List Token)
  | _, [], outcome => outcome
  | depth, caller :: callers, outcome =>
    unwind stop limit caller.began.depth callers
      (caller.pending.after stop limit (limit - depth) outcome)

def verdict : Except SyntaxError (Expr × List Token) → Except SyntaxError Expr
  | .error error => .error error
  | .ok (tree, []) => .ok tree
  | .ok (_, token :: _) => .error (.trailing token)

inductive Config.StandsFor (tokens : List Token) (limit : Nat)
    (outcome : Except SyntaxError Expr) : Config → Prop where
  | running {control : Control} {began now : Mark} {callers : List Caller}
    (left : verdict (unwind (finish tokens) limit began.depth callers
      (control.reading (finish tokens) limit (limit - now.depth) (rest tokens now.cursor))) =
        outcome) :
    StandsFor tokens limit outcome (.running control began now callers)
  | done {now : Mark} : StandsFor tokens limit outcome (.done outcome now)

section Run

variable (tokens : List Token) (limit : Nat)

theorem conclude_eq_verdict (now : Mark) (inside : now.cursor ≤ (body tokens).length)
    (result : Except SyntaxError Expr) :
    conclude tokens now result =
      verdict (result.map fun tree => (tree, rest tokens now.cursor)) := by
  have same := next_rest tokens now.cursor inside
  cases result with
  | error error => rfl
  | ok tree =>
    simp only [conclude, Except.map]
    cases left : rest tokens now.cursor with
    | nil =>
      rw [left, next] at same
      have ends : (current tokens now.cursor).isFinish = true :=
        beq_iff_eq.mpr (same ▸ finish_kind tokens)
      rw [ends]
      rfl
    | cons token behind =>
      rw [left, next] at same
      have member : token ∈ body tokens := by
        apply List.mem_of_mem_drop
        rw [show (body tokens).drop now.cursor = token :: behind from left]
        exact List.mem_cons_self
      rw [← same, body_not_finish tokens token member]
      rfl

theorem ofTokens_eq_verdict (nonempty : body tokens ≠ []) :
    Expr.ofTokens limit tokens =
      verdict (expression (finish tokens) limit limit (body tokens)) := by
  rw [Expr.ofTokens, if_neg nonempty]
  cases expression (finish tokens) limit limit (body tokens) with
  | error error => rfl
  | ok read =>
    obtain ⟨tree, behind⟩ := read
    cases behind <;> rfl

theorem start_standsFor :
    (start tokens).StandsFor tokens limit (Expr.ofTokens limit tokens) := by
  have first := current_eq_next tokens 0 (Nat.zero_le _)
  unfold start
  cases left : body tokens with
  | nil =>
    rw [left] at first
    have ends : (current tokens 0).isFinish = true :=
      beq_iff_eq.mpr (first ▸ finish_kind tokens)
    rw [if_pos ends, Expr.ofTokens, if_pos left]
    exact .done
  | cons token behind =>
    rw [left] at first
    have ordinary : (current tokens 0).isFinish = false := by
      rw [first]
      exact body_not_finish tokens token (by rw [left]; exact List.mem_cons_self)
    rw [ordinary, ofTokens_eq_verdict tokens limit (by simp [left])]
    exact .running rfl

theorem reading_of_error (stop : Token) (room : Nat) (behind : List Token) (pending : Pending)
    (error : SyntaxError) :
    (pending.resume (.error error)).reading stop limit room behind = .error error := by
  cases pending <;> rfl

theorem step_standsFor (config : Config) (sound : config.Sound tokens limit)
    (outcome : Except SyntaxError Expr) (stands : config.StandsFor tokens limit outcome) :
    (step tokens limit config).StandsFor tokens limit outcome := by
  cases stands with
  | done => exact .done
  | @running control began now callers left =>
    obtain ⟨nested, holds⟩ := sound
    have acts := act_holds nested holds
    have reads := act_reads tokens limit control began now holds
    simp only [step]
    cases action : act tokens limit now control with
    | go next now' =>
      rw [action] at reads
      rw [← show _ = control.reading _ _ _ _ from reads] at left
      exact .running left
    | call pending now' =>
      rw [action] at reads
      rw [← show _ = control.reading _ _ _ _ from reads] at left
      exact .running left
    | answer result =>
      rw [action] at acts reads
      rw [← show _ = control.reading _ _ _ _ from reads] at left
      have ended : control = .ended control.category result := acts
      rw [ended] at holds
      cases callers with
      | nil =>
        rw [← left, perform, conclude_eq_verdict tokens now holds.inside]
        exact .done
      | cons caller callers =>
        refine .running ?_
        rw [← left, unwind]
        cases result with
        | error error => rw [reading_of_error]; rfl
        | ok tree =>
          have restored : now.depth = began.depth := holds.restored rfl
          rw [restored]
          rfl
    | overdraw =>
      rw [action] at acts
      exact acts.elim

theorem stateAt_standsFor (moment : Nat) :
    (stateAt tokens limit moment).StandsFor tokens limit (Expr.ofTokens limit tokens) := by
  induction moment with
  | zero => exact start_standsFor tokens limit
  | succ moment ih =>
    exact step_standsFor tokens limit _ (stateAt_sound tokens limit moment) _ ih

end Run

/-! ## The machine ends -/

/-- More than the number of steps from the beginning of a phrase to its first token. -/
def entryWeight : Category → Nat
  | .primary => 2
  | .factor => 5
  | .unary => 9
  | .term => 12
  | .expression => 15

def Control.weight : Control → Nat
  | .enter category => entryWeight category
  | .sign => 8
  | .joined _ _ _ _ => 15
  | .loop _ _ _ | .opening _ | .close _ _ | .raise _ | .settle _ => 2
  | .ended _ _ => 1

def budget (tokens : List Token) (now : Mark) : Nat := 16 * ((body tokens).length - now.cursor)

/-- A bound for the number of steps that are left. -/
def Config.measure (tokens : List Token) : Config → Nat
  | .running control _ now callers => budget tokens now + control.weight + 2 * callers.length
  | _ => 0

def Action.Falls (tokens : List Token) (bound : Nat) : Action → Prop
  | .go next now => budget tokens now + next.weight < bound
  | .call pending now => budget tokens now + entryWeight pending.awaited + 2 < bound
  | .answer _ | .overdraw => True

section Measure

variable (tokens : List Token) (limit : Nat)

theorem budget_advance (now : Mark) (inside : now.cursor ≤ (body tokens).length)
    (ordinary : (current tokens now.cursor).kind ≠ .finish) :
    budget tokens (advance tokens now) + 16 = budget tokens now := by
  obtain ⟨moved, behind⟩ := advance_of_ordinary tokens now inside ordinary
  rw [moved]
  show 16 * ((body tokens).length - (now.cursor + 1)) + 16 =
    16 * ((body tokens).length - now.cursor)
  omega

theorem startPrimary_falls (now : Mark) (inside : now.cursor ≤ (body tokens).length) :
    (startPrimary tokens now).Falls tokens (budget tokens now + 2) := by
  have advances := budget_advance tokens now inside
  have first := startPrimary_cases tokens now
  generalize startPrimary tokens now = action at first ⊢
  cases first with
  | leaf tree ordinary =>
    have nearer := advances ordinary
    show budget _ _ + 1 < _
    omega
  | name function ordinary =>
    have nearer := advances ordinary
    show budget _ _ + 2 < _
    omega
  | group ordinary =>
    have nearer := advances ordinary
    show budget _ _ + 15 + 2 < _
    omega
  | refused => exact Nat.lt_succ_self _

theorem act_falls (control : Control) (now : Mark) (inside : now.cursor ≤ (body tokens).length) :
    (act tokens limit now control).Falls tokens (budget tokens now + control.weight) := by
  have advances := budget_advance tokens now inside
  cases control with
  | enter category =>
    cases category with
    | expression | term | factor => exact Nat.lt_succ_self _
    | unary =>
      simp only [act, descend]
      split
      · exact Nat.add_lt_add_left (show 1 < 9 by decide) _
      · exact Nat.lt_succ_self _
    | primary => exact startPrimary_falls tokens now inside
  | sign =>
    simp only [act]
    split
    · rename_i minus
      have nearer := advances (by rw [minus]; decide)
      show budget _ _ + 9 + 2 < budget _ _ + 8
      omega
    · exact Nat.lt_succ_self _
  | loop chain left further =>
    simp only [act]
    split
    · rename_i op found
      have nearer := advances (chain.ordinary_of_some _ op found)
      show budget _ _ + 15 < budget _ _ + 2
      omega
    · unfold release
      split
      · exact Nat.lt_succ_self _
      · trivial
  | joined chain left op further =>
    simp only [act, descend]
    split
    · exact Nat.add_lt_add_left (show 1 < 15 by decide) _
    · cases chain with
      | product => exact Nat.add_lt_add_left (show 9 + 2 < 15 by decide) _
      | sum => exact Nat.add_lt_add_left (show 12 + 2 < 15 by decide) _
  | opening function =>
    simp only [act]
    split
    · rename_i opens
      have nearer := advances (by rw [opens]; decide)
      show budget _ _ + 15 + 2 < budget _ _ + 2
      omega
    · exact Nat.lt_succ_self _
  | close function inner =>
    simp only [act]
    split
    · rename_i closes
      have nearer := advances (by rw [closes]; decide)
      show budget _ _ + 1 < budget _ _ + 2
      omega
    · exact Nat.lt_succ_self _
  | raise base =>
    simp only [act]
    split
    · rename_i raises
      have nearer := advances (by rw [raises]; decide)
      show budget _ _ + 9 + 2 < budget _ _ + 2
      omega
    · exact Nat.lt_succ_self _
  | settle result =>
    simp only [act, release]
    split
    · exact Nat.lt_succ_self _
    · trivial
  | ended category result => trivial

theorem resume_weight (pending : Pending) (result : Except SyntaxError Expr) :
    (pending.resume result).weight ≤ 2 := by
  rcases pending with ⟨chain, _ | ⟨left, op⟩, further⟩ | _ | _ | _ | _ | _ <;>
    cases result <;> exact Nat.le_of_ble_eq_true rfl

theorem measure_step (control : Control) (began now : Mark) (callers : List Caller)
    (sound : (Config.running control began now callers).Sound tokens limit) :
    (step tokens limit (.running control began now callers)).measure tokens <
      (Config.running control began now callers).measure tokens := by
  obtain ⟨nested, holds⟩ := sound
  have falls := act_falls tokens limit control now holds.inside
  have acts := act_holds nested holds
  simp only [step]
  cases action : act tokens limit now control with
  | go next now' =>
    rw [action] at falls
    exact Nat.add_lt_add_right falls _
  | call pending now' =>
    rw [action] at falls
    have nearer : budget _ _ + entryWeight pending.awaited + 2 < _ := falls
    show budget _ _ + entryWeight pending.awaited + 2 * (callers.length + 1) <
      budget _ _ + control.weight + 2 * callers.length
    omega
  | answer result =>
    rw [action] at acts
    have ended : control = .ended control.category result := acts
    rw [ended]
    cases callers with
    | nil => exact Nat.succ_pos _
    | cons caller callers =>
      have light := resume_weight caller.pending result
      show budget _ _ + (caller.pending.resume result).weight + 2 * callers.length <
        budget _ _ + 1 + 2 * (callers.length + 1)
      omega
  | overdraw =>
    rw [action] at acts
    exact acts.elim

theorem done_or_measure_le (moment : Nat) :
    (∃ now, stateAt tokens limit moment = .done (Expr.ofTokens limit tokens) now) ∨
      (stateAt tokens limit moment).measure tokens + moment ≤ (start tokens).measure tokens := by
  induction moment with
  | zero => exact Or.inr (Nat.le_refl _)
  | succ moment ih =>
    have sound := stateAt_sound tokens limit moment
    have stands := stateAt_standsFor tokens limit moment
    rw [stateAt]
    generalize stateAt tokens limit moment = config at ih sound stands
    cases stands with
    | @done now => exact Or.inl ⟨now, rfl⟩
    | @running control began now callers left =>
      have falls := measure_step tokens limit control began now callers sound
      rcases ih with ⟨_, ended⟩ | few
      · cases ended
      · exact Or.inr (by omega)

/-- The machine ends, with the outcome of the grammar. -/
theorem exists_done : ∃ moment now,
    stateAt tokens limit moment = .done (Expr.ofTokens limit tokens) now := by
  refine ⟨(start tokens).measure tokens + 1, ?_⟩
  rcases done_or_measure_le tokens limit ((start tokens).measure tokens + 1) with ended | few
  · exact ended
  · omega

end Measure

end Formula.Grammar.Machine
