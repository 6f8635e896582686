import Formula.Proofs.Grammar.Derivation

/-!
# Reading what a derivation says

In front of tokens that cannot continue it, a phrase is read as its tree when the room suffices for
all of its levels; otherwise reading ends at the first level that is beyond the room. A chain is
read up to its loop: the tree so far, the room that is left there, and the tokens behind it.

The statement for each category is `Derivation.Read`, proved for each way to build a phrase from
the statements for its parts. For whole token lists it becomes `ofTokens_derivation`.
-/

set_option autoImplicit false

namespace Formula.Grammar

/-! ## The first level beyond the room -/

/-- The outcome when levels are taken in turn and `accepted` comes out behind the last one. -/
def descend (stop : Token) (limit room : Nat) (tokens : List Token) (levels : List Level)
    (accepted : Except SyntaxError (Expr × List Token)) :
    Except SyntaxError (Expr × List Token) :=
  match levels.find? fun level => room < level.depth with
  | some level => .error (.tooDeep (next stop (tokens.drop level.cursor)).position limit)
  | none => accepted

section Descend

variable (stop : Token) (limit room : Nat) (tokens : List Token)

theorem descend_cases (levels : List Level) :
    (∃ error, ∀ accepted, descend stop limit room tokens levels accepted = .error error) ∨
      ∀ accepted, descend stop limit room tokens levels accepted = accepted := by
  unfold descend
  cases levels.find? fun level => room < level.depth with
  | some level => exact Or.inl ⟨_, fun _ => rfl⟩
  | none => exact Or.inr fun _ => rfl

theorem descend_of_taken (levels : List Level) (taken : ∀ level ∈ levels, level.depth ≤ room)
    (accepted : Except SyntaxError (Expr × List Token)) :
    descend stop limit room tokens levels accepted = accepted := by
  have fits : levels.find? (fun level => room < level.depth) = none := by
    apply List.find?_eq_none.mpr
    intro level member
    simpa using taken level member
  unfold descend
  rw [fits]

theorem taken_of_descend (levels : List Level)
    (accepted outcome : Except SyntaxError (Expr × List Token))
    (reading : descend stop limit room tokens levels accepted = outcome)
    (shallow : ∀ position, outcome ≠ .error (.tooDeep position limit)) :
    ∀ level ∈ levels, level.depth ≤ room := by
  unfold descend at reading
  split at reading
  · exact absurd reading.symm (shallow _)
  · rename_i fits
    intro level member
    simpa using List.find?_eq_none.mp fits level member

theorem descend_of_beyond (levels : List Level) (beyond : ∃ level ∈ levels, room < level.depth)
    (accepted other : Except SyntaxError (Expr × List Token)) :
    descend stop limit room tokens levels accepted =
      descend stop limit room tokens levels other := by
  obtain ⟨level, member, deep⟩ := beyond
  unfold descend
  cases found : levels.find? fun level => room < level.depth with
  | some first => rfl
  | none => exact absurd (decide_eq_true deep) (List.find?_eq_none.mp found level member)

variable (accepted : Except SyntaxError (Expr × List Token))

theorem descend_append (before behind : List Level) :
    descend stop limit room tokens (before ++ behind) accepted =
      descend stop limit room tokens before
        (descend stop limit room tokens behind accepted) := by
  unfold descend
  rw [List.find?_append]
  cases before.find? fun level => room < level.depth with
  | some level => rfl
  | none => rfl

theorem descend_shift (down cursor : Nat) (fits : down ≤ room) (levels : List Level) :
    descend stop limit room tokens (levels.map (Level.shift down cursor)) accepted =
      descend stop limit (room - down) (tokens.drop cursor) levels accepted := by
  have same : ((fun level : Level => decide (room < level.depth)) ∘ Level.shift down cursor) =
      fun level => decide (room - down < level.depth) := by
    funext level
    simp only [Function.comp_apply, Level.shift]
    exact decide_eq_decide.mpr (by omega)
  unfold descend
  rw [List.find?_map, same]
  cases levels.find? fun level => room - down < level.depth with
  | some level => simp [Level.shift, List.drop_drop]
  | none => rfl

theorem descend_behind (cursor : Nat) (levels : List Level) :
    descend stop limit room tokens (levels.map (Level.shift 0 cursor)) accepted =
      descend stop limit room (tokens.drop cursor) levels accepted :=
  descend_shift stop limit room tokens accepted 0 cursor (Nat.zero_le room) levels

theorem descend_below (down entry inside : Nat) (levels : List Level) :
    descend stop limit room tokens (Level.below down entry inside levels) accepted =
      if room < down then .error (.tooDeep (next stop (tokens.drop entry)).position limit)
      else descend stop limit (room - down) (tokens.drop inside) levels accepted := by
  by_cases beyond : room < down
  · simp [descend, Level.below, beyond]
  · rw [if_neg beyond, ← descend_shift stop limit room tokens accepted down inside (by omega)]
    unfold descend Level.below
    rw [List.find?_cons, decide_eq_false beyond]

/-- In front of one more operand the loop of a chain either has no level left, or goes on behind
the operand with a level less. -/
theorem descend_chain (before behind : List Token) (sign : Token) (operands : Nat)
    (beforeLevels lastLevels : List Level)
    (loop done : Nat → Except SyntaxError (Expr × List Token))
    (exhausted : loop 0 = .error (.tooDeep (next stop behind).position limit))
    (continued : ∀ left, loop (left + 1) =
      descend stop limit left behind lastLevels (done left)) :
    descend stop limit room (before ++ sign :: behind) beforeLevels (loop (room - operands)) =
      descend stop limit room (before ++ sign :: behind)
        (beforeLevels ++
          Level.below (operands + 1) (before.length + 1) (before.length + 1) lastLevels)
        (done (room - (operands + 1))) := by
  have drop : (before ++ sign :: behind).drop (before.length + 1) = behind := by
    simp [List.drop_append]
  rw [descend_append, descend_below, drop]
  congr 1
  by_cases beyond : room < operands + 1
  · rw [if_pos beyond, Nat.sub_eq_zero_of_le (Nat.le_of_lt_succ beyond), exhausted]
  · have left : room - operands = room - (operands + 1) + 1 := by omega
    rw [if_neg beyond, left, continued]

end Descend

/-! ## The rules on phrases in front of other tokens -/

section Rules

variable (stop : Token) (limit room : Nat) (rule more : Rule) (levels : List Level)
  (start : List Token)

theorem primary_leaf (token : Token) (tree : Expr) (reads : leaf? token = some tree)
    (rest : List Token) : primary stop rule (token :: rest) = .ok (tree, rest) := by
  unfold leaf? at reads
  cases kind : token.kind with
  | number =>
    simp only [kind, Option.map_eq_some_iff] at reads
    obtain ⟨value, read, rfl⟩ := reads
    simp only [primary, kind, read]
  | var | pi | euler =>
    simp only [kind, Option.some.injEq] at reads
    subst reads
    simp only [primary, kind]
  | _ => simp [kind] at reads

theorem primary_group (opening : Token) (opens : opening.kind = .leftParen) (rest : List Token) :
    primary stop rule (opening :: rest) = enclosed stop rule .groupEnd rest := by
  simp only [primary, opens]

theorem primary_call (name : Token) (function : Trig)
    (names : Trig.ofKind? name.kind = some function) (rest : List Token) :
    primary stop rule (name :: rest) = called stop rule function rest := by
  cases kind : name.kind with
  | sin | cos | tan =>
    simp only [kind, Trig.ofKind?, Option.some.injEq] at names
    subst names
    simp only [primary, kind]
  | _ => simp [kind, Trig.ofKind?] at names

theorem after?_of_kind (kind : Token.Kind) (token : Token) (is : token.kind = kind)
    (rest : List Token) : after? kind (token :: rest) = some rest := by
  simp only [after?, is, if_true]

theorem after?_of_ne (kind : Token.Kind) (token : Token) (other : token.kind ≠ kind)
    (rest : List Token) : after? kind (token :: rest) = none := by
  simp only [after?, other, if_false]

theorem enclosed_descend (close : Expected) (inner : Expr) (closing : Token)
    (closes : closing.kind = .rightParen) (rest : List Token)
    (reading : rule start = descend stop limit room start levels (.ok (inner, closing :: rest))) :
    enclosed stop rule close start = descend stop limit room start levels (.ok (inner, rest)) := by
  rcases descend_cases stop limit room start levels with ⟨error, fails⟩ | passes
  · rw [fails] at reading ⊢
    simp only [enclosed, reading]
  · rw [passes] at reading ⊢
    simp only [enclosed, reading, after?_of_kind .rightParen closing closes]

theorem called_descend (function : Trig) (opening : Token) (opens : opening.kind = .leftParen)
    (argument : Expr) (rest : List Token)
    (reading : enclosed stop rule (.closing function) start =
      descend stop limit room start levels (.ok (argument, rest))) :
    called stop rule function (opening :: start) =
      descend stop limit room start levels (.ok (.call function argument, rest)) := by
  rcases descend_cases stop limit room start levels with ⟨error, fails⟩ | passes
  · rw [fails] at reading ⊢
    simp only [called, after?_of_kind .leftParen opening opens, reading]
  · rw [passes] at reading ⊢
    simp only [called, after?_of_kind .leftParen opening opens, reading]

theorem factor_bare (base : Expr) (rest : List Token) (noPower : after? .power rest = none)
    (reading : primary stop rule start =
      descend stop limit room start levels (.ok (base, rest))) :
    factor stop rule more start = descend stop limit room start levels (.ok (base, rest)) := by
  rcases descend_cases stop limit room start levels with ⟨error, fails⟩ | passes
  · rw [fails] at reading ⊢
    simp only [factor, reading]
  · rw [passes] at reading ⊢
    simp only [factor, reading, noPower]

theorem factor_power (base exponent : Expr) (caret : Token) (raises : caret.kind = .power)
    (behind rest : List Token) (further : List Level)
    (reading : primary stop rule start =
      descend stop limit room start levels (.ok (base, caret :: behind)))
    (exponentReading : more behind =
      descend stop limit room behind further (.ok (exponent, rest))) :
    factor stop rule more start = descend stop limit room start levels
      (descend stop limit room behind further (.ok (.binary .pow base exponent, rest))) := by
  rcases descend_cases stop limit room start levels with ⟨error, fails⟩ | passes
  · rw [fails] at reading ⊢
    simp only [factor, reading]
  · rw [passes] at reading ⊢
    rcases descend_cases stop limit room behind further with ⟨error, fails⟩ | passes
    · rw [fails] at exponentReading ⊢
      simp only [factor, reading, after?_of_kind .power caret raises, exponentReading]
    · rw [passes] at exponentReading ⊢
      simp only [factor, reading, after?_of_kind .power caret raises, exponentReading]

theorem chain_descend (loop : Expr → Rule) (first : Expr) (rest : List Token)
    (reading : rule start = descend stop limit room start levels (.ok (first, rest))) :
    chain rule loop start = descend stop limit room start levels (loop first rest) := by
  rcases descend_cases stop limit room start levels with ⟨error, fails⟩ | passes
  · rw [fails] at reading ⊢
    simp only [chain, reading]
  · rw [passes] at reading ⊢
    simp only [chain, reading]

end Rules

/-! ## The rules on derivations -/

def Derivation.Read (stop : Token) (limit : Nat) :
    {category : Category} → Derivation category → Prop
  | .primary, phrase => ∀ room rest,
    primary stop (expression stop limit room) (phrase.tokens ++ rest) =
      descend stop limit room (phrase.tokens ++ rest) phrase.levels (.ok (phrase.tree, rest))
  | .factor, phrase => ∀ room rest, after? .power rest = none →
    factor stop (expression stop limit room) (unary stop limit room) (phrase.tokens ++ rest) =
      descend stop limit room (phrase.tokens ++ rest) phrase.levels (.ok (phrase.tree, rest))
  | .unary, phrase => ∀ room rest, after? .power rest = none →
    unary stop limit room (phrase.tokens ++ rest) =
      descend stop limit room (phrase.tokens ++ rest) phrase.levels (.ok (phrase.tree, rest))
  | .term, phrase => ∀ room rest, after? .power rest = none →
    term stop limit room (phrase.tokens ++ rest) =
      descend stop limit room (phrase.tokens ++ rest) phrase.levels
        (products stop limit (room - phrase.further) phrase.tree rest)
  | .expression, phrase => ∀ room rest, after? .power rest = none →
    operator? Operator.ofProduct? rest = none →
    expression stop limit room (phrase.tokens ++ rest) =
      descend stop limit room (phrase.tokens ++ rest) phrase.levels
        (sums stop limit (room - phrase.further) phrase.tree rest)

namespace Derivation

variable (stop : Token) (limit : Nat)

/-- A sign of a sum or product ends the power before it, and one of a sum ends the product. -/
theorem ofProduct?_ne_power (sign : Token) (op : Operator)
    (joins : Operator.ofProduct? sign.kind = some op) : sign.kind ≠ .power := by
  intro power
  rw [power] at joins
  cases joins

theorem ofSum?_ne_power (sign : Token) (op : Operator)
    (joins : Operator.ofSum? sign.kind = some op) : sign.kind ≠ .power := by
  intro power
  rw [power] at joins
  cases joins

theorem ofProduct?_of_ofSum? (sign : Token) (op : Operator)
    (joins : Operator.ofSum? sign.kind = some op) (rest : List Token) :
    operator? Operator.ofProduct? (sign :: rest) = none := by
  cases kind : sign.kind with
  | plus | minus => simp only [operator?, kind, Operator.ofProduct?, Option.map_none]
  | _ => simp [kind, Operator.ofSum?] at joins

theorem operator?_of_joins (ofKind? : Token.Kind → Option Operator) (sign : Token) (op : Operator)
    (joins : ofKind? sign.kind = some op) (rest : List Token) :
    operator? ofKind? (sign :: rest) = some (op, rest) := by
  simp only [operator?, joins, Option.map_some]

theorem enclosed_phrase (inner : Derivation .expression) (closing : Token)
    (closes : closing.kind = .rightParen) (innerRead : inner.Read stop limit) (close : Expected)
    (room : Nat) (rest : List Token) :
    enclosed stop (expression stop limit room) close (inner.tokens ++ closing :: rest) =
      descend stop limit room (inner.tokens ++ closing :: rest) inner.levels
        (.ok (inner.tree, rest)) := by
  have ends : after? .power (closing :: rest) = none :=
    after?_of_ne .power closing (by simp [closes]) rest
  have noProduct : operator? Operator.ofProduct? (closing :: rest) = none := by
    simp [operator?, closes, Operator.ofProduct?]
  have noSum : operator? Operator.ofSum? (closing :: rest) = none := by
    simp [operator?, closes, Operator.ofSum?]
  have reading := innerRead room (closing :: rest) ends noProduct
  rw [sums_done noSum] at reading
  exact enclosed_descend stop limit room _ _ _ close inner.tree closing closes rest reading

theorem read_group (opening : Token) (inner : Derivation .expression) (closing : Token)
    (opens : opening.kind = .leftParen) (closes : closing.kind = .rightParen)
    (innerRead : inner.Read stop limit) :
    (group opening inner closing opens closes).Read stop limit := by
  intro room rest
  simp only [tokens, tree, levels, List.cons_append, List.append_assoc, List.nil_append]
  rw [primary_group stop _ opening opens, descend_behind, List.drop_succ_cons, List.drop_zero]
  exact enclosed_phrase stop limit inner closing closes innerRead .groupEnd room rest

theorem read_call (name : Token) (function : Trig) (opening : Token)
    (argument : Derivation .expression) (closing : Token)
    (names : Trig.ofKind? name.kind = some function) (opens : opening.kind = .leftParen)
    (closes : closing.kind = .rightParen) (argumentRead : argument.Read stop limit) :
    (call name function opening argument closing names opens closes).Read stop limit := by
  intro room rest
  have reading := enclosed_phrase stop limit argument closing closes argumentRead
    (.closing function) room rest
  simp only [tokens, tree, levels, List.cons_append, List.append_assoc, List.nil_append]
  rw [primary_call stop _ name function names, descend_behind, List.drop_succ_cons,
    List.drop_succ_cons, List.drop_zero]
  exact called_descend stop limit room _ _ _ function opening opens argument.tree rest reading

theorem read_power (base : Derivation .primary) (caret : Token) (exponent : Derivation .unary)
    (raises : caret.kind = .power) (baseRead : base.Read stop limit)
    (exponentRead : exponent.Read stop limit) :
    (power base caret exponent raises).Read stop limit := by
  intro room rest noPower
  have baseReading := baseRead room (caret :: (exponent.tokens ++ rest))
  have exponentReading := exponentRead room rest noPower
  have behind : (base.tokens ++ caret :: (exponent.tokens ++ rest)).drop
      (base.tokens.length + 1) = exponent.tokens ++ rest := by
    simp [List.drop_append]
  simp only [tokens, tree, levels, List.cons_append, List.append_assoc]
  rw [descend_append, descend_behind, behind]
  exact factor_power stop limit room _ _ _ _ base.tree exponent.tree caret raises _ rest _
    baseReading exponentReading

theorem read_neg (minus : Token) (operand : Derivation .unary) (negates : minus.kind = .minus)
    (operandRead : operand.Read stop limit) : (neg minus operand negates).Read stop limit := by
  intro room rest noPower
  simp only [tokens, tree, levels, List.cons_append]
  rw [descend_below, List.drop_succ_cons, List.drop_zero, List.drop_zero]
  cases room with
  | zero => rw [unary_zero, if_pos Nat.zero_lt_one]
  | succ room =>
    rw [if_neg (by omega), Nat.add_sub_cancel]
    exact (unary_minus (after?_of_kind .minus minus negates _)).trans
      (chain_descend stop limit room _ _ _ (fun operand rest => .ok (.neg operand, rest))
        operand.tree rest (operandRead room rest noPower))

/-- A phrase that is a factor does not start with a minus sign. -/
theorem head_ne_minus {category : Category} (phrase : Derivation category)
    (inner : category = .primary ∨ category = .factor) (rest : List Token) :
    after? .minus (phrase.tokens ++ rest) = none := by
  induction phrase generalizing rest with
  | leaf token tree reads =>
    apply after?_of_ne
    intro minus
    simp [leaf?, minus] at reads
  | group opening inner closing opens closes _ =>
    exact after?_of_ne .minus opening (by simp [opens]) _
  | call name function opening argument closing names opens closes _ =>
    apply after?_of_ne
    intro minus
    simp [Trig.ofKind?, minus] at names
  | bare base ih => exact ih (Or.inl rfl) rest
  | power base caret exponent raises baseIH _ =>
    simp only [tokens, List.append_assoc]
    exact baseIH (Or.inl rfl) _
  | _ => simp at inner

theorem read_plain (operand : Derivation .factor) (operandRead : operand.Read stop limit) :
    (plain operand).Read stop limit := by
  intro room rest noPower
  simp only [tokens, tree, levels]
  rw [descend_below, List.drop_zero]
  cases room with
  | zero => rw [unary_zero, if_pos Nat.zero_lt_one]
  | succ room =>
    rw [unary_factor (operand.head_ne_minus (Or.inr rfl) rest), if_neg (by omega),
      Nat.add_sub_cancel]
    exact operandRead room rest noPower

theorem read_product (before : Derivation .term) (sign : Token) (op : Operator)
    (last : Derivation .unary) (joins : Operator.ofProduct? sign.kind = some op)
    (beforeRead : before.Read stop limit) (lastRead : last.Read stop limit) :
    (product before sign op last joins).Read stop limit := by
  intro room rest noPower
  have joined := operator?_of_joins Operator.ofProduct? sign op joins (last.tokens ++ rest)
  have beforeReading := beforeRead room (sign :: (last.tokens ++ rest))
    (after?_of_ne .power sign (ofProduct?_ne_power sign op joins) _)
  have continued : ∀ left, products stop limit (left + 1) before.tree
      (sign :: (last.tokens ++ rest)) =
        descend stop limit left (last.tokens ++ rest) last.levels
          (products stop limit left (.binary op before.tree last.tree) rest) := by
    intro left
    exact (products_next joined).trans (chain_descend stop limit left _ _ _
      (fun right => products stop limit left (.binary op before.tree right))
      last.tree rest (lastRead left rest noPower))
  simp only [tokens, tree, levels, further, List.cons_append, List.append_assoc]
  rw [beforeReading]
  exact descend_chain stop limit room before.tokens (last.tokens ++ rest) sign before.further
    before.levels last.levels (fun left => products stop limit left before.tree _) _
    (products_exhausted joined) continued

theorem read_sum (before : Derivation .expression) (sign : Token) (op : Operator)
    (last : Derivation .term) (joins : Operator.ofSum? sign.kind = some op)
    (beforeRead : before.Read stop limit) (lastRead : last.Read stop limit) :
    (sum before sign op last joins).Read stop limit := by
  intro room rest noPower noProduct
  have joined := operator?_of_joins Operator.ofSum? sign op joins (last.tokens ++ rest)
  have beforeReading := beforeRead room (sign :: (last.tokens ++ rest))
    (after?_of_ne .power sign (ofSum?_ne_power sign op joins) _)
    (ofProduct?_of_ofSum? sign op joins _)
  have continued : ∀ left, sums stop limit (left + 1) before.tree
      (sign :: (last.tokens ++ rest)) =
        descend stop limit left (last.tokens ++ rest) last.levels
          (sums stop limit left (.binary op before.tree last.tree) rest) := by
    intro left
    have lastReading := lastRead left rest noPower
    rw [products_done noProduct] at lastReading
    exact (sums_next joined).trans (chain_descend stop limit left _ _ _
      (fun right => sums stop limit left (.binary op before.tree right))
      last.tree rest lastReading)
  simp only [tokens, tree, levels, further, List.cons_append, List.append_assoc]
  rw [beforeReading]
  exact descend_chain stop limit room before.tokens (last.tokens ++ rest) sign before.further
    before.levels last.levels (fun left => sums stop limit left before.tree _) _
    (sums_exhausted joined) continued

theorem read {category : Category} (phrase : Derivation category) : phrase.Read stop limit := by
  induction phrase with
  | leaf token tree reads =>
    intro room rest
    exact primary_leaf stop _ token tree reads rest
  | group opening inner closing opens closes ih =>
    exact read_group stop limit opening inner closing opens closes ih
  | call name function opening argument closing names opens closes ih =>
    exact read_call stop limit name function opening argument closing names opens closes ih
  | bare base ih =>
    intro room rest noPower
    exact factor_bare stop limit room _ _ _ _ base.tree rest noPower (ih room rest)
  | power base caret exponent raises baseIH exponentIH =>
    exact read_power stop limit base caret exponent raises baseIH exponentIH
  | neg minus operand negates ih => exact read_neg stop limit minus operand negates ih
  | plain operand ih => exact read_plain stop limit operand ih
  | single first ih =>
    intro room rest noPower
    exact chain_descend stop limit room _ _ _ _ first.tree rest (ih room rest noPower)
  | product before sign op last joins beforeIH lastIH =>
    exact read_product stop limit before sign op last joins beforeIH lastIH
  | lone first ih =>
    intro room rest noPower noProduct
    have reading := ih room rest noPower
    rw [products_done noProduct] at reading
    exact chain_descend stop limit room _ _ _ _ first.tree rest reading
  | sum before sign op last joins beforeIH lastIH =>
    exact read_sum stop limit before sign op last joins beforeIH lastIH

end Derivation
end Formula.Grammar
