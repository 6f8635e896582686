import Formula.Proofs.Grammar.Reading
import Formula.Proofs.Grammar.Soundness
import Formula.Proofs.Grammar.Stub

/-!
# Where reading stops

A rule that comes to the end of a stub and is blocked there fails, and its error depends on nothing
behind the token at which it stopped. The levels of the stub are taken first: with less room the
error is the first level beyond the room. The main statement is `Stub.read`, by induction on the
stub: an error in a frame is an error of the whole phrase.
-/

set_option autoImplicit false

namespace Formula.Grammar

def rule (stop : Token) (limit : Nat) : Category → (room : Nat) → Rule
  | .primary, room => primary stop (expression stop limit room)
  | .factor, room => factor stop (expression stop limit room) (unary stop limit room)
  | .unary, room => unary stop limit room
  | .term, room => term stop limit room
  | .expression, room => expression stop limit room

def refusal? (token : Token) : Option Expected :=
  match token.kind with
  | .number => if (Decimal.read? token.text).isSome then none else some .validNumber
  | .pi | .euler | .var | .sin | .cos | .tan | .leftParen | .minus => none
  | _ => some .operand

def joining : List Token.Kind := [.plus, .minus, .times, .divide, .power]

/-- Why reading stops in front of `token`, where `missing` is expected and `room` levels are
left. -/
inductive Blocked (limit : Nat) (token : Token) : (missing : Expected) → (room : Nat) →
    SyntaxError → Prop where
  | full : Blocked limit token .operand 0 (.tooDeep token.position limit)
  | operand (room : Nat) (expected : Expected) (refused : refusal? token = some expected) :
    Blocked limit token .operand (room + 1) (.unexpected token expected)
  | opening (room : Nat) (function : Trig) (other : token.kind ≠ .leftParen) :
    Blocked limit token (.opening function) room (.unexpected token (.opening function))
  | closing (room : Nat) (close : Expected)
    (closes : close = .groupEnd ∨ ∃ function, close = .closing function)
    (other : token.kind ≠ .rightParen) (ends : token.kind ∉ joining) :
    Blocked limit token close room (.unexpected token close)

/-- The levels in front of the end of the stub fit into the room, and there reading stops. -/
structure Stub.Fails {category : Category} (stub : Stub category) (limit room : Nat)
    (token : Token) (error : SyntaxError) : Prop where
  taken : ∀ level ∈ stub.levels, level.cursor < stub.tokens.length → level.depth ≤ room
  blocked : Blocked limit token stub.missing (room - stub.down) error

section Reading

variable (stop : Token) (limit : Nat)

/-! ## What ends an expression -/

theorem after?_eq_none (kind : Token.Kind) (ordinary : kind ≠ stop.kind) (rest : List Token) :
    after? kind rest = none ↔ (next stop rest).kind ≠ kind := by
  cases rest with
  | nil => simp [after?, next, ordinary.symm]
  | cons token behind =>
    by_cases is : token.kind = kind
    · simp [after?, next, is]
    · simp [after?, next, is]

theorem operator?_eq_none (ofKind? : Token.Kind → Option Operator)
    (ordinary : ofKind? stop.kind = none) (rest : List Token) :
    operator? ofKind? rest = none ↔ ofKind? (next stop rest).kind = none := by
  cases rest with
  | nil => simp [operator?, next, ordinary]
  | cons token behind => simp [operator?, next]

/-- Nothing goes on with the expression in front of `rest`. -/
structure Ended (rest : List Token) : Prop where
  noPower : after? .power rest = none
  noProduct : operator? Operator.ofProduct? rest = none
  noSum : operator? Operator.ofSum? rest = none

theorem ended_iff (ends : stop.kind = .finish) (rest : List Token) :
    Ended rest ↔ (next stop rest).kind ∉ joining := by
  have power := after?_eq_none stop .power (by rw [ends]; decide) rest
  have product := operator?_eq_none stop Operator.ofProduct? (by rw [ends]; rfl) rest
  have sum := operator?_eq_none stop Operator.ofSum? (by rw [ends]; rfl) rest
  have kinds : ∀ kind : Token.Kind,
      (kind ≠ .power ∧ Operator.ofProduct? kind = none ∧ Operator.ofSum? kind = none) ↔
        kind ∉ joining := by
    intro kind
    cases kind <;> decide
  rw [← kinds, ← power, ← product, ← sum]
  exact ⟨fun ended => ⟨ended.noPower, ended.noProduct, ended.noSum⟩,
    fun ⟨noPower, noProduct, noSum⟩ => ⟨noPower, noProduct, noSum⟩⟩

/-! ## An error within a frame -/

theorem descend_error (room : Nat) (tokens : List Token) (levels : List Level)
    (error : SyntaxError) :
    ∃ first, descend stop limit room tokens levels (.error error) = .error first := by
  rcases descend_cases stop limit room tokens levels with ⟨first, fails⟩ | passes
  · exact ⟨first, fails _⟩
  · exact ⟨error, passes _⟩

theorem enclosed_error (inside : Rule) (close : Expected) (tokens : List Token)
    (error : SyntaxError) (fails : inside tokens = .error error) :
    enclosed stop inside close tokens = .error error := by
  simp only [enclosed, fails]

theorem primary_called (inside : Rule) (name : Token) (function : Trig)
    (names : Trig.ofKind? name.kind = some function) (opening : Token)
    (opens : opening.kind = .leftParen) (tokens : List Token) (error : SyntaxError)
    (fails : enclosed stop inside (.closing function) tokens = .error error) :
    primary stop inside (name :: opening :: tokens) = .error error := by
  rw [primary_call stop inside name function names]
  simp only [called, after?_of_kind .leftParen opening opens, fails]

theorem factor_error (inside more : Rule) (tokens : List Token) (error : SyntaxError)
    (fails : primary stop inside tokens = .error error) :
    factor stop inside more tokens = .error error := by
  simp only [factor, fails]

theorem chain_error (operand : Rule) (more : Expr → Rule) (tokens : List Token)
    (error : SyntaxError) (fails : operand tokens = .error error) :
    chain operand more tokens = .error error := by
  simp only [chain, fails]

theorem unary_descend (room : Nat) (tokens : List Token) (error : SyntaxError)
    (continued : ∀ left, room = left + 1 → unary stop limit room tokens = .error error) :
    unary stop limit room tokens = descend stop limit room tokens [⟨1, 0⟩] (.error error) := by
  have below := descend_below stop limit room tokens (.error error) 1 0 0 []
  cases room with
  | zero => exact unary_zero.trans below.symm
  | succ room =>
    rw [if_neg (by omega)] at below
    exact (continued room rfl).trans below.symm

/-- An error in an operand of a chain, in front of which the loop takes a level. -/
theorem Loop.error {ofKind? : Token.Kind → Option Operator} {operand : Nat → Rule}
    {loop : Nat → Expr → Rule} (looping : Loop stop limit ofKind? operand loop) (room : Nat)
    (before tokens : List Token) (sign : Token) (op : Operator) (further : Nat)
    (levels : List Level) (tree : Expr)
    (joined : operator? ofKind? (sign :: tokens) = some (op, tokens)) (error : SyntaxError)
    (fails : operand (room - (further + 1)) tokens = .error error) :
    descend stop limit room (before ++ sign :: tokens) levels
        (loop (room - further) tree (sign :: tokens)) =
      descend stop limit room (before ++ sign :: tokens)
        (levels ++ [⟨further + 1, before.length + 1⟩]) (.error error) := by
  have last := descend_chain stop limit room before tokens sign further levels []
    (fun left => loop left tree (sign :: tokens))
    (fun left => chain (operand left) (fun right => loop left (.binary op tree right)) tokens)
    (looping.exhausted joined) (fun _ => looping.continued joined)
  rw [last, chain_error _ _ tokens error fails]
  rfl

/-- An error within a frame is an error of the whole phrase, unless a level on the way into the
frame is missing. -/
theorem Frame.read_error {inner outer : Category} (frame : Frame inner outer) (room : Nat)
    (tokens : List Token) (error : SyntaxError)
    (fails : rule stop limit inner (room - frame.down) tokens = .error error)
    (noMinus : inner = .factor → after? .minus tokens = none) :
    rule stop limit outer room (frame.tokens ++ tokens) =
      descend stop limit room (frame.tokens ++ tokens) frame.levels (.error error) := by
  cases frame with
  | group opening opens =>
    exact (primary_group stop _ opening opens tokens).trans
      (enclosed_error stop _ .groupEnd tokens error fails)
  | call name function opening names opens =>
    exact primary_called stop _ name function names opening opens tokens error
      (enclosed_error stop _ (.closing function) tokens error fails)
  | bare => exact factor_error stop _ _ tokens error fails
  | power base caret raises =>
    have reading := base.read stop limit room (caret :: tokens)
    have raised := after?_of_kind .power caret raises tokens
    simp only [rule, Frame.tokens, Frame.levels, List.append_assoc, List.cons_append,
      List.nil_append]
    rcases descend_cases stop limit room (base.tokens ++ caret :: tokens) base.levels with
      ⟨first, stops⟩ | passes
    · rw [stops] at reading ⊢
      exact factor_error stop _ _ _ first reading
    · rw [passes] at reading ⊢
      have stops : unary stop limit room tokens = .error error := fails
      simp only [factor, reading, raised, stops]
  | neg minus negates =>
    have signed := after?_of_kind .minus minus negates tokens
    apply unary_descend stop limit room (minus :: tokens) error
    rintro left rfl
    have stops : unary stop limit left tokens = .error error := fails
    rw [unary_minus signed, stops]
  | plain =>
    apply unary_descend stop limit room tokens error
    rintro left rfl
    rw [unary_factor (noMinus rfl)]
    exact fails
  | single => exact chain_error _ _ tokens error fails
  | product before sign op joins =>
    have joined := Derivation.operator?_of_joins Operator.ofProduct? sign op joins tokens
    have noPower := after?_of_ne .power sign (Derivation.ofProduct?_ne_power sign op joins) tokens
    have reading := before.read stop limit room (sign :: tokens) noPower
    simp only [rule, Frame.tokens, Frame.levels, List.append_assoc, List.cons_append,
      List.nil_append]
    rw [reading]
    exact (products_loop stop limit).error stop limit room before.tokens tokens sign op _ _ _ joined
      error fails
  | lone => exact chain_error _ _ tokens error fails
  | sum before sign op joins =>
    have joined := Derivation.operator?_of_joins Operator.ofSum? sign op joins tokens
    have noPower := after?_of_ne .power sign (Derivation.ofSum?_ne_power sign op joins) tokens
    have noProduct := Derivation.ofProduct?_of_ofSum? sign op joins tokens
    have reading := before.read stop limit room (sign :: tokens) noPower noProduct
    simp only [rule, Frame.tokens, Frame.levels, List.append_assoc, List.cons_append,
      List.nil_append]
    rw [reading]
    exact (sums_loop stop limit).error stop limit room before.tokens tokens sign op _ _ _ joined
      error fails

/-! ## Reading a stub -/

theorem unary_refused (ends : stop.kind = .finish) (room : Nat) (rest : List Token)
    (expected : Expected) (refused : refusal? (next stop rest) = some expected) :
    unary stop limit (room + 1) rest = .error (.unexpected (next stop rest) expected) := by
  have noMinus : after? .minus rest = none := by
    apply (after?_eq_none stop .minus (by rw [ends]; decide) rest).mpr
    intro minus
    simp [refusal?, minus] at refused
  rw [unary_factor noMinus]
  apply factor_error
  cases rest with
  | nil =>
    simp only [next, refusal?, ends, Option.some.injEq] at refused
    subst refused
    rfl
  | cons token behind =>
    cases kind : token.kind with
    | number =>
      cases read : Decimal.read? token.text with
      | some value => simp [next, refusal?, kind, read] at refused
      | none =>
        simp only [next, refusal?, kind, read, Option.isSome_none, Bool.false_eq_true, if_false,
          Option.some.injEq] at refused
        subst refused
        simp only [primary, kind, read, next]
    | plus | times | divide | power | rightParen | finish =>
      simp only [next, refusal?, kind, Option.some.injEq] at refused
      subst refused
      simp only [primary, kind, next]
    | _ => simp [next, refusal?, kind] at refused

theorem unary_blocked (ends : stop.kind = .finish) (room : Nat) (rest : List Token)
    (error : SyntaxError) (blocked : Blocked limit (next stop rest) .operand room error) :
    unary stop limit room rest = .error error := by
  cases blocked with
  | full => exact unary_zero
  | operand room expected refused => exact unary_refused stop limit ends room rest expected refused
  | closing room close closes other ended => simp at closes

theorem primary_unopened (inside : Rule) (ends : stop.kind = .finish) (name : Token)
    (function : Trig) (names : Trig.ofKind? name.kind = some function) (room : Nat)
    (rest : List Token) (error : SyntaxError)
    (blocked : Blocked limit (next stop rest) (.opening function) room error) :
    primary stop inside (name :: rest) = .error error := by
  rw [primary_call stop inside name function names]
  cases blocked with
  | opening room function other =>
    have unopened := (after?_eq_none stop .leftParen (by rw [ends]; decide) rest).mpr other
    simp only [called, unopened]
  | closing room close closes other ended => simp at closes

theorem enclosed_unclosed (ends : stop.kind = .finish) (inner : Derivation .expression)
    (close : Expected) (closes : close = .groupEnd ∨ ∃ function, close = .closing function)
    (room left : Nat) (rest : List Token) (error : SyntaxError)
    (blocked : Blocked limit (next stop rest) close left error) :
    enclosed stop (expression stop limit room) close (inner.tokens ++ rest) =
      descend stop limit room (inner.tokens ++ rest) inner.levels (.error error) := by
  cases blocked with
  | full => simp at closes
  | operand => simp at closes
  | opening => simp at closes
  | closing left close _ other joinless =>
    have unclosed := (after?_eq_none stop .rightParen (by rw [ends]; decide) rest).mpr other
    have ended := (ended_iff stop ends rest).mpr joinless
    have reading := inner.read stop limit room rest ended.noPower ended.noProduct
    rw [sums_done ended.noSum] at reading
    rcases descend_cases stop limit room (inner.tokens ++ rest) inner.levels with
      ⟨first, fails⟩ | passes
    · rw [fails] at reading ⊢
      exact enclosed_error stop _ close _ first reading
    · rw [passes] at reading ⊢
      simp only [enclosed, reading, unclosed]

/-- A frame takes all the levels that are in use within it. -/
theorem descend_frame {inner outer : Category} (frame : Frame inner outer) (room : Nat)
    (tokens : List Token) (levels : List Level)
    (result : Except SyntaxError (Expr × List Token)) :
    descend stop limit room tokens frame.levels
        (descend stop limit (room - frame.down) (tokens.drop frame.tokens.length) levels result) =
      descend stop limit room tokens
        (frame.levels ++ levels.map (Level.shift frame.down frame.tokens.length)) result := by
  rw [descend_append]
  by_cases fits : frame.down ≤ room
  · rw [descend_shift stop limit room tokens result frame.down frame.tokens.length fits]
  · apply descend_of_beyond
    rcases frame.down_taken with flat | ⟨level, member, deep⟩
    · omega
    · exact ⟨level, member, by omega⟩

theorem Stub.head_ne_minus {category : Category} (stub : Stub category)
    (inner : category = .primary ∨ category = .factor) (rest : List Token) :
    after? .minus (stub.tokens ++ rest) = none := by
  induction stub with
  | operand => simp at inner
  | unopened name function names | unclosedCall name function opening argument names opens =>
    apply after?_of_ne
    intro minus
    simp [Trig.ofKind?, minus] at names
  | unclosedGroup opening phrase opens => exact after?_of_ne .minus opening (by simp [opens]) _
  | within frame stub ih =>
    cases frame with
    | group opening opens => exact after?_of_ne .minus opening (by simp [opens]) _
    | call name function opening names opens =>
      apply after?_of_ne
      intro minus
      simp [Trig.ofKind?, minus] at names
    | bare => exact ih (Or.inl rfl)
    | power base caret raises =>
      simp only [Stub.tokens, Frame.tokens, List.append_assoc]
      exact base.head_ne_minus (Or.inl rfl) _
    | _ => simp at inner

theorem Stub.read {category : Category} (stub : Stub category) (ends : stop.kind = .finish)
    (room : Nat) (rest : List Token) (error : SyntaxError)
    (blocked : Blocked limit (next stop rest) stub.missing (room - stub.down) error) :
    rule stop limit category room (stub.tokens ++ rest) =
      descend stop limit room (stub.tokens ++ rest) stub.levels (.error error) := by
  induction stub generalizing room with
  | operand => exact unary_blocked stop limit ends room rest error blocked
  | unopened name function names =>
    exact primary_unopened stop limit _ ends name function names _ rest error blocked
  | unclosedGroup opening inner opens =>
    have unclosed := enclosed_unclosed stop limit ends inner .groupEnd (Or.inl rfl) room _ rest
      error blocked
    simp only [rule, tokens, levels, List.cons_append]
    rw [primary_group stop _ opening opens, descend_behind, List.drop_succ_cons, List.drop_zero]
    exact unclosed
  | unclosedCall name function opening argument names opens =>
    have unclosed := enclosed_unclosed stop limit ends argument (.closing function)
      (Or.inr ⟨function, rfl⟩) room _ rest error blocked
    simp only [rule, tokens, levels, List.cons_append]
    rw [descend_behind, List.drop_succ_cons, List.drop_succ_cons, List.drop_zero]
    obtain ⟨first, fails⟩ := descend_error stop limit room (argument.tokens ++ rest)
      argument.levels error
    rw [fails] at unclosed ⊢
    exact primary_called stop _ name function names opening opens _ first unclosed
  | within frame stub ih =>
    have inside := ih (room - frame.down) (by rw [Nat.sub_sub]; exact blocked)
    obtain ⟨first, fails⟩ := descend_error stop limit (room - frame.down) (stub.tokens ++ rest)
      stub.levels error
    have whole := frame.read_error stop limit room (stub.tokens ++ rest) first
      (inside.trans fails) (fun factor => stub.head_ne_minus (Or.inr factor) rest)
    have behind : (frame.tokens ++ (stub.tokens ++ rest)).drop frame.tokens.length =
        stub.tokens ++ rest := List.drop_left
    have joined := descend_frame stop limit frame room (frame.tokens ++ (stub.tokens ++ rest))
      stub.levels (.error error)
    rw [behind, fails] at joined
    simp only [tokens, levels, List.append_assoc]
    exact whole.trans joined

end Reading

end Formula.Grammar
