import Formula.Proofs.Grammar.Derivation

/-!
# Phrases that are cut off

A stub is what has been read of a phrase when something is missing: an operand, the parenthesis
behind the name of a function, or the parenthesis that closes a group or a call. It is a frame
within a frame down to the place where reading stopped; a frame is one rule of the grammar that
has been read up to its last constituent.

The main statements say that every stub can be completed to a phrase, and which levels that takes.
-/

set_option autoImplicit false

namespace Formula.Grammar

/-- A rule for `outer` whose last constituent, of category `inner`, is still to be read. -/
inductive Frame : (inner outer : Category) → Type where
  | group (opening : Token) (opens : opening.kind = .leftParen) : Frame .expression .primary
  | call (name : Token) (function : Trig) (opening : Token)
      (names : Trig.ofKind? name.kind = some function) (opens : opening.kind = .leftParen) :
      Frame .expression .primary
  | bare : Frame .primary .factor
  | power (base : Derivation .primary) (caret : Token) (raises : caret.kind = .power) :
      Frame .unary .factor
  | neg (minus : Token) (negates : minus.kind = .minus) : Frame .unary .unary
  | plain : Frame .factor .unary
  | single : Frame .unary .term
  | product (before : Derivation .term) (sign : Token) (op : Operator)
      (joins : Operator.ofProduct? sign.kind = some op) : Frame .unary .term
  | lone : Frame .term .expression
  | sum (before : Derivation .expression) (sign : Token) (op : Operator)
      (joins : Operator.ofSum? sign.kind = some op) : Frame .term .expression

inductive Stub : Category → Type where
  | operand : Stub .unary
  | unopened (name : Token) (function : Trig) (names : Trig.ofKind? name.kind = some function) :
      Stub .primary
  | unclosedGroup (opening : Token) (inner : Derivation .expression)
      (opens : opening.kind = .leftParen) : Stub .primary
  | unclosedCall (name : Token) (function : Trig) (opening : Token)
      (argument : Derivation .expression) (names : Trig.ofKind? name.kind = some function)
      (opens : opening.kind = .leftParen) : Stub .primary
  | within {inner outer : Category} (frame : Frame inner outer) (stub : Stub inner) : Stub outer

namespace Frame

def tokens : {inner outer : Category} → Frame inner outer → List Token
  | _, _, .group opening _ => [opening]
  | _, _, .call name _ opening _ _ => [name, opening]
  | _, _, .power base caret _ => base.tokens ++ [caret]
  | _, _, .neg minus _ => [minus]
  | _, _, .product before sign _ _ => before.tokens ++ [sign]
  | _, _, .sum before sign _ _ => before.tokens ++ [sign]
  | _, _, _ => []

def down : {inner outer : Category} → Frame inner outer → Nat
  | _, _, .neg _ _ => 1
  | _, _, .plain => 1
  | _, _, .product before _ _ _ => before.further + 1
  | _, _, .sum before _ _ _ => before.further + 1
  | _, _, _ => 0

def levels : {inner outer : Category} → Frame inner outer → List Level
  | _, _, .power base _ _ => base.levels
  | _, _, .neg _ _ => [⟨1, 0⟩]
  | _, _, .plain => [⟨1, 0⟩]
  | _, _, .product before _ _ _ =>
    before.levels ++ [⟨before.further + 1, before.tokens.length + 1⟩]
  | _, _, .sum before _ _ _ => before.levels ++ [⟨before.further + 1, before.tokens.length + 1⟩]
  | _, _, _ => []

def closingParen : Token := ⟨.rightParen, ")", 0⟩

def closing : {inner outer : Category} → Frame inner outer → List Token
  | _, _, .group _ _ => [closingParen]
  | _, _, .call _ _ _ _ _ => [closingParen]
  | _, _, _ => []

def fill : {inner outer : Category} → Frame inner outer → Derivation inner → Derivation outer
  | _, _, .group opening opens, inner => .group opening inner closingParen opens rfl
  | _, _, .call name function opening names opens, argument =>
    .call name function opening argument closingParen names opens rfl
  | _, _, .bare, base => .bare base
  | _, _, .power base caret raises, exponent => .power base caret exponent raises
  | _, _, .neg minus negates, operand => .neg minus operand negates
  | _, _, .plain, operand => .plain operand
  | _, _, .single, first => .single first
  | _, _, .product before sign op joins, last => .product before sign op last joins
  | _, _, .lone, first => .lone first
  | _, _, .sum before sign op joins, last => .sum before sign op last joins

variable {inner outer : Category} (frame : Frame inner outer) (phrase : Derivation inner)

theorem fill_tokens :
    (frame.fill phrase).tokens = frame.tokens ++ (phrase.tokens ++ frame.closing) := by
  cases frame <;> simp [fill, Derivation.tokens, tokens, closing]

theorem fill_levels : (frame.fill phrase).levels =
    frame.levels ++ phrase.levels.map (Level.shift frame.down frame.tokens.length) := by
  have unshifted : Level.shift 0 0 = id := by
    funext level
    simp [Level.shift]
  cases frame <;>
    simp [fill, Derivation.levels, tokens, levels, down, Level.below, unshifted]

theorem down_taken : frame.down = 0 ∨ ∃ level ∈ frame.levels, level.depth = frame.down := by
  cases frame with
  | neg | plain => exact Or.inr ⟨⟨1, 0⟩, List.mem_singleton_self _, rfl⟩
  | product before sign op joins | sum before sign op joins =>
    exact Or.inr ⟨_, List.mem_append_right _ (List.mem_singleton_self _), rfl⟩
  | _ => exact Or.inl rfl

theorem down_le_of_taken (room : Nat) (taken : ∀ level ∈ frame.levels, level.depth ≤ room) :
    frame.down ≤ room := by
  rcases frame.down_taken with shallow | ⟨level, member, deep⟩
  · omega
  · exact deep ▸ taken level member

theorem cursor_le_length : ∀ level ∈ frame.levels, level.cursor ≤ frame.tokens.length := by
  cases frame with
  | power base caret raises =>
    intro level member
    have := base.cursor_lt_length level member
    simp only [tokens, List.length_append, List.length_singleton]
    omega
  | product before sign op joins | sum before sign op joins =>
    simp only [levels, tokens, List.forall_mem_append, List.forall_mem_singleton,
      List.length_append, List.length_singleton]
    refine ⟨fun level member => ?_, Nat.le_refl _⟩
    have := before.cursor_lt_length level member
    omega
  | _ => simp [levels]

end Frame

namespace Stub

def tokens : {category : Category} → Stub category → List Token
  | _, .operand => []
  | _, .unopened name _ _ => [name]
  | _, .unclosedGroup opening inner _ => opening :: inner.tokens
  | _, .unclosedCall name _ opening argument _ _ => name :: opening :: argument.tokens
  | _, .within frame stub => frame.tokens ++ stub.tokens

/-- What has to stand behind the stub. -/
def missing : {category : Category} → Stub category → Expected
  | _, .operand => .operand
  | _, .unopened _ function _ => .opening function
  | _, .unclosedGroup _ _ _ => .groupEnd
  | _, .unclosedCall _ function _ _ _ _ => .closing function
  | _, .within _ stub => stub.missing

def down : {category : Category} → Stub category → Nat
  | _, .within frame stub => frame.down + stub.down
  | _, _ => 0

def levels : {category : Category} → Stub category → List Level
  | _, .operand => []
  | _, .unopened _ _ _ => []
  | _, .unclosedGroup _ inner _ => inner.levels.map (Level.shift 0 1)
  | _, .unclosedCall _ _ _ argument _ _ => argument.levels.map (Level.shift 0 2)
  | _, .within frame stub =>
    frame.levels ++ stub.levels.map (Level.shift frame.down frame.tokens.length)

theorem leaf?_any : leaf? ⟨.var, "x", 0⟩ = some (.var "x") := rfl

def anyOperand : Derivation .unary := .plain (.bare (.leaf ⟨.var, "x", 0⟩ (.var "x") leaf?_any))

theorem kind_openingParen : (⟨.leftParen, "(", 0⟩ : Token).kind = .leftParen := rfl

/-- A phrase that starts as the stub does: some operand is put where one is missing, and all that
is open is closed. -/
def complete : {category : Category} → Stub category → Derivation category
  | _, .operand => anyOperand
  | _, .unopened name function names =>
    .call name function ⟨.leftParen, "(", 0⟩ (.lone (.single anyOperand)) Frame.closingParen names
      kind_openingParen rfl
  | _, .unclosedGroup opening inner opens =>
    .group opening inner Frame.closingParen opens rfl
  | _, .unclosedCall name function opening argument names opens =>
    .call name function opening argument Frame.closingParen names opens rfl
  | _, .within frame stub => frame.fill stub.complete

theorem tokens_complete {category : Category} (stub : Stub category) :
    ∃ continuation, stub.complete.tokens = stub.tokens ++ continuation := by
  induction stub with
  | operand => exact ⟨_, rfl⟩
  | unopened name function names => exact ⟨_, rfl⟩
  | unclosedGroup opening inner opens => exact ⟨_, rfl⟩
  | unclosedCall name function opening argument names opens => exact ⟨_, rfl⟩
  | within frame stub ih =>
    obtain ⟨continuation, completes⟩ := ih
    refine ⟨continuation ++ frame.closing, ?_⟩
    simp only [complete, Frame.fill_tokens, completes, tokens, List.append_assoc]

/-- Completing a stub takes its levels first, and behind them one more at most. -/
theorem levels_complete {category : Category} (stub : Stub category) :
    ∃ later, stub.complete.levels = stub.levels ++ later ∧
      ∀ level ∈ later, level.depth ≤ stub.down + 1 := by
  induction stub with
  | operand => exact ⟨_, rfl, by decide⟩
  | unopened name function names => exact ⟨[⟨1, 2⟩], rfl, by simp [down]⟩
  | unclosedGroup opening inner opens => exact ⟨[], by simp [complete, Derivation.levels, levels]⟩
  | unclosedCall name function opening argument names opens =>
    exact ⟨[], by simp [complete, Derivation.levels, levels]⟩
  | within frame stub ih =>
    obtain ⟨later, completes, shallow⟩ := ih
    refine ⟨later.map (Level.shift frame.down frame.tokens.length), ?_, ?_⟩
    · simp only [complete, Frame.fill_levels, completes, levels, List.map_append,
        List.append_assoc]
    · simp only [List.forall_mem_map, Level.shift, down]
      intro level member
      have := shallow level member
      omega

theorem down_taken {category : Category} (stub : Stub category) :
    stub.down = 0 ∨ ∃ level ∈ stub.levels, level.depth = stub.down := by
  induction stub with
  | within frame stub ih =>
    rcases ih with shallow | ⟨level, member, deep⟩
    · rcases frame.down_taken with flat | ⟨level, member, deep⟩
      · exact Or.inl (by simp only [down, shallow, flat])
      · refine Or.inr ⟨level, List.mem_append_left _ member, ?_⟩
        simp only [down, shallow, deep, Nat.add_zero]
    · refine Or.inr ⟨Level.shift frame.down frame.tokens.length level,
        List.mem_append_right _ (List.mem_map_of_mem member), ?_⟩
      simp only [down, Level.shift, deep]
  | _ => exact Or.inl rfl

theorem down_le_of_taken {category : Category} (stub : Stub category) (room : Nat)
    (taken : ∀ level ∈ stub.levels, level.depth ≤ room) : stub.down ≤ room := by
  rcases stub.down_taken with shallow | ⟨level, member, deep⟩
  · omega
  · exact deep ▸ taken level member

theorem cursor_le_length {category : Category} (stub : Stub category) :
    ∀ level ∈ stub.levels, level.cursor ≤ stub.tokens.length := by
  induction stub with
  | operand => simp [levels]
  | unopened name function names => simp [levels]
  | unclosedGroup opening inner opens =>
    simp only [levels, tokens, List.forall_mem_map, Level.shift, List.length_cons]
    intro level member
    have := inner.cursor_lt_length level member
    omega
  | unclosedCall name function opening argument names opens =>
    simp only [levels, tokens, List.forall_mem_map, Level.shift, List.length_cons]
    intro level member
    have := argument.cursor_lt_length level member
    omega
  | within frame stub ih =>
    simp only [levels, tokens, List.forall_mem_append, List.forall_mem_map, Level.shift,
      List.length_append]
    refine ⟨fun level member => ?_, fun level member => ?_⟩
    · have := frame.cursor_le_length level member
      omega
    · have := ih level member
      omega

/-- In the stub of a primary or a factor a token is left over: the unary around it takes its level
there. -/
theorem down_le_length_of_inner {category : Category} (stub : Stub category) :
    stub.down ≤ stub.tokens.length ∧
      (category = .primary ∨ category = .factor → stub.down < stub.tokens.length) := by
  induction stub with
  | within frame stub ih =>
    cases frame with
    | group | call =>
      simp only [down, Frame.down, tokens, Frame.tokens, List.length_append, List.length_cons]
      omega
    | bare =>
      have shorter := ih.2 (Or.inl rfl)
      simp only [down, Frame.down, tokens, Frame.tokens, List.length_append, List.length_nil]
      omega
    | plain =>
      have shorter := ih.2 (Or.inr rfl)
      refine ⟨?_, by simp⟩
      simp only [down, Frame.down, tokens, Frame.tokens, List.length_append, List.length_nil]
      omega
    | power =>
      simp only [down, Frame.down, tokens, Frame.tokens, List.length_append, List.length_cons]
      omega
    | neg =>
      refine ⟨?_, by simp⟩
      simp only [down, Frame.down, tokens, Frame.tokens, List.length_append, List.length_cons]
      omega
    | single | lone => exact ⟨by simpa [down, Frame.down, tokens, Frame.tokens] using ih.1, by simp⟩
    | product before | sum before =>
      have operands := before.further_lt_length
      refine ⟨?_, by simp⟩
      simp only [down, Frame.down, tokens, Frame.tokens, List.length_append, List.length_cons]
      omega
  | _ => simp [down, tokens]

theorem cost_complete {category : Category} (stub : Stub category) (room : Nat)
    (taken : ∀ level ∈ stub.levels, level.depth ≤ room) : stub.complete.cost ≤ room + 1 := by
  obtain ⟨later, completes, shallow⟩ := stub.levels_complete
  have enough := stub.down_le_of_taken room taken
  apply (stub.complete.depth_le_iff (room + 1)).mp
  rw [completes, List.forall_mem_append]
  constructor
  · intro level member
    exact Nat.le_succ_of_le (taken level member)
  · intro level member
    have := shallow level member
    omega

end Stub

end Formula.Grammar
