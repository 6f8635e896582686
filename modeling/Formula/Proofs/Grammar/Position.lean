import Formula.Proofs.Grammar.FirstError
import Formula.Proofs.Token.Concatenation

/-!
# Positions only show in errors

Moving the tokens to other positions moves the positions in the errors and changes nothing else:
every rule of the grammar commutes with any map of positions. So what becomes of two token lists
with the same kinds and texts is what becomes of the list in which each token stands at its index,
moved to where the tokens of the one and of the other list stand.
-/

set_option autoImplicit false

namespace Formula

def SyntaxError.move (f : Nat → Nat) : SyntaxError → SyntaxError
  | .empty => .empty
  | .unexpected found expected => .unexpected (found.move f) expected
  | .trailing found => .trailing (found.move f)
  | .tooDeep position limit => .tooDeep (f position) limit

namespace Grammar

section Moved

variable (f : Nat → Nat)

def moveOutcome : Except SyntaxError (Expr × List Token) →
    Except SyntaxError (Expr × List Token)
  | .error error => .error (error.move f)
  | .ok (tree, rest) => .ok (tree, rest.map (Token.move f))

/-- Behind moved tokens the second rule does what the first one does. -/
def Commutes (rule moved : Rule) : Prop :=
  ∀ tokens, moved (tokens.map (Token.move f)) = moveOutcome f (rule tokens)

theorem next_move (stop : Token) (tokens : List Token) :
    next (stop.move f) (tokens.map (Token.move f)) = (next stop tokens).move f := by
  cases tokens <;> rfl

theorem after?_move (kind : Token.Kind) (tokens : List Token) :
    after? kind (tokens.map (Token.move f)) =
      (after? kind tokens).map (List.map (Token.move f)) := by
  cases tokens with
  | nil => rfl
  | cons token rest =>
    simp only [List.map_cons, after?, Token.move]
    split <;> rfl

theorem operator?_move (ofKind? : Token.Kind → Option Operator) (tokens : List Token) :
    operator? ofKind? (tokens.map (Token.move f)) =
      (operator? ofKind? tokens).map fun found => (found.1, found.2.map (Token.move f)) := by
  cases tokens with
  | nil => rfl
  | cons token rest =>
    simp only [List.map_cons, operator?, Token.move, Option.map_map]
    rfl

variable {f}

theorem commutes_enclosed (stop : Token) {rule moved : Rule} (inner : Commutes f rule moved)
    (close : Expected) :
    Commutes f (enclosed stop rule close) (enclosed (stop.move f) moved close) := by
  intro tokens
  simp only [enclosed, inner tokens]
  cases rule tokens with
  | error error => rfl
  | ok read =>
    obtain ⟨content, rest⟩ := read
    simp only [moveOutcome, after?_move, next_move]
    cases after? .rightParen rest <;> rfl

theorem commutes_called (stop : Token) {rule moved : Rule} (inner : Commutes f rule moved)
    (function : Trig) :
    Commutes f (called stop rule function) (called (stop.move f) moved function) := by
  intro tokens
  simp only [called, after?_move, next_move]
  cases after? .leftParen tokens with
  | none => rfl
  | some rest =>
    simp only [Option.map_some, commutes_enclosed stop inner (.closing function) rest]
    cases enclosed stop rule (.closing function) rest with
    | error error => rfl
    | ok read => rfl

theorem commutes_primary (stop : Token) {rule moved : Rule} (inner : Commutes f rule moved) :
    Commutes f (primary stop rule) (primary (stop.move f) moved) := by
  intro tokens
  cases tokens with
  | nil => rfl
  | cons token rest =>
    have same : (token.move f).kind = token.kind := rfl
    have spelled : (token.move f).text = token.text := rfl
    simp only [List.map_cons, primary, same, spelled]
    cases token.kind with
    | number =>
      dsimp only
      cases Decimal.read? token.text <;> rfl
    | sin => exact commutes_called stop inner .sin rest
    | cos => exact commutes_called stop inner .cos rest
    | tan => exact commutes_called stop inner .tan rest
    | leftParen => exact commutes_enclosed stop inner .groupEnd rest
    | _ => rfl

theorem commutes_factor (stop : Token) {rule moved more moreMoved : Rule}
    (inner : Commutes f rule moved) (raising : Commutes f more moreMoved) :
    Commutes f (factor stop rule more) (factor (stop.move f) moved moreMoved) := by
  intro tokens
  simp only [factor, commutes_primary stop inner tokens]
  cases primary stop rule tokens with
  | error error => rfl
  | ok read =>
    obtain ⟨base, rest⟩ := read
    simp only [moveOutcome, after?_move]
    cases after? .power rest with
    | none => rfl
    | some behind =>
      simp only [Option.map_some, raising behind]
      cases more behind <;> rfl

theorem commutes_chain {operand operandMoved : Rule} {more moreMoved : Expr → Rule}
    (first : Commutes f operand operandMoved)
    (further : ∀ left, Commutes f (more left) (moreMoved left)) :
    Commutes f (chain operand more) (chain operandMoved moreMoved) := by
  intro tokens
  simp only [chain, first tokens]
  cases operand tokens with
  | error error => rfl
  | ok read => exact further read.1 read.2

theorem commutes_loop {stop : Token} {limit : Nat} {ofKind? : Token.Kind → Option Operator}
    {operand operandMoved : Nat → Rule} {loop loopMoved : Nat → Expr → Rule}
    (looping : Loop stop limit ofKind? operand loop)
    (loopingMoved : Loop (stop.move f) limit ofKind? operandMoved loopMoved) (room : Nat)
    (operands : ∀ left < room, Commutes f (operand left) (operandMoved left)) (tree : Expr) :
    Commutes f (loop room tree) (loopMoved room tree) := by
  induction room generalizing tree with
  | zero =>
    intro tokens
    have moved := operator?_move f ofKind? tokens
    cases found : operator? ofKind? tokens with
    | none =>
      rw [found] at moved
      rw [looping.done found, loopingMoved.done moved]
      rfl
    | some next =>
      obtain ⟨op, rest⟩ := next
      rw [found] at moved
      rw [looping.exhausted found, loopingMoved.exhausted moved, next_move]
      rfl
  | succ room ih =>
    intro tokens
    have moved := operator?_move f ofKind? tokens
    cases found : operator? ofKind? tokens with
    | none =>
      rw [found] at moved
      rw [looping.done found, loopingMoved.done moved]
      rfl
    | some next =>
      obtain ⟨op, rest⟩ := next
      rw [found] at moved
      rw [looping.continued found, loopingMoved.continued moved]
      exact commutes_chain (operands room (Nat.lt_succ_self room))
        (fun right => ih (fun left below => operands left (Nat.lt_succ_of_lt below)) _) rest

section Rules

variable (stop : Token) (limit : Nat)

theorem commutes_term (room : Nat)
    (unaries : ∀ left ≤ room,
      Commutes f (unary stop limit left) (unary (stop.move f) limit left)) :
    Commutes f (term stop limit room) (term (stop.move f) limit room) :=
  commutes_chain (unaries room (Nat.le_refl room)) fun left =>
    commutes_loop (products_loop stop limit) (products_loop (stop.move f) limit) room
      (fun less below => unaries less (Nat.le_of_lt below)) left

theorem commutes_expression (room : Nat)
    (unaries : ∀ left ≤ room,
      Commutes f (unary stop limit left) (unary (stop.move f) limit left)) :
    Commutes f (expression stop limit room) (expression (stop.move f) limit room) := by
  have terms : ∀ left ≤ room,
      Commutes f (term stop limit left) (term (stop.move f) limit left) := by
    intro left below
    exact commutes_term stop limit left fun less lower => unaries less (Nat.le_trans lower below)
  exact commutes_chain (terms room (Nat.le_refl room)) fun left =>
    commutes_loop (sums_loop stop limit) (sums_loop (stop.move f) limit) room
      (fun less below => terms less (Nat.le_of_lt below)) left

theorem commutes_unary (room : Nat) :
    Commutes f (unary stop limit room) (unary (stop.move f) limit room) := by
  induction room using Nat.strongRecOn with
  | ind room ih =>
    intro tokens
    cases room with
    | zero =>
      rw [unary_zero, unary_zero, next_move]
      rfl
    | succ room =>
      have moved := after?_move f .minus tokens
      have operand := ih room (Nat.lt_succ_self room)
      cases signed : after? .minus tokens with
      | some rest =>
        rw [signed] at moved
        rw [unary_minus signed, unary_minus moved, operand rest]
        cases unary stop limit room rest <;> rfl
      | none =>
        rw [signed] at moved
        rw [unary_factor signed, unary_factor moved]
        have inside := commutes_expression (f := f) stop limit room fun left below =>
          ih left (Nat.lt_succ_of_le below)
        exact commutes_factor stop inside operand tokens

end Rules

end Moved

/-! ## Whole token lists -/

theorem body_move (f : Nat → Nat) (tokens : List Token) :
    body (tokens.map (Token.move f)) = (body tokens).map (Token.move f) := by
  unfold body
  rw [List.takeWhile_map]
  rfl

theorem finish_move (f : Nat → Nat) (tokens : List Token)
    (ended : tokens.any Token.isFinish = true) :
    finish (tokens.map (Token.move f)) = (finish tokens).move f := by
  have same : Token.isFinish ∘ Token.move f = Token.isFinish := rfl
  unfold finish
  rw [List.find?_map, same]
  cases found : tokens.find? Token.isFinish with
  | some token => rfl
  | none =>
    obtain ⟨token, member, is⟩ := List.any_eq_true.mp ended
    exact absurd is (List.find?_eq_none.mp found token member)

/-- Where the end of the text is among the tokens, it moves with them. -/
theorem ofTokens_move (f : Nat → Nat) (tokens : List Token)
    (ended : tokens.any Token.isFinish = true) (limit : Nat) :
    Expr.ofTokens limit (tokens.map (Token.move f)) =
      (Expr.ofTokens limit tokens).mapError (SyntaxError.move f) := by
  have reading := commutes_expression (f := f) (finish tokens) limit limit
    (fun left _ => commutes_unary (finish tokens) limit left) (body tokens)
  unfold Expr.ofTokens
  rw [body_move, finish_move f tokens ended, reading]
  by_cases empty : body tokens = []
  · rw [if_pos empty, if_pos (by rw [empty]; rfl)]
    rfl
  · rw [if_neg empty, if_neg (by simpa using empty)]
    cases expression (finish tokens) limit limit (body tokens) with
    | error error => rfl
    | ok read =>
      obtain ⟨tree, rest⟩ := read
      cases rest <;> rfl

theorem ofTokens_move_eq_ok_iff (f : Nat → Nat) (tokens : List Token)
    (ended : tokens.any Token.isFinish = true) (limit : Nat) (tree : Expr) :
    Expr.ofTokens limit (tokens.map (Token.move f)) = .ok tree ↔
      Expr.ofTokens limit tokens = .ok tree := by
  rw [ofTokens_move f tokens ended limit]
  cases Expr.ofTokens limit tokens with
  | error error => simp [Except.mapError]
  | ok read => simp [Except.mapError]

/-- A phrase can be moved; its levels are needed wherever it stands. -/
theorem Derivation.exists_move (f : Nat → Nat) (phrase : Derivation .expression) :
    ∃ moved : Derivation .expression, moved.tokens = phrase.tokens.map (Token.move f) ∧
      moved.tree = phrase.tree ∧ moved.cost = phrase.cost := by
  obtain ⟨tokens, is⟩ : ∃ tokens, tokens = phrase.tokens ++ [Token.atEnd 0] := ⟨_, rfl⟩
  have ended : tokens.any Token.isFinish = true := by
    rw [is, List.any_append, Bool.or_eq_true]
    exact Or.inr rfl
  have derived : phrase.tokens = body tokens := by
    rw [is, phrase.body_tokens_append (Token.atEnd 0) [] rfl]
  have accepted := ofTokens_of_cost_le tokens phrase derived phrase.cost (Nat.le_refl _)
  obtain ⟨moved, covers, same, enough⟩ := (ofTokens_eq_ok_iff _ _ _).mp
    ((ofTokens_move_eq_ok_iff f tokens ended phrase.cost phrase.tree).mpr accepted)
  refine ⟨moved, by rw [covers, body_move, ← derived], same, Nat.le_antisymm enough ?_⟩
  -- The moved tokens are accepted under the cost of the moved phrase, hence the others are too.
  have backward := ofTokens_of_cost_le _ moved covers moved.cost (Nat.le_refl _)
  have again := (ofTokens_move_eq_ok_iff f tokens ended moved.cost moved.tree).mp backward
  by_contra short
  obtain ⟨_, _, _, token, _, _, _, _, fails⟩ :=
    ofTokens_of_lt_cost tokens phrase derived moved.cost (Nat.lt_of_not_le short)
  rw [again] at fails
  cases fails

/-- What a token list fails with points to one of its tokens, unless there is none. -/
theorem pointsTo_of_error (tokens : List Token) (limit : Nat) (error : SyntaxError)
    (fails : Expr.ofTokens limit tokens = .error error) (ordinary : error ≠ .empty) :
    ∃ (index : Nat) (token : Token), (closed tokens)[index]? = some token ∧
      error.PointsTo token := by
  obtain ⟨front, token, rest, closes, points, -⟩ :=
    ofTokens_error_behind tokens limit error fails ordinary
  refine ⟨front.length, token, ?_, points⟩
  rw [closes, List.getElem?_append_right (Nat.le_refl _), Nat.sub_self]
  rfl

end Grammar

/-! ## Token lists with the same kinds and texts -/

namespace Token

/-- What a token says, wherever it stands. -/
def word (token : Token) : Kind × String := (token.kind, token.text)

def words (tokens : List Token) : List (Kind × String) := tokens.map word

def numbered (words : List (Kind × String)) : List Token :=
  words.mapIdx fun index word => ⟨word.1, word.2, index⟩

def positionAt (tokens : List Token) (index : Nat) : Nat :=
  (tokens[index]?.map Token.position).getD 0

theorem numbered_move (tokens : List Token) :
    (numbered (words tokens)).map (move (positionAt tokens)) = tokens := by
  apply List.ext_getElem?
  intro index
  simp only [numbered, words, List.getElem?_map, List.getElem?_mapIdx]
  cases found : tokens[index]? with
  | none => rfl
  | some token => simp [move, word, positionAt, found]

theorem words_move (f : Nat → Nat) (tokens : List Token) :
    words (tokens.map (move f)) = words tokens := by
  simp only [words, List.map_map]
  rfl

theorem any_isFinish_move (f : Nat → Nat) (tokens : List Token) :
    (tokens.map (move f)).any isFinish = tokens.any isFinish := by
  rw [List.any_map]
  rfl

end Token

/-- The same error for two token lists: what it points to has the same index in both. -/
inductive SyntaxError.Corresponds (tokens other : List Token) : SyntaxError → SyntaxError → Prop
    where
  | empty : Corresponds tokens other .empty .empty
  | unexpected (index : Nat) (found found' : Token) (expected : Expected)
    (here : tokens[index]? = some found) (there : other[index]? = some found') :
    Corresponds tokens other (.unexpected found expected) (.unexpected found' expected)
  | trailing (index : Nat) (found found' : Token) (here : tokens[index]? = some found)
    (there : other[index]? = some found') :
    Corresponds tokens other (.trailing found) (.trailing found')
  | tooDeep (index : Nat) (token token' : Token) (limit : Nat)
    (here : tokens[index]? = some token) (there : other[index]? = some token') :
    Corresponds tokens other (.tooDeep token.position limit) (.tooDeep token'.position limit)

namespace Grammar

theorem corresponds_of_pointsTo (tokens : List Token) (f g : Nat → Nat) (index : Nat)
    (token : Token) (there : tokens[index]? = some token) (error : SyntaxError)
    (points : error.PointsTo token) :
    SyntaxError.Corresponds (tokens.map (Token.move f)) (tokens.map (Token.move g))
      (error.move f) (error.move g) := by
  have moved : ∀ h : Nat → Nat, (tokens.map (Token.move h))[index]? = some (token.move h) := by
    intro h
    rw [List.getElem?_map, there]
    rfl
  cases error with
  | empty => exact points.elim
  | unexpected found expected =>
    obtain rfl : found = token := points
    exact .unexpected index _ _ expected (moved f) (moved g)
  | trailing found =>
    obtain rfl : found = token := points
    exact .trailing index _ _ (moved f) (moved g)
  | tooDeep position limit =>
    obtain rfl : position = token.position := points
    exact .tooDeep index _ _ limit (moved f) (moved g)

theorem ofTokens_of_words (tokens other : List Token)
    (same : Token.words tokens = Token.words other) (ended : tokens.any Token.isFinish = true)
    (limit : Nat) :
    (∃ tree, Expr.ofTokens limit tokens = .ok tree ∧ Expr.ofTokens limit other = .ok tree) ∨
    ∃ error error', Expr.ofTokens limit tokens = .error error ∧
      Expr.ofTokens limit other = .error error' ∧ error.Corresponds tokens other error' := by
  obtain ⟨plain, is⟩ : ∃ plain, plain = Token.numbered (Token.words tokens) := ⟨_, rfl⟩
  have first : plain.map (Token.move (Token.positionAt tokens)) = tokens := by
    rw [is, Token.numbered_move]
  have second : plain.map (Token.move (Token.positionAt other)) = other := by
    rw [is, same, Token.numbered_move]
  have plainEnded : plain.any Token.isFinish = true := by
    rw [← Token.any_isFinish_move (Token.positionAt tokens), first, ended]
  have outcome := ofTokens_move (Token.positionAt tokens) plain plainEnded limit
  have outcome' := ofTokens_move (Token.positionAt other) plain plainEnded limit
  rw [first] at outcome
  rw [second] at outcome'
  cases reading : Expr.ofTokens limit plain with
  | ok tree =>
    rw [reading] at outcome outcome'
    exact Or.inl ⟨tree, outcome, outcome'⟩
  | error error =>
    rw [reading] at outcome outcome'
    refine Or.inr ⟨_, _, outcome, outcome', ?_⟩
    by_cases nothing : error = .empty
    · subst nothing
      exact .empty
    · obtain ⟨index, token, there, points⟩ := pointsTo_of_error plain limit error reading nothing
      rw [closed, if_pos plainEnded] at there
      have corresponds := corresponds_of_pointsTo plain (Token.positionAt tokens)
        (Token.positionAt other) index token there error points
      rwa [first, second] at corresponds

end Grammar

end Formula
