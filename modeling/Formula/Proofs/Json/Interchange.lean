import Formula.Json.Interchange
import Formula.Proofs.Calculation.Composition
import Formula.Proofs.Grammar.Leaves
import Formula.Proofs.Token.Literal

/-!
# Expressions that pass through JSON

A tree comes back from its JSON value exactly if all its numbers are finite, provided that enough
levels of objects are allowed; a number that is not finite is lost. The numbers of a tree that is
read from a text are the constants and what its literals stand for. So the literals of a text
decide whether its tree survives.
-/

set_option autoImplicit false

namespace Formula

open Token Grammar

namespace Expr

/-! ## Trees and JSON values -/

/-- The levels of objects in the JSON value of a tree. -/
def jsonDepth : Expr → Nat
  | .number _ => 1
  | .var _ => 1
  | .neg operand => 2 + operand.jsonDepth
  | .binary _ left right => 2 + max left.jsonDepth right.jsonDepth
  | .call _ argument => 2 + argument.jsonDepth

attribute [local simp] ofJson?

theorem tag?_operator (op : Operator) :
    (Json.string op.tag).tag?.bind Operator.ofTag? = some op := by
  cases op <;> rfl

theorem tag?_function (function : Trig) :
    (Json.string function.tag).tag?.bind Trig.ofTag? = some function := by
  cases function <;> rfl

theorem ofJson?_number (levels : Nat) (value : Float) :
    ofJson? (levels + 1) (toJson (.number value)) =
      if Binary64.isFinite value then some (.number value) else none := by
  by_cases finite : Binary64.isFinite value = true <;>
    simp [toJson, Json.record, Json.case?, numberOfJson?, finite]

theorem ofJson?_var (levels : Nat) (name : String) :
    ofJson? (levels + 1) (toJson (.var name)) = some (.var name) := by
  simp [toJson, Json.record, Json.case?, Json.string?, Json.string]

theorem ofJson?_neg (levels : Nat) (operand : Expr) :
    ofJson? (levels + 2) (toJson (.neg operand)) = (ofJson? levels operand.toJson).map .neg := by
  have case : (toJson (.neg operand)).case? =
      some ("Unary", .record [("operand", operand.toJson)]) := rfl
  have parts : (Json.record [("operand", operand.toJson)]).fields? ["operand"] =
      some [operand.toJson] := rfl
  simp [case, parts]

theorem ofJson?_binary (levels : Nat) (op : Operator) (left right : Expr) :
    ofJson? (levels + 2) (toJson (.binary op left right)) =
      match ofJson? levels left.toJson, ofJson? levels right.toJson with
      | some left, some right => some (.binary op left right)
      | _, _ => none := by
  have case : (toJson (.binary op left right)).case? = some ("Binary",
      .record [("op", .string op.tag), ("left", left.toJson), ("right", right.toJson)]) := rfl
  have parts : (Json.record [("op", .string op.tag), ("left", left.toJson),
      ("right", right.toJson)]).fields? ["op", "left", "right"] =
        some [.string op.tag, left.toJson, right.toJson] := rfl
  cases first : ofJson? levels left.toJson with
  | none => simp [case, parts, tag?_operator, first]
  | some left =>
    cases second : ofJson? levels right.toJson <;>
      simp [case, parts, tag?_operator, first, second]

theorem ofJson?_call (levels : Nat) (function : Trig) (argument : Expr) :
    ofJson? (levels + 2) (toJson (.call function argument)) =
      (ofJson? levels argument.toJson).map (.call function) := by
  have case : (toJson (.call function argument)).case? = some ("Call",
      .record [("function", .string function.tag), ("arg", argument.toJson)]) := rfl
  have parts : (Json.record [("function", .string function.tag),
      ("arg", argument.toJson)]).fields? ["function", "arg"] =
        some [.string function.tag, argument.toJson] := rfl
  cases inner : ofJson? levels argument.toJson <;>
    simp [case, parts, tag?_function, inner]

/-- A tree with parts takes a level for its case and one for its parts, and is lost without. -/
theorem ofJson?_lost (tree : Expr) (deep : 2 ≤ tree.jsonDepth)
    (lost : ∀ room, ofJson? (room + 2) tree.toJson = none) (levels : Nat) :
    ofJson? levels tree.toJson = none := by
  match levels with
  | 0 => rw [ofJson?]
  | 1 =>
    cases tree with
    | number value => exact absurd deep (show ¬ 2 ≤ 1 by decide)
    | var name => exact absurd deep (show ¬ 2 ≤ 1 by decide)
    | _ => simp [toJson, Json.record, Json.case?]
  | room + 2 => exact lost room

theorem ofJson?_toJson (tree : Expr) (finite : tree.Finite) (levels : Nat)
    (enough : tree.jsonDepth ≤ levels) : ofJson? levels tree.toJson = some tree := by
  induction tree generalizing levels with
  | number value =>
    obtain ⟨room, rfl⟩ := Nat.exists_eq_add_of_le' enough
    have below : Binary64.isFinite value = true := finite
    rw [jsonDepth, ofJson?_number, if_pos below]
  | var name =>
    obtain ⟨room, rfl⟩ := Nat.exists_eq_add_of_le' enough
    rw [jsonDepth, ofJson?_var]
  | neg operand ih =>
    simp only [jsonDepth] at enough
    obtain ⟨room, rfl⟩ : ∃ room, levels = room + 2 := ⟨levels - 2, by omega⟩
    rw [ofJson?_neg, ih finite room (by omega), Option.map_some]
  | binary op left right leftIH rightIH =>
    simp only [jsonDepth] at enough
    obtain ⟨room, rfl⟩ : ∃ room, levels = room + 2 := ⟨levels - 2, by omega⟩
    rw [ofJson?_binary, leftIH finite.1 room (by omega), rightIH finite.2 room (by omega)]
  | call function argument ih =>
    simp only [jsonDepth] at enough
    obtain ⟨room, rfl⟩ : ∃ room, levels = room + 2 := ⟨levels - 2, by omega⟩
    rw [ofJson?_call, ih finite room (by omega), Option.map_some]

/-- No number of levels helps where a number is not finite. -/
theorem ofJson?_toJson_eq_none (tree : Expr) (lost : ¬ tree.Finite) (levels : Nat) :
    ofJson? levels tree.toJson = none := by
  induction tree generalizing levels with
  | number value =>
    cases levels with
    | zero => rw [ofJson?]
    | succ levels =>
      have beyond : ¬ Binary64.isFinite value = true := lost
      rw [ofJson?_number, if_neg beyond]
  | var name => exact absurd trivial lost
  | neg operand ih =>
    apply ofJson?_lost _ (Nat.le_add_right 2 _)
    intro room
    rw [ofJson?_neg, ih lost room, Option.map_none]
  | binary op left right leftIH rightIH =>
    apply ofJson?_lost _ (Nat.le_add_right 2 _)
    intro room
    rw [ofJson?_binary]
    by_cases first : left.Finite
    · rw [rightIH (fun second => lost ⟨first, second⟩) room]
      cases ofJson? room left.toJson <;> rfl
    · rw [leftIH first room]
  | call function argument ih =>
    apply ofJson?_lost _ (Nat.le_add_right 2 _)
    intro room
    rw [ofJson?_call, ih lost room, Option.map_none]

end Expr

/-! ## Trees that are read from texts -/

namespace Interchange

theorem finite_leaf_iff (token : Token) (leaf : Expr) (reads : leaf? token = some leaf)
    (lexeme : ∃ rest, Lexeme token.kind token.text.toList rest) :
    leaf.Finite ↔ (token.kind = .number → token.InRange) := by
  unfold leaf? at reads
  split at reads
  · rename_i number
    obtain ⟨rest, lexeme⟩ := lexeme
    rw [number] at lexeme
    rw [read?_literal token rest lexeme, Option.map_some] at reads
    cases reads
    rw [Expr.Finite, isFinite_literal_iff]
    exact ⟨fun inside _ => inside, fun inside => inside number⟩
  · rename_i constant
    cases reads
    have finite : Expr.pi.Finite := show Binary64.isFinite _ = true by decide
    exact ⟨fun _ number => absurd (constant.symm.trans number) (by decide), fun _ => finite⟩
  · rename_i constant
    cases reads
    have finite : Expr.euler.Finite := show Binary64.isFinite _ = true by decide
    exact ⟨fun _ number => absurd (constant.symm.trans number) (by decide), fun _ => finite⟩
  · rename_i named
    cases reads
    exact ⟨fun _ number => absurd (named.symm.trans number) (by decide), fun _ => trivial⟩
  · cases reads

theorem leaf?_of_number (token : Token) (number : token.kind = .number)
    (lexeme : ∃ rest, Lexeme token.kind token.text.toList rest) :
    leaf? token =
      some (.number (Decimal.toFloat false ⟨token.coefficient, -(token.places : Int)⟩)) := by
  obtain ⟨rest, lexeme⟩ := lexeme
  rw [number] at lexeme
  unfold leaf?
  rw [number, read?_literal token rest lexeme]
  rfl

/-- The literals of a text decide whether the numbers of its tree are finite. -/
theorem finite_iff_inRange (limit : Nat) (text : String) (tokens : List Token) (tree : Expr)
    (scanned : tokenize text = .ok tokens) (reading : Expr.ofTokens limit tokens = .ok tree) :
    tree.Finite ↔ ∀ token ∈ tokens, token.kind = .number → token.InRange := by
  have lexemes := lexeme_of_tokenize text tokens scanned
  have ended := tokens_eq_body text tokens scanned
  rw [Expr.finite_iff_leaves, leaves_of_ofTokens tokens limit tree reading]
  constructor
  · intro finite token member number
    have proper : token.isFinish = false := beq_false_of_ne (by rw [number]; decide)
    have early : token ∈ body tokens := by
      rw [ended] at member
      rcases List.mem_append.mp member with early | last
      · exact early
      · rw [List.mem_singleton.mp last] at number
        cases number
    have lexeme := lexemes token member proper
    have reads := leaf?_of_number token number lexeme
    have inside := finite _ (List.mem_filterMap.mpr ⟨token, early, reads⟩)
    exact (finite_leaf_iff token _ reads lexeme).mp inside number
  · intro inRange leaf member
    obtain ⟨token, early, reads⟩ := List.mem_filterMap.mp member
    have proper := body_not_finish tokens token early
    have member : token ∈ tokens := by
      rw [ended]
      exact List.mem_append_left _ early
    exact (finite_leaf_iff token leaf reads (lexemes token member proper)).mpr
      (inRange token member)

/-- A tree that is read from a text comes back from its JSON value exactly if every literal of the
text is below 2^1024 - 2^970. -/
theorem parsed_tree_interchanges (limit : Nat) (text : String) (tree : Expr)
    (accepted : Expr.ofText limit text = .ok tree) :
    ∃ tokens, tokenize text = .ok tokens ∧
      ((∀ token ∈ tokens, token.kind = .number → token.InRange) →
        ∀ levels, tree.jsonDepth ≤ levels → Expr.ofJson? levels tree.toJson = some tree) ∧
      ((∃ token ∈ tokens, token.kind = .number ∧ ¬ token.InRange) →
        ∀ levels, Expr.ofJson? levels tree.toJson = none) := by
  obtain ⟨tokens, scanned, reading⟩ :=
    (Calculation.ofText_eq_ok_iff limit text tree).mp accepted
  have decides := finite_iff_inRange limit text tokens tree scanned reading
  refine ⟨tokens, scanned, ?_, ?_⟩
  · intro inRange levels enough
    exact Expr.ofJson?_toJson tree (decides.mpr inRange) levels enough
  · rintro ⟨token, member, number, beyond⟩ levels
    apply Expr.ofJson?_toJson_eq_none
    intro finite
    exact beyond (decides.mp finite token member number)

def scaled : Expr := .binary .mul (.number (Float.ofBits 0x4004000000000000)) (.var "x")

theorem scaled_interchanges :
    Expr.ofText 256 "2.5*x" = .ok scaled ∧ Expr.ofJson? 127 scaled.toJson = some scaled := by
  have accepted : Expr.ofText 256 "2.5*x" = .ok scaled := by decide +kernel
  have scanned : tokenize "2.5*x" = .ok [⟨.number, "2.5", 0⟩, ⟨.times, "*", 3⟩, ⟨.var, "x", 4⟩,
      atEnd 5] := by decide +kernel
  obtain ⟨tokens, found, keeps, -⟩ := parsed_tree_interchanges 256 "2.5*x" scaled accepted
  obtain rfl := Except.ok.inj (scanned.symm.trans found)
  exact ⟨accepted, keeps (by decide +kernel) 127 (by decide)⟩

def overlong : Token := ⟨.number, String.ofList ('1' :: List.replicate 309 '0'), 0⟩

def infinity : Float := Float.ofBits 0x7ff0000000000000

theorem overlong_digits : Decimal.Digits overlong.text.toList := by
  rw [overlong, String.toList_ofList]
  exact Decimal.digits_append_zeros ['1'] (Decimal.digits_toDigits 1) 309

theorem overlong_beyond : ¬ overlong.InRange := by
  have spelled : overlong.text.toList = '1' :: List.replicate 309 '0' := String.toList_ofList
  have places : overlong.places = 0 := by
    rw [Token.places, spelled]
    decide +kernel
  rw [Token.InRange, places, Token.coefficient, List.filter_eq_self.mpr overlong_digits.2, spelled]
  decide +kernel

theorem overlong_lexeme : Lexeme .number overlong.text.toList [] :=
  .whole _ [] overlong_digits (Character.stops_nil _)

theorem overlong_leaf : leaf? overlong = some (.number infinity) := by
  rw [leaf?_of_number overlong rfl ⟨[], overlong_lexeme⟩,
    toFloat_of_not_inRange overlong overlong_beyond]
  rfl

theorem overlong_reads : Display.Reads overlong.text.toList [] (.number infinity) 1 := by
  intro position
  have lexes := lexes_lexeme .number _ [] overlong_lexeme position
  rw [String.ofList_toList] at lexes
  exact ⟨.leaf ⟨.number, overlong.text, position⟩ _ overlong_leaf, _, lexes, rfl, rfl⟩

/-- The literal is read as infinity, and its tree does not come back. -/
theorem overlong_literal_lost :
    Expr.ofText 256 overlong.text = .ok (.number infinity) ∧
      ∀ levels, Expr.ofJson? levels (Expr.number infinity).toJson = none := by
  constructor
  · exact Calculation.ofText_of_reads _ _ 1 256 overlong_reads.unary.expression (by decide)
  · apply Expr.ofJson?_toJson_eq_none
    exact show ¬ Binary64.isFinite infinity = true by decide

end Interchange

end Formula
