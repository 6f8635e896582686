import Formula.Proofs.Calculation.Composition
import Formula.Proofs.Grammar.Leaves
import Formula.Proofs.Token.Literal

/-!
# The numbers of a text

Every literal that a scan finds is read as a number without a minus sign, possibly an infinite one.
So no token of a text is ever refused as an invalid number, and the numbers of its tree, the two
constants among them, carry no minus sign.
-/

set_option autoImplicit false

namespace Formula

open Token Grammar Binary64

namespace Grammar

/-! ## Tokens that are refused as numbers -/

theorem Blocked.of_validNumber {limit room : Nat} {token found : Token} {missing : Expected}
    (blocked : Blocked limit token missing room (.unexpected found .validNumber)) :
    found = token ∧ refusal? token = some .validNumber := by
  cases blocked with
  | operand room expected refused => exact ⟨rfl, refused⟩
  | closing room close closes other ends =>
    rcases closes with same | ⟨function, same⟩ <;> cases same

theorem unread_of_refusal (token : Token) (refused : refusal? token = some .validNumber) :
    token.kind = .number ∧ Decimal.read? token.text = none := by
  unfold refusal? at refused
  split at refused
  · rename_i number
    split at refused
    · cases refused
    · rename_i unread
      exact ⟨number, Option.not_isSome_iff_eq_none.mp unread⟩
  all_goals cases refused

/-- What is refused as an invalid number is a number token whose text cannot be read. -/
theorem unread_of_validNumber (tokens : List Token) (limit : Nat) (found : Token)
    (fails : Expr.ofTokens limit tokens = .error (.unexpected found .validNumber)) :
    found ∈ body tokens ∧ found.kind = .number ∧ Decimal.read? found.text = none := by
  rcases ofTokens_error_cases tokens limit _ fails with
    ⟨-, empty⟩ | ⟨-, stub, rest, split, stops⟩ | ⟨_, _, _, _, _, _, trails⟩
  · cases empty
  · obtain ⟨rfl, refused⟩ := stops.blocked.of_validNumber
    obtain ⟨number, unread⟩ := unread_of_refusal _ refused
    refine ⟨?_, number, unread⟩
    cases rest with
    | nil =>
      rw [next, finish_kind] at number
      cases number
    | cons token rest =>
      rw [split]
      exact List.mem_append_right _ List.mem_cons_self
  · cases trails

end Grammar

/-- Only an invalid number is reported in these words. -/
theorem Expected.eq_validNumber (expected : Expected)
    (words : expected.describe = "a valid number") : expected = .validNumber := by
  cases expected with
  | validNumber => rfl
  | operand => exact absurd words (by decide)
  | opening function => cases function <;> exact absurd words (by decide)
  | closing function => cases function <;> exact absurd words (by decide)
  | groupEnd => exact absurd words (by decide)

namespace Calculation

/-! ## Literals and numbers -/

theorem read?_unsigned (text : String) (tokens : List Token) (scanned : tokenize text = .ok tokens)
    (token : Token) (member : token ∈ tokens) (number : token.kind = .number) :
    ∃ value, Decimal.read? token.text = some value ∧ Unsigned value := by
  have proper : token.isFinish = false := beq_false_of_ne (by rw [number]; decide)
  obtain ⟨rest, lexeme⟩ := lexeme_of_tokenize text tokens scanned token member proper
  rw [number] at lexeme
  exact ⟨_, read?_literal token rest lexeme,
    unsigned_ofMagnitude _ (Decimal.magnitude_le_infinite _)⟩

/-- A number in a tree comes from a token that is read as it, or is a constant. -/
theorem unsigned_leaf (token : Token) (value : Float) (reads : leaf? token = some (.number value))
    (literal : token.kind = .number →
      ∃ value, Decimal.read? token.text = some value ∧ Unsigned value) : Unsigned value := by
  unfold leaf? at reads
  split at reads
  · rename_i number
    obtain ⟨other, found, unsigned⟩ := literal number
    rw [found] at reads
    cases reads
    exact unsigned
  · cases reads
    exact unsigned_of_bounded _ (by decide)
  · cases reads
    exact unsigned_of_bounded _ (by decide)
  · cases reads
  · cases reads

/-- The numbers that a text writes are read, and none of them has a minus sign. -/
theorem numbers_of_text_unsigned (text : String) (tokens : List Token)
    (scanned : tokenize text = .ok tokens) :
    (∀ token ∈ tokens, token.kind = .number →
      ∃ value, Decimal.read? token.text = some value ∧ Unsigned value) ∧
    (∀ limit found expected,
      Expr.ofTokens limit tokens = .error (.unexpected found expected) →
        expected.describe ≠ "a valid number") ∧
    ∀ limit tree, Expr.ofTokens limit tokens = .ok tree →
      ∀ value, .number value ∈ tree.leaves → Unsigned value := by
  have literals := read?_unsigned text tokens scanned
  have inside : ∀ token ∈ body tokens, token ∈ tokens := fun token early =>
    (List.takeWhile_prefix _).subset early
  refine ⟨literals, ?_, ?_⟩
  · intro limit found expected fails words
    rw [expected.eq_validNumber words] at fails
    obtain ⟨early, number, unread⟩ := unread_of_validNumber tokens limit found fails
    obtain ⟨value, reads, -⟩ := literals found (inside found early) number
    rw [unread] at reads
    cases reads
  · intro limit tree reading value member
    rw [leaves_of_ofTokens tokens limit tree reading] at member
    obtain ⟨token, early, reads⟩ := List.mem_filterMap.mp member
    exact unsigned_leaf token value reads (literals token (inside token early))

/-- The literal without a whole part is the number of the tree. -/
theorem quarter_of_product_unsigned :
    tokenize ".25*x" = .ok [⟨.number, ".25", 0⟩, ⟨.times, "*", 3⟩, ⟨.var, "x", 4⟩, atEnd 5] ∧
    (∃ value, Decimal.read? ".25" = some value ∧ Unsigned value) ∧
    Expr.ofTokens 2 [⟨.number, ".25", 0⟩, ⟨.times, "*", 3⟩, ⟨.var, "x", 4⟩, atEnd 5] =
      .ok (.binary .mul (.number (Float.ofBits 0x3fd0000000000000)) (.var "x")) ∧
    Unsigned (Float.ofBits 0x3fd0000000000000) := by
  have scanned : tokenize ".25*x" =
      .ok [⟨.number, ".25", 0⟩, ⟨.times, "*", 3⟩, ⟨.var, "x", 4⟩, atEnd 5] := by decide +kernel
  have reading : Expr.ofTokens 2 [⟨.number, ".25", 0⟩, ⟨.times, "*", 3⟩, ⟨.var, "x", 4⟩, atEnd 5] =
      .ok (.binary .mul (.number (Float.ofBits 0x3fd0000000000000)) (.var "x")) := by
    decide +kernel
  obtain ⟨literals, -, numbers⟩ := numbers_of_text_unsigned ".25*x" _ scanned
  exact ⟨scanned, literals ⟨.number, ".25", 0⟩ List.mem_cons_self rfl, reading,
    numbers 2 _ reading _ List.mem_cons_self⟩

end Calculation

end Formula
