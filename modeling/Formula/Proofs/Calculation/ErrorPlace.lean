import Formula.Proofs.Calculation.Composition
import Formula.Proofs.Token.Cut

/-!
# Where a syntax error is in the text

A syntax error names a token of the text, and its position is the number of characters in front of
the token: there the text of the token stands. What stands in front of a trailing token is a formula
as a text of its own.
-/

set_option autoImplicit false

namespace Formula

open Token Grammar

def SyntaxError.position? : SyntaxError → Option Nat
  | .empty => none
  | .unexpected found _ => some found.position
  | .trailing found => some found.position
  | .tooDeep position _ => some position

def SyntaxError.found? : SyntaxError → Option Token
  | .empty => none
  | .unexpected found _ => some found
  | .trailing found => some found
  | .tooDeep _ _ => none

theorem SyntaxError.PointsTo.position {error : SyntaxError} {token : Token}
    (points : error.PointsTo token) : error.position? = some token.position := by
  cases error with
  | empty => exact points.elim
  | unexpected found expected => exact congrArg (fun found => some found.position) points
  | trailing found => exact congrArg (fun found => some found.position) points
  | tooDeep position limit => exact congrArg some points

theorem SyntaxError.PointsTo.found {error : SyntaxError} {token : Token}
    (points : error.PointsTo token) (found : Token) (names : error.found? = some found) :
    found = token := by
  cases error with
  | unexpected found' expected => exact (Option.some.inj names).symm.trans points
  | trailing found' => exact (Option.some.inj names).symm.trans points
  | empty => cases names
  | tooDeep position limit => cases names

namespace Calculation

theorem ofText_of_tokens (limit : Nat) (text : String) (tokens : List Token)
    (scanned : tokenize text = .ok tokens) (error : SyntaxError) :
    Expr.ofText limit text = .error (.syntactic error) ↔
      Expr.ofTokens limit tokens = .error error := by
  simp only [Expr.ofText, scanned]
  cases Expr.ofTokens limit tokens <;> simp

theorem closed_of_tokenize (text : String) (tokens : List Token)
    (scanned : tokenize text = .ok tokens) : closed tokens = tokens := by
  rw [closed, if_pos (any_isFinish_of_tokenize text tokens scanned)]

theorem syntax_error_in_text (limit : Nat) (text : String) (tokens : List Token)
    (scanned : tokenize text = .ok tokens) :
    (Expr.ofText limit text = .error (.syntactic .empty) ↔
      ∀ c ∈ text.toList, Character.isBlank c = true) ∧
    ∀ failure, Expr.ofText limit text = .error failure →
      ∃ error, failure = .syntactic error ∧
        (error ≠ .empty → ∃ token ∈ tokens, ∃ before behind : String,
          error.position? = some token.position ∧ token.position ≤ text.length ∧
          (∀ found, error.found? = some found → found = token) ∧
          before ++ token.text ++ behind = text ∧ before.length = token.position ∧
          (token.position = text.length ↔ token.kind = .finish) ∧
          ∀ found, error = .trailing found → ∃ tree, Expr.ofText limit before = .ok tree) := by
  refine ⟨?_, ?_⟩
  · rw [ofText_of_tokens limit text tokens scanned, ofTokens_eq_empty_iff,
      body_eq_nil_iff text tokens scanned]
  · intro failure fails
    cases reading : Expr.ofTokens limit tokens with
    | ok tree =>
      simp only [Expr.ofText, scanned, reading] at fails
      cases fails
    | error error =>
      simp only [Expr.ofText, scanned, reading, Except.error.injEq] at fails
      refine ⟨error, fails.symm, ?_⟩
      intro ordinary
      obtain ⟨front, token, rest, closes, points, formula⟩ :=
        ofTokens_error_behind tokens limit error reading ordinary
      rw [closed_of_tokenize text tokens scanned] at closes
      obtain ⟨before, behind, cut⟩ := exists_cut text front rest token (closes ▸ scanned)
      refine ⟨token, by rw [closes]; simp, before, behind, points.position, ?_, points.found,
        cut.whole, cut.place, cut.last, ?_⟩
      · rw [← cut.place, ← cut.whole, String.length_append, String.length_append]
        omega
      · intro found trails
        -- The cut text has an end of its own, right behind the tokens that are a formula.
        obtain ⟨tree, reads⟩ := formula found trails
        exact ⟨tree, (ofText_eq_ok_iff limit before tree).mpr ⟨_, cut.scanned, reads _⟩⟩

/-- The number behind the group is trailing, and the group is a formula. -/
theorem number_behind_group_trails :
    tokenize "(1+2) 3" = .ok [⟨.leftParen, "(", 0⟩, ⟨.number, "1", 1⟩, ⟨.plus, "+", 2⟩,
      ⟨.number, "2", 3⟩, ⟨.rightParen, ")", 4⟩, ⟨.number, "3", 6⟩, atEnd 7] ∧
    Expr.ofText 256 "(1+2) 3" = .error (.syntactic (.trailing ⟨.number, "3", 6⟩)) ∧
    ∃ before behind : String, before ++ "3" ++ behind = "(1+2) 3" ∧ before.length = 6 ∧
      ∃ tree, Expr.ofText 256 before = .ok tree := by
  have scanned : tokenize "(1+2) 3" = .ok [⟨.leftParen, "(", 0⟩, ⟨.number, "1", 1⟩,
      ⟨.plus, "+", 2⟩, ⟨.number, "2", 3⟩, ⟨.rightParen, ")", 4⟩, ⟨.number, "3", 6⟩, atEnd 7] := by
    decide +kernel
  have rejected : Expr.ofText 256 "(1+2) 3" =
      .error (.syntactic (.trailing ⟨.number, "3", 6⟩)) := by decide +kernel
  obtain ⟨-, located⟩ := syntax_error_in_text 256 "(1+2) 3" _ scanned
  obtain ⟨error, same, place⟩ := located _ rejected
  cases same
  obtain ⟨token, -, before, behind, -, -, found, whole, starts, -, formula⟩ := place (by simp)
  obtain rfl := found _ rfl
  exact ⟨scanned, rejected, before, behind, whole, starts, formula _ rfl⟩

end Calculation

end Formula
