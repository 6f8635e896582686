import Formula.Proofs.Decimal.Overflow
import Formula.Proofs.Token.Segmentation

/-!
# Literals

A number among the tokens of a text is digits with at most one point, and it is read as the double
nearest to what they say. It is finite exactly below 2^1024 - 2^970.
-/

set_option autoImplicit false

namespace Formula

namespace Token

open Character Decimal

def coefficient (token : Token) : Nat :=
  Nat.ofDigitChars 10 (token.text.toList.filter Char.isDigit) 0

def places (token : Token) : Nat := ((token.text.toList.dropWhile (· != '.')).drop 1).length

/-- A literal below 2^1024 - 2^970. -/
def InRange (token : Token) : Prop :=
  token.coefficient < (2 ^ 54 - 1) * 2 ^ 970 * 10 ^ token.places

/-- What the text of a number looks like. -/
theorem Lexeme.numeral {kind : Kind} {text rest : List Char} (lexeme : Lexeme kind text rest)
    (is : kind = .number) :
    Digits text ∨ ∃ whole fraction, text = whole ++ '.' :: fraction ∧
      (∀ c ∈ whole, c.isDigit = true) ∧ Digits fraction := by
  cases lexeme with
  | symbol c kind rest symbol =>
    subst is
    exact absurd (by decide) (kind_of_symbol c .number symbol)
  | whole digits rest plain ends => exact Or.inl plain
  | point whole fraction rest before behind ends =>
    exact Or.inr ⟨whole, fraction, rfl, before, behind⟩
  | name c cs rest starts continues ends =>
    exact absurd (is ▸ Kind.ofName_mem _) (by decide)

theorem ne_point_of_isDigit (c : Char) (digit : c.isDigit = true) : (c != '.') = true := by
  apply bne_iff_ne.mpr
  rintro rfl
  cases digit

/-- A literal is read as the double nearest to its digits over a power of ten. -/
theorem read?_literal (token : Token) (rest : List Char)
    (lexeme : Lexeme .number token.text.toList rest) :
    Decimal.read? token.text =
      some (Decimal.toFloat false ⟨token.coefficient, -(token.places : Int)⟩) := by
  rcases lexeme.numeral rfl with plain | ⟨whole, fraction, split, before, behind⟩
  · obtain ⟨c, cs, starts, digit⟩ := (Numeral.whole _ plain).starts
    have noPoint : token.text.toList.dropWhile (· != '.') = [] := by
      apply List.dropWhile_eq_nil_iff.mpr
      exact fun c member => ne_point_of_isDigit c (plain.2 c member)
    rw [read?_of_starts token.text c cs starts (Or.inl digit), ofChars?_whole _ plain, coefficient,
      places, noPoint, List.filter_eq_self.mpr plain.2]
    rfl
  · have digits : token.text.toList.filter Char.isDigit = whole ++ fraction := by
      rw [split, List.filter_append, List.filter_cons_of_neg (by decide), 
        List.filter_eq_self.mpr before, List.filter_eq_self.mpr behind.2]
    have point : token.text.toList.dropWhile (· != '.') = '.' :: fraction := by
      rw [split]
      exact dropWhile_piece _ whole _ (fun c member => ne_point_of_isDigit c (before c member))
        (stops_cons _ _ _ (by decide))
    have starts : ∃ c cs, token.text.toList = c :: cs ∧ (c.isDigit = true ∨ c = '.') := by
      rw [split]
      cases whole with
      | nil => exact ⟨'.', fraction, rfl, Or.inr rfl⟩
      | cons c whole =>
        exact ⟨c, whole ++ '.' :: fraction, rfl, Or.inl (before c List.mem_cons_self)⟩
    obtain ⟨c, cs, starts, plain⟩ := starts
    rw [read?_of_starts token.text c cs starts plain, coefficient, places, digits, point, split,
      ofChars?_point whole fraction before behind]
    rfl

instance (token : Token) : Decidable token.InRange :=
  inferInstanceAs (Decidable (_ < _))

theorem isFinite_literal_iff (token : Token) :
    Binary64.isFinite (Decimal.toFloat false ⟨token.coefficient, -(token.places : Int)⟩) = true ↔
      token.InRange :=
  isFinite_toFloat_iff token.coefficient token.places

theorem toFloat_of_not_inRange (token : Token) (beyond : ¬ token.InRange) :
    Decimal.toFloat false ⟨token.coefficient, -(token.places : Int)⟩ =
      Binary64.ofMagnitude false Binary64.infinite := by
  have bounded := magnitude_le_infinite ⟨token.coefficient, -(token.places : Int)⟩
  have infinite := mt (magnitude_lt_infinite_iff token.coefficient token.places).mp beyond
  rw [toFloat, Nat.le_antisymm bounded (Nat.le_of_not_lt infinite)]

/-- Each token of a text but its end is a lexeme. -/
theorem lexeme_of_scan (position : Nat) (cs : List Char) :
    ∀ token ∈ (scan position cs).tokens, token.isFinish = false →
      ∃ rest, Lexeme token.kind token.text.toList rest := by
  induction position, cs using scan.induct with
  | case1 position =>
    rw [scan_nil]
    intro token member ordinary
    rw [List.mem_singleton.mp member] at ordinary
    cases ordinary
  | case2 position c cs blank ih =>
    rw [scan_blank blank]
    exact ih
  | case3 position c cs solid kind text rest read ih =>
    rw [scan_lexeme (by simpa using solid) read]
    intro token member ordinary
    rcases List.mem_cons.mp member with rfl | later
    · refine ⟨rest, ?_⟩
      rw [String.toList_ofList]
      exact lexeme_of_front read
    · exact ih token later ordinary
  | case4 position c cs solid offset read =>
    rw [scan_malformed (by simpa using solid) read]
    simp
  | case5 position c cs solid character read =>
    rw [scan_unknown (by simpa using solid) read]
    simp

theorem lexeme_of_tokenize (text : String) (tokens : List Token)
    (success : tokenize text = .ok tokens) :
    ∀ token ∈ tokens, token.isFinish = false →
      ∃ rest, Lexeme token.kind token.text.toList rest := by
  have lexemes := lexeme_of_scan 0 text.toList
  rw [(tokenize_eq_ok_iff text tokens).mp success] at lexemes
  exact lexemes

end Token

end Formula
