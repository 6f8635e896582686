import Formula.Calculation
import Formula.Proofs.Grammar.Position

/-!
# Layout

Blanks between the lexemes of a text may be put in and exchanged: the tokens keep their kinds and
texts, and only their positions change. The main statement adds what follows for the meaning: texts
whose tokens have the same kinds and texts have the same tree and the same value, or fail in the
same way at the same token.
-/

set_option autoImplicit false

namespace Formula

open Character

namespace Token

/-! ## Blanks between lexemes -/

structure Scan.Alike (scan other : Scan) : Prop where
  words : Token.words scan.tokens = Token.words other.tokens
  failure : scan.failure = none ↔ other.failure = none

theorem scan_alike (cs : List Char) (position other : Nat) :
    (scan position cs).Alike (scan other cs) := by
  have moved := scan_move position 0 cs
  have moved' := scan_move other 0 cs
  rw [Nat.zero_add] at moved moved'
  rw [moved, moved']
  refine ⟨?_, ?_⟩
  · simp only [Scan.move, words_move]
  · simp only [Scan.move, Option.map_eq_none_iff]

theorem Scan.Alike.followedBy {second other : Scan} (alike : second.Alike other) (first : Scan) :
    (first.followedBy second).Alike (first.followedBy other) := by
  obtain ⟨tokens, failure⟩ := first
  cases failure with
  | some error => exact ⟨rfl, Iff.rfl⟩
  | none =>
    refine ⟨?_, alike.failure⟩
    have same := alike.words
    simp only [Token.words] at same
    simp only [Scan.followedBy, Scan.prepend, Token.words, List.map_append, same]

theorem scan_blanks_between (before blanks behind : List Char) (nonempty : blanks ≠ [])
    (blank : ∀ c ∈ blanks, isBlank c = true) (position : Nat) :
    scan position (before ++ (blanks ++ behind)) =
      (scan position before).followedBy
        (scan (position + before.length + blanks.length) behind) := by
  rw [scan_append before _ (apart_blanks blanks behind nonempty blank), scan_blanks _ _ blank]

theorem alike_of_blanks (before behind blanks : List Char) (nonempty : blanks ≠ [])
    (blank : ∀ c ∈ blanks, isBlank c = true) (scan' : Scan) (other : Nat)
    (split : scan' = (scan 0 before).followedBy (scan other behind)) :
    (scan 0 (before ++ (blanks ++ behind))).Alike scan' := by
  rw [split, scan_blanks_between before blanks behind nonempty blank]
  exact (scan_alike behind _ other).followedBy (scan 0 before)

theorem tokenize_of_alike (text : String) (scan' : Scan) (tokens : List Token)
    (success : scan' = ⟨tokens, none⟩) (alike : (scan 0 text.toList).Alike scan') :
    ∃ tokens', tokenize text = .ok tokens' ∧ words tokens = words tokens' := by
  subst success
  refine ⟨(scan 0 text.toList).tokens, ?_, alike.words.symm⟩
  rw [tokenize_eq_ok_iff, ← alike.failure.mpr rfl]

/-- Blanks may be put in front of a text, behind it, and at every place that is inside no token. -/
theorem tokenize_insert_blanks (before blanks behind : String) (nonempty : blanks ≠ "")
    (blank : ∀ c ∈ blanks.toList, isBlank c = true) (tokens : List Token)
    (success : tokenize (before ++ behind) = .ok tokens)
    (place : before = "" ∨ behind = "" ∨ Between before.length tokens) :
    ∃ tokens', tokenize (before ++ blanks ++ behind) = .ok tokens' ∧
      words tokens = words tokens' := by
  have scanned := (tokenize_eq_ok_iff _ tokens).mp success
  rw [String.toList_append] at scanned
  have split : scan 0 (before.toList ++ behind.toList) =
      (scan 0 before.toList).followedBy (scan (0 + before.toList.length) behind.toList) := by
    rcases place with rfl | rfl | between
    · exact (scan_cut_in_front _ 0).2
    · exact scan_append _ _ apart_nil 0
    · refine (scan_cut _ _ 0 (by rw [scanned]) ?_).2
      rwa [scanned, Nat.zero_add, String.length_toList]
  apply tokenize_of_alike _ _ tokens scanned
  rw [String.toList_append, String.toList_append, List.append_assoc]
  exact alike_of_blanks _ _ _ (by simpa using nonempty) blank _ _ split

/-- Blanks between lexemes may be exchanged for others. -/
theorem tokenize_replace_blanks (before old blanks behind : String) (nonemptyOld : old ≠ "")
    (blankOld : ∀ c ∈ old.toList, isBlank c = true) (nonempty : blanks ≠ "")
    (blank : ∀ c ∈ blanks.toList, isBlank c = true) (tokens : List Token)
    (success : tokenize (before ++ old ++ behind) = .ok tokens) :
    ∃ tokens', tokenize (before ++ blanks ++ behind) = .ok tokens' ∧
      words tokens = words tokens' := by
  have scanned := (tokenize_eq_ok_iff _ tokens).mp success
  rw [String.toList_append, String.toList_append, List.append_assoc] at scanned
  apply tokenize_of_alike _ _ tokens scanned
  rw [String.toList_append, String.toList_append, List.append_assoc]
  exact alike_of_blanks _ _ _ (by simpa using nonempty) blank _ _
    (scan_blanks_between _ _ _ (by simpa using nonemptyOld) blankOld 0)

end Token

/-! ## Meaning -/

/-- Outcomes for two texts with the given tokens that are the same but for the positions that a
syntax error names. -/
inductive SameOutcome {Value : Type} (tokens other : List Token) :
    Except Failure Value → Except Failure Value → Prop where
  | success (value : Value) : SameOutcome tokens other (.ok value) (.ok value)
  | evaluation (error : EvaluationError) :
    SameOutcome tokens other (.error (.evaluation error)) (.error (.evaluation error))
  | syntactic (error error' : SyntaxError) (corresponds : error.Corresponds tokens other error') :
    SameOutcome tokens other (.error (.syntactic error)) (.error (.syntactic error'))

namespace Calculation

theorem ofText_of_words (text text' : String) (tokens tokens' : List Token)
    (scanned : tokenize text = .ok tokens) (scanned' : tokenize text' = .ok tokens')
    (same : Token.words tokens = Token.words tokens') (limit : Nat) :
    SameOutcome tokens tokens' (Expr.ofText limit text) (Expr.ofText limit text') := by
  have ended := Token.any_isFinish_of_tokenize text tokens scanned
  simp only [Expr.ofText, scanned, scanned']
  rcases Grammar.ofTokens_of_words tokens tokens' same ended limit with
    ⟨tree, reads, reads'⟩ | ⟨error, error', fails, fails', corresponds⟩
  · rw [reads, reads']
    exact .success tree
  · rw [fails, fails']
    exact .syntactic error error' corresponds

theorem calculate_of_sameOutcome (env : Environment) (text text' : String)
    (tokens tokens' : List Token)
    (reading : SameOutcome tokens tokens' (Expr.ofText Expr.defaultLimit text)
      (Expr.ofText Expr.defaultLimit text')) :
    SameOutcome tokens tokens' (calculate env text) (calculate env text') := by
  unfold calculate
  generalize Expr.ofText Expr.defaultLimit text = outcome at reading ⊢
  generalize Expr.ofText Expr.defaultLimit text' = outcome' at reading ⊢
  cases reading with
  | success tree =>
    dsimp only
    cases tree.eval env with
    | ok value => exact .success value
    | error error => exact .evaluation error
  | evaluation error => exact .evaluation error
  | syntactic error error' corresponds => exact .syntactic error error' corresponds

/-- Where the tokens of a text stand does not matter, and blanks between them may be put in and
exchanged. -/
theorem layout_keeps_meaning (text : String) (tokens : List Token)
    (scanned : tokenize text = .ok tokens) :
    (∀ text' tokens', tokenize text' = .ok tokens' → Token.words tokens = Token.words tokens' →
      (∀ limit, SameOutcome tokens tokens' (Expr.ofText limit text) (Expr.ofText limit text')) ∧
      ∀ env, SameOutcome tokens tokens' (calculate env text) (calculate env text')) ∧
    (∀ before blanks behind, text = before ++ behind → blanks ≠ "" →
      (∀ c ∈ blanks.toList, Character.isBlank c = true) →
      before = "" ∨ behind = "" ∨ Token.Between before.length tokens →
      ∃ tokens', tokenize (before ++ blanks ++ behind) = .ok tokens' ∧
        Token.words tokens = Token.words tokens') ∧
    ∀ before old blanks behind, text = before ++ old ++ behind → old ≠ "" →
      (∀ c ∈ old.toList, Character.isBlank c = true) → blanks ≠ "" →
      (∀ c ∈ blanks.toList, Character.isBlank c = true) →
      ∃ tokens', tokenize (before ++ blanks ++ behind) = .ok tokens' ∧
        Token.words tokens = Token.words tokens' := by
  refine ⟨?_, ?_, ?_⟩
  · intro text' tokens' scanned' same
    have reading := ofText_of_words text text' tokens tokens' scanned scanned' same
    exact ⟨reading, fun env => calculate_of_sameOutcome env _ _ _ _ (reading Expr.defaultLimit)⟩
  · rintro before blanks behind rfl nonempty blank place
    exact Token.tokenize_insert_blanks before blanks behind nonempty blank tokens scanned place
  · rintro before old blanks behind rfl nonemptyOld blankOld nonempty blank
    exact Token.tokenize_replace_blanks before old blanks behind nonemptyOld blankOld nonempty blank
      tokens scanned

/-- A blank between the factors of `2x- 1` and a line break behind its sign. -/
theorem product_without_sign_spaced :
    tokenize "2x- 1" = .ok [⟨.number, "2", 0⟩, ⟨.var, "x", 1⟩, ⟨.minus, "-", 2⟩,
      ⟨.number, "1", 4⟩, Token.atEnd 5] ∧
    tokenize "2 x-\n 1" = .ok [⟨.number, "2", 0⟩, ⟨.var, "x", 2⟩, ⟨.minus, "-", 3⟩,
      ⟨.number, "1", 6⟩, Token.atEnd 7] ∧
    ∀ limit, SameOutcome
      [⟨.number, "2", 0⟩, ⟨.var, "x", 1⟩, ⟨.minus, "-", 2⟩, ⟨.number, "1", 4⟩, Token.atEnd 5]
      [⟨.number, "2", 0⟩, ⟨.var, "x", 2⟩, ⟨.minus, "-", 3⟩, ⟨.number, "1", 6⟩, Token.atEnd 7]
      (Expr.ofText limit "2x- 1") (Expr.ofText limit "2 x-\n 1") := by
  have scanned : tokenize "2x- 1" = .ok [⟨.number, "2", 0⟩, ⟨.var, "x", 1⟩, ⟨.minus, "-", 2⟩,
      ⟨.number, "1", 4⟩, Token.atEnd 5] := by decide +kernel
  have scanned' : tokenize "2 x-\n 1" = .ok [⟨.number, "2", 0⟩, ⟨.var, "x", 2⟩, ⟨.minus, "-", 3⟩,
      ⟨.number, "1", 6⟩, Token.atEnd 7] := by decide +kernel
  obtain ⟨meaning, -, -⟩ := layout_keeps_meaning "2x- 1" _ scanned
  exact ⟨scanned, scanned', (meaning "2 x-\n 1" _ scanned' rfl).1⟩

end Calculation

end Formula
