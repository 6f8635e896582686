import Formula.Proofs.Token.Concatenation

/-!
# Texts with a separator between them

A run of blanks or a single symbol keeps two texts apart, whatever the first one ends with and the
second one starts with. The main statement says that the tokens of the whole are those of the first
text without its end, the symbol, and those of the second text, and that the first of the two texts
that has an error gives its error to the whole.
-/

set_option autoImplicit false

namespace Formula.Token

open Character Grammar

inductive Separator where
  | blanks (run : List Char) (nonempty : run ≠ []) (blank : ∀ c ∈ run, isBlank c = true)
  /-- An operator or a parenthesis. -/
  | symbol (c : Char) (kind : Kind) (is : Kind.ofSymbol? c = some kind)

namespace Separator

def text : Separator → String
  | blanks run _ _ => String.ofList run
  | symbol c _ _ => String.singleton c

def tokens (position : Nat) : Separator → List Token
  | blanks _ _ _ => []
  | symbol c kind _ => [⟨kind, String.singleton c, position⟩]

theorem apart (separator : Separator) (rest : List Char) :
    Apart (separator.text.toList ++ rest) := by
  cases separator with
  | blanks run nonempty blank =>
    rw [text, String.toList_ofList]
    exact apart_blanks run rest nonempty blank
  | symbol c kind is =>
    rw [text, String.toList_singleton]
    exact apart_of_symbol c rest kind is

theorem lexes (separator : Separator) (rest : List Char) (position : Nat) :
    Lexes separator.text.toList (separator.tokens position) rest position
      (position + separator.text.length) := by
  cases separator with
  | blanks run nonempty blank =>
    rw [text, String.toList_ofList, String.length_ofList]
    exact scan_blanks run rest blank position
  | symbol c kind is =>
    rw [text, String.toList_singleton, String.length_singleton]
    exact lexes_symbol c kind is rest position

end Separator

theorem scan_joined (a b : String) (separator : Separator) :
    scan 0 (a ++ separator.text ++ b).toList =
      (scan 0 a.toList).followedBy (((scan 0 b.toList).move
        (· + (a ++ separator.text).length)).prepend (separator.tokens a.length)) := by
  have between := separator.lexes b.toList a.length
  unfold Lexes at between
  rw [String.toList_append, String.toList_append, List.append_assoc,
    scan_append a.toList _ (separator.apart b.toList), Nat.zero_add, String.length_toList, between,
    ← String.length_append, ← scan_move, Nat.zero_add]

theorem body_eq_dropLast (text : String) (tokens : List Token)
    (success : tokenize text = .ok tokens) : body tokens = tokens.dropLast := by
  have split := congrArg List.dropLast (tokens_eq_body text tokens success)
  rw [List.dropLast_concat] at split
  exact split.symm

/-- The tokens and errors of the second text stand behind the first text and the separator. -/
theorem tokenize_joined (a b : String) (separator : Separator) :
    tokenize (a ++ separator.text ++ b) =
      match tokenize a, tokenize b with
      | .error error, _ => .error error
      | .ok _, .error error => .error (error.move (· + (a ++ separator.text).length))
      | .ok front, .ok behind =>
        .ok (front.dropLast ++ separator.tokens a.length ++
          behind.map (Token.move (· + (a ++ separator.text).length))) := by
  have joined := scan_joined a b separator
  cases first : tokenize a with
  | error error =>
    have fails := (tokenize_eq_error_iff a error).mp first
    apply (tokenize_eq_error_iff _ error).mpr
    simp only [joined, Scan.followedBy, fails]
  | ok front =>
    have scanned := (tokenize_eq_ok_iff a front).mp first
    rw [scanned] at joined
    cases second : tokenize b with
    | error error =>
      have fails := (tokenize_eq_error_iff b error).mp second
      apply (tokenize_eq_error_iff _ _).mpr
      simp only [joined, Scan.followedBy, Scan.prepend, Scan.move, fails, Option.map_some]
    | ok behind =>
      have scannedBehind := (tokenize_eq_ok_iff b behind).mp second
      apply (tokenize_eq_ok_iff _ _).mpr
      rw [joined, scannedBehind, ← body_eq_dropLast a front first, List.append_assoc]
      rfl

end Formula.Token
