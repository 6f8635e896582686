import Formula.Proofs.Token.Lexeme

/-!
# Scanning a text piece by piece

A symbol, a blank, a name and a numeral are each taken off the front of a text whole, provided that
what stands behind a name does not continue it, and what stands behind a numeral neither.
-/

set_option autoImplicit false

namespace Formula.Token

open Character Decimal

/-! ## What stands at the front -/

/-- What stands behind a whole expression in the text of a larger one. -/
def Ends (rest : List Char) : Prop := ∀ c, rest.head? = some c → c = ' ' ∨ c = ')'

theorem Ends.stops (inside : Char → Bool) (blank : inside ' ' = false)
    (closing : inside ')' = false) (rest : List Char) (ends : Ends rest) : Stops inside rest := by
  intro c front
  rcases ends c front with rfl | rfl
  · exact blank
  · exact closing

/-! ## Pieces of a text -/

def Scan.prepend (tokens : List Token) (scan : Scan) : Scan :=
  { scan with tokens := tokens ++ scan.tokens }

/-- Scanning from `position` on, the piece in front of `rest` is the given tokens, and the scan
stands at `after` behind it. -/
def Lexes (piece : List Char) (tokens : List Token) (rest : List Char) (position after : Nat) :
    Prop :=
  scan position (piece ++ rest) = (scan after rest).prepend tokens

theorem Lexes.append {piece piece' rest : List Char} {tokens tokens' : List Token}
    {position middle after : Nat} (front : Lexes piece tokens (piece' ++ rest) position middle)
    (back : Lexes piece' tokens' rest middle after) :
    Lexes (piece ++ piece') (tokens ++ tokens') rest position after := by
  unfold Lexes at front back ⊢
  rw [List.append_assoc, front, back]
  simp only [Scan.prepend, List.append_assoc]

/-- A text that is all tokens splits into them and its end. -/
theorem Lexes.tokenize {text : String} {tokens : List Token} {after : Nat}
    (lexes : Lexes text.toList tokens [] 0 after) :
    Formula.tokenize text = .ok (tokens ++ [atEnd after]) := by
  unfold Lexes at lexes
  rw [List.append_nil, scan_nil] at lexes
  rw [Formula.tokenize, lexes]
  rfl

theorem lexes_blank (rest : List Char) (position : Nat) :
    Lexes [' '] [] rest position (position + 1) := by
  unfold Lexes
  exact scan_blank (by decide) position rest

theorem lexes_lexeme (kind : Kind) (text rest : List Char) (lexeme : Lexeme kind text rest)
    (position : Nat) :
    Lexes text [⟨kind, String.ofList text, position⟩] rest position (position + text.length) := by
  unfold Lexes
  exact scan_text lexeme position

theorem lexes_symbol (c : Char) (kind : Kind) (symbol : Kind.ofSymbol? c = some kind)
    (rest : List Char) (position : Nat) :
    Lexes [c] [⟨kind, String.ofList [c], position⟩] rest position (position + 1) :=
  lexes_lexeme kind [c] rest (.symbol c kind rest symbol) position

def IsName (name : String) : Prop :=
  ∃ c cs, name.toList = c :: cs ∧ startsName c = true ∧ ∀ d ∈ cs, continuesName d = true

theorem isName_of_letters (name : String) (c : Char) (cs : List Char)
    (spelled : name.toList = c :: cs) (letters : (c :: cs).all startsName = true) :
    IsName name := by
  have each := List.all_eq_true.mp letters
  refine ⟨c, cs, spelled, each c List.mem_cons_self, ?_⟩
  intro d member
  exact continuesName_of_startsName (each d (List.mem_cons_of_mem c member))

theorem lexes_name (name : String) (valid : IsName name) (rest : List Char)
    (stops : Stops continuesName rest) (position : Nat) :
    Lexes name.toList [⟨.ofName name, name, position⟩] rest position
      (position + name.toList.length) := by
  obtain ⟨c, cs, spelled, starts, continues⟩ := valid
  have lexes := lexes_lexeme _ _ rest (.name c cs rest starts continues stops) position
  rw [← spelled, String.ofList_toList] at lexes
  exact lexes

theorem lexes_numeral (text rest : List Char) (numeral : Numeral text) (ends : Ends rest)
    (position : Nat) :
    Lexes text [⟨.number, String.ofList text, position⟩] rest position
      (position + text.length) := by
  have stops := ends.stops continuesNumber rfl rfl
  have lexeme : Lexeme .number text rest := by
    cases numeral with
    | whole _ plain => exact .whole text rest plain stops
    | point whole fraction before behind =>
      exact .point whole fraction rest before.2 behind stops
  exact lexes_lexeme .number text rest lexeme position

end Formula.Token
