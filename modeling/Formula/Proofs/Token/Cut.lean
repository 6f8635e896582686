import Formula.Proofs.Token.Concatenation

/-!
# Texts that are cut in front of a token

The segments in front of a token, with the blanks behind them, are a segmentation of the text up to
the token. So a text that is cut in front of one of its tokens splits into the tokens before it, and
what stands behind the cut starts with the text of the token.
-/

set_option autoImplicit false

namespace Formula.Token

open Character Grammar

/-! ## Segments in front of others -/

theorem spell_append (before later : List Segment) :
    spell (before ++ later) = spell before ++ spell later :=
  List.flatMap_append

/-- Tokens split where their segments split. -/
theorem placed_eq_append (position : Nat) (segments : List Segment) (front rest : List Token)
    (split : placed position segments = front ++ rest) :
    ∃ before later, segments = before ++ later ∧ placed position before = front ∧
      placed (position + (spell before).length) later = rest := by
  induction front generalizing position segments with
  | nil => exact ⟨[], segments, rfl, rfl, split⟩
  | cons token front ih =>
    cases segments with
    | nil => cases split
    | cons segment segments =>
      obtain ⟨first, others⟩ := List.cons.inj split
      obtain ⟨before, later, rfl, rfl, rfl⟩ := ih _ segments others
      refine ⟨segment :: before, later, rfl, ?_, ?_⟩
      · rw [placed, first]
      · rw [spell, List.flatMap_cons, List.length_append, ← Nat.add_assoc, spell]

theorem leading_append (behind : List Char) (before later : List Segment) :
    Leading behind (before ++ later) ↔
      Leading (spell later ++ behind) before ∧ Leading behind later := by
  induction before with
  | nil => exact (and_iff_right trivial).symm
  | cons segment before ih =>
    rw [List.cons_append, Leading, Leading, ih, spell_append, List.append_assoc]
    simp only [and_assoc]

/-- Of what stands behind segments only the first character counts. -/
theorem Leading.before {behind : List Char} {segments : List Segment}
    (leading : Leading behind segments) (other : List Char)
    (same : other.head? = behind.head? ∨ Apart other) : Leading other segments := by
  induction segments with
  | nil => trivial
  | cons segment later ih =>
    obtain ⟨blank, lexeme, leading⟩ := leading
    refine ⟨blank, lexeme.before _ ?_, ih leading⟩
    cases spell later with
    | nil => exact same
    | cons c cs => exact Or.inl rfl

/-- Segments with blanks behind them are a segmentation up to the end of the blanks. -/
theorem Leading.longest {blanks rest : List Char} {segments : List Segment}
    (leading : Leading (blanks ++ rest) segments) (blank : ∀ c ∈ blanks, isBlank c = true) :
    Longest blanks segments := by
  refine (longest_iff _ _).mpr ⟨leading.before blanks ?_, blank⟩
  cases blanks with
  | nil => exact Or.inr apart_nil
  | cons c blanks => exact Or.inl rfl

/-! ## Cutting in front of a segment -/

theorem longest_cut (trailing : List Char) (before later : List Segment) (segment : Segment)
    (longest : Longest trailing (before ++ segment :: later)) :
    Longest segment.blanks before := by
  obtain ⟨leading, -⟩ := (longest_iff _ _).mp longest
  obtain ⟨front, blank, -⟩ := (leading_append trailing before (segment :: later)).mp leading
  rw [spell_cons] at front
  exact front.longest blank

/-- The characters and tokens of a text on both sides of a place in front of a token. -/
structure CutAt (text : String) (front : List Token) (token : Token) (before behind : String) :
    Prop where
  whole : before ++ token.text ++ behind = text
  place : before.length = token.position
  scanned : tokenize before = .ok (front ++ [atEnd before.length])
  /-- Only the end of the text stands behind its last character. -/
  last : token.position = text.length ↔ token.kind = .finish

theorem cutAt_end (text : String) (front : List Token)
    (scanned : tokenize text = .ok (front ++ [atEnd text.length])) :
    CutAt text front (atEnd text.length) text "" where
  whole := by rw [atEnd, String.append_empty, String.append_empty]
  place := rfl
  scanned := scanned
  last := ⟨fun _ => rfl, fun _ => rfl⟩

theorem cutAt_segment (trailing : List Char) (before later : List Segment) (segment : Segment)
    (longest : Longest trailing (before ++ segment :: later)) :
    CutAt (String.ofList (spell (before ++ segment :: later) ++ trailing)) (placed 0 before)
      (segment.token (spell before).length) (String.ofList (spell before ++ segment.blanks))
      (String.ofList (spell later ++ trailing)) := by
  have split : spell (before ++ segment :: later) ++ trailing =
      spell before ++ segment.blanks ++ segment.text ++ (spell later ++ trailing) := by
    rw [spell_append, List.append_assoc, spell_cons]
    simp only [List.append_assoc]
  obtain ⟨leading, -⟩ := (longest_iff _ _).mp longest
  obtain ⟨-, -, lexeme, -⟩ := (leading_append trailing before (segment :: later)).mp leading
  obtain ⟨c, cs, spelled, -, -⟩ := front_of_lexeme lexeme
  refine ⟨?_, ?_, ?_, ?_⟩
  · simp only [split, Segment.token, String.ofList_append]
  · rw [String.length_ofList, List.length_append, Segment.token]
  · apply (tokenize_eq_ok_iff _ _).mpr
    rw [String.toList_ofList, scan_segments before _ (longest_cut _ _ _ _ longest),
      String.length_ofList, Nat.zero_add]
  · apply iff_of_false
    · rw [split, String.length_ofList, spelled, Segment.token]
      simp only [List.length_append, List.length_cons]
      omega
    · exact lexeme.kind_ne_finish

theorem exists_segments (text : String) (tokens : List Token)
    (scanned : tokenize text = .ok tokens) :
    ∃ segments trailing, Longest trailing segments ∧ spell segments ++ trailing = text.toList ∧
      tokens = placed 0 segments ++ [atEnd text.length] := by
  have whole := (tokenize_eq_ok_iff _ _).mp scanned
  obtain ⟨segments, trailing, longest, spelled⟩ := longest_of_scan 0 text.toList (by rw [whole])
  have placing := scan_segments segments trailing longest 0
  rw [spelled, whole, Nat.zero_add, String.length_toList] at placing
  exact ⟨segments, trailing, longest, spelled, congrArg Scan.tokens placing⟩

/-- Every token of a text stands at a place where the text can be cut. -/
theorem exists_cut (text : String) (front rest : List Token) (token : Token)
    (scanned : tokenize text = .ok (front ++ token :: rest)) :
    ∃ before behind, CutAt text front token before behind := by
  obtain ⟨segments, trailing, longest, spelled, split⟩ := exists_segments text _ scanned
  -- The end of the text is no segment: nothing stands behind it, and the cut takes all blanks.
  rcases List.eq_nil_or_concat rest with rfl | ⟨rest, last, rfl⟩
  · obtain ⟨-, ended⟩ := List.append_inj' split rfl
    cases ended
    exact ⟨text, "", cutAt_end text front scanned⟩
  · rw [List.concat_eq_append, ← List.cons_append, ← List.append_assoc] at split
    obtain ⟨inside, -⟩ := List.append_inj' split rfl
    obtain ⟨before, later, rfl, rfl, behind⟩ := placed_eq_append 0 segments _ _ inside.symm
    cases later with
    | nil => cases behind
    | cons segment later =>
      obtain ⟨rfl, -⟩ := List.cons.inj behind
      have cut := cutAt_segment trailing before later segment longest
      rw [spelled, String.ofList_toList] at cut
      rw [Nat.zero_add]
      exact ⟨_, _, cut⟩

/-- A text without a token before its end is blank. -/
theorem body_eq_nil_iff (text : String) (tokens : List Token)
    (scanned : tokenize text = .ok tokens) :
    body tokens = [] ↔ ∀ c ∈ text.toList, isBlank c = true := by
  constructor
  · intro empty
    obtain ⟨segments, trailing, longest, spelled, split⟩ := exists_segments text tokens scanned
    rw [tokens_eq_body text tokens scanned, empty] at split
    have same := List.append_cancel_right split
    cases segments with
    | nil =>
      rw [← spelled]
      exact longest
    | cons segment segments => cases same
  · intro blank
    have alone := scan_blanks text.toList [] blank 0
    rw [List.append_nil, (tokenize_eq_ok_iff _ _).mp scanned, scan_nil] at alone
    cases alone
    rfl

end Formula.Token
