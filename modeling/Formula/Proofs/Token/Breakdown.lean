import Formula.Proofs.Token.Segmentation

/-!
# Texts at which scanning breaks down

A breakdown writes a text as lexemes with blanks in front of them, as for a segmentation, up to a
character that is no blank and at which no lexeme starts. The main statements say that scanning
fails exactly on the texts that have a breakdown, and that it has completed its lexemes by then and
nothing else.
-/

set_option autoImplicit false

namespace Formula.Token

open Character

structure Breakdown (text : List Char) where
  segments : List Segment
  blanks : List Char
  c : Char
  rest : List Char
  spelled : spell segments ++ (blanks ++ c :: rest) = text
  leading : Leading (blanks ++ c :: rest) segments
  blank : ∀ d ∈ blanks, isBlank d = true
  stuck : Stuck c rest

theorem Breakdown.scan {text : List Char} (breakdown : Breakdown text) :
    ∃ error, Token.scan 0 text = ⟨placed 0 breakdown.segments, some error⟩ := by
  obtain ⟨segments, blanks, c, rest, rfl, leading, blank, stuck⟩ := breakdown
  obtain ⟨error, fails⟩ := stuck.scan (0 + (spell segments ++ blanks).length)
  refine ⟨error, ?_⟩
  rw [scan_leading_blanks segments blanks _ leading blank, fails]
  simp only [Scan.prepend, List.append_nil]

theorem exists_breakdown (text : List Char) (error : LexicalError)
    (fails : (Token.scan 0 text).failure = some error) : Nonempty (Breakdown text) := by
  obtain ⟨segments, blanks, rest, rfl, leading, blank, stuck⟩ := exists_leading 0 text
  cases rest with
  | nil =>
    rw [List.append_nil] at leading fails
    rw [scan_segments segments blanks ((longest_iff blanks segments).mpr ⟨leading, blank⟩)] at fails
    cases fails
  | cons c rest => exact ⟨⟨segments, blanks, c, rest, rfl, leading, blank, stuck c rest rfl⟩⟩

theorem tokenize_error_iff (text : String) :
    (∃ error, tokenize text = .error error) ↔ Nonempty (Breakdown text.toList) := by
  simp only [tokenize_eq_error_iff]
  constructor
  · rintro ⟨error, fails⟩
    exact exists_breakdown text.toList error fails
  · rintro ⟨breakdown⟩
    obtain ⟨error, scanned⟩ := breakdown.scan
    exact ⟨error, by rw [scanned]⟩

end Formula.Token
