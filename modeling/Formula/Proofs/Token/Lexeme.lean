import Formula.Proofs.Decimal.RoundTrip
import Formula.Token.Scan

/-!
# Lexemes

What a lexeme is, said without scanning: a symbol, a numeral or a name, in front of characters that
do not continue it. The classes of characters on which lexemes and blanks start do not overlap, and
so the lexeme at the front of a text is determined by the text. The main statement says that it is
the one that `front` finds.
-/

set_option autoImplicit false

namespace Formula

namespace Token

open Character Decimal

theorem startsName_of_ofSymbol? (c : Char) (kind : Kind) (symbol : Kind.ofSymbol? c = some kind) :
    startsName c = false ∧ c.isDigit = false ∧ isBlank c = false := by
  unfold Kind.ofSymbol? at symbol
  split at symbol <;> first | exact ⟨by decide, by decide, by decide⟩ | cases symbol

theorem ofSymbol?_of_startsName (c : Char) (starts : startsName c = true) :
    Kind.ofSymbol? c = none := by
  cases symbol : Kind.ofSymbol? c with
  | none => rfl
  | some kind =>
    rw [(startsName_of_ofSymbol? c kind symbol).1] at starts
    cases starts

theorem ofSymbol?_of_isDigit (c : Char) (digit : c.isDigit = true) : Kind.ofSymbol? c = none := by
  cases symbol : Kind.ofSymbol? c with
  | none => rfl
  | some kind =>
    rw [(startsName_of_ofSymbol? c kind symbol).2.1] at digit
    cases digit

/-! ## Lexemes in front of other characters -/

/-- A point behind a numeral belongs to it, whether or not it is at fault there. -/
def continuesNumber (c : Char) : Bool := c.isDigit || c == '.'

/-- The text of a lexeme of the given kind, in front of a rest that does not continue it. -/
inductive Lexeme : (kind : Kind) → (text rest : List Char) → Prop where
  | symbol (c : Char) (kind : Kind) (rest : List Char) (is : Kind.ofSymbol? c = some kind) :
    Lexeme kind [c] rest
  | whole (digits rest : List Char) (plain : Digits digits) (ends : Stops continuesNumber rest) :
    Lexeme .number digits rest
  | point (whole fraction rest : List Char) (before : ∀ c ∈ whole, c.isDigit = true)
    (behind : Digits fraction) (ends : Stops continuesNumber rest) :
    Lexeme .number (whole ++ '.' :: fraction) rest
  | name (c : Char) (cs rest : List Char) (starts : startsName c = true)
    (continues : ∀ d ∈ cs, continuesName d = true) (ends : Stops continuesName rest) :
    Lexeme (.ofName (String.ofList (c :: cs))) (c :: cs) rest

theorem stops_continuesNumber (rest : List Char) (ends : Stops continuesNumber rest) :
    Stops Char.isDigit rest ∧ rest.head? ≠ some '.' := by
  constructor
  · intro c front
    have outside := ends c front
    simp only [continuesNumber, Bool.or_eq_false_iff] at outside
    exact outside.1
  · intro front
    exact absurd (ends '.' front) (by decide)

theorem stops_of_digit_of_point (rest : List Char) (noDigit : Stops Char.isDigit rest)
    (noPoint : rest.head? ≠ some '.') : Stops continuesNumber rest := by
  intro c front
  have other : c ≠ '.' := by
    rintro rfl
    exact noPoint front
  simp [continuesNumber, noDigit c front, other]

theorem number_whole (digits rest : List Char) (plain : Digits digits)
    (ends : Stops continuesNumber rest) :
    number (digits ++ rest) = .lexeme .number digits rest := by
  obtain ⟨noDigit, noPoint⟩ := stops_continuesNumber rest ends
  rw [number, takeWhile_piece _ digits rest plain.2 noDigit,
    dropWhile_piece _ digits rest plain.2 noDigit]
  split
  · rename_i behind
    exact absurd rfl noPoint
  · rfl

theorem number_point (whole fraction rest : List Char) (before : ∀ c ∈ whole, c.isDigit = true)
    (behind : Digits fraction) (ends : Stops continuesNumber rest) :
    number (whole ++ '.' :: fraction ++ rest) =
      .lexeme .number (whole ++ '.' :: fraction) rest := by
  obtain ⟨noDigit, noPoint⟩ := stops_continuesNumber rest ends
  rw [List.append_assoc, List.cons_append, number,
    takeWhile_piece _ whole _ before (stops_point _),
    dropWhile_piece _ whole _ before (stops_point _)]
  simp only [takeWhile_piece _ fraction rest behind.2 noDigit,
    dropWhile_piece _ fraction rest behind.2 noDigit, noPoint, behind.1, if_false]

theorem number_lexeme {c : Char} {cs text rest : List Char} {kind : Kind}
    (starts : (c.isDigit || c == '.') = true)
    (read : number (c :: cs) = .lexeme kind text rest) : Lexeme kind text rest := by
  have nonempty := number_ne_nil starts read
  unfold number at read
  split at read
  · rename_i behind point
    simp only at read
    split at read
    · cases read
    · rename_i noPoint
      split at read
      · cases read
      · rename_i fractional
        cases read
        exact .point _ _ _ (fun _ => List.mem_takeWhile_imp)
          ⟨fractional, fun _ => List.mem_takeWhile_imp⟩
          (stops_of_digit_of_point _ (stops_dropWhile _ behind) noPoint)
  · rename_i noPoint
    cases read
    refine .whole _ _ ⟨nonempty, fun _ => List.mem_takeWhile_imp⟩
      (stops_of_digit_of_point _ (stops_dropWhile _ (c :: cs)) ?_)
    intro point
    obtain ⟨behind, split⟩ := List.head?_eq_some_iff.mp point
    exact noPoint behind split

/-! ## The lexeme at the front of a text -/

/-- A digit or a point starts a number, be it at fault or not. -/
theorem front_eq_number {c : Char} (cs : List Char) (starts : (c.isDigit || c == '.') = true) :
    isBlank c = false ∧ front c cs = number (c :: cs) := by
  have classes : isBlank c = false ∧ Kind.ofSymbol? c = none := by
    simp only [Bool.or_eq_true, beq_iff_eq] at starts
    rcases starts with digit | rfl
    · exact ⟨isBlank_of_isDigit c digit, ofSymbol?_of_isDigit c digit⟩
    · exact ⟨by decide, rfl⟩
  refine ⟨classes.1, ?_⟩
  simp only [front, classes.2, starts, if_true]

theorem starts_point (whole behind : List Char) (before : ∀ c ∈ whole, c.isDigit = true) :
    ∃ c cs, whole ++ '.' :: behind = c :: cs ∧ (c.isDigit || c == '.') = true := by
  cases whole with
  | nil => exact ⟨'.', behind, rfl, by decide⟩
  | cons c whole => exact ⟨c, whole ++ '.' :: behind, rfl, by simp [before c]⟩

theorem front_of_lexeme {kind : Kind} {text rest : List Char} (lexeme : Lexeme kind text rest) :
    ∃ c cs, text = c :: cs ∧ isBlank c = false ∧
      front c (cs ++ rest) = .lexeme kind text rest := by
  cases lexeme with
  | symbol c kind rest symbol =>
    refine ⟨c, [], rfl, (startsName_of_ofSymbol? c kind symbol).2.2, ?_⟩
    simp only [front, symbol, List.nil_append]
  | whole digits rest plain ends =>
    obtain ⟨c, cs, rfl, digit⟩ := (Numeral.whole _ plain).starts
    have starts : (c.isDigit || c == '.') = true := by simp [digit]
    obtain ⟨solid, same⟩ := front_eq_number (cs ++ rest) starts
    exact ⟨c, cs, rfl, solid, same.trans (number_whole _ rest plain ends)⟩
  | point whole fraction rest before behind ends =>
    have read := number_point whole fraction rest before behind ends
    obtain ⟨c, cs, split, starts⟩ := starts_point whole fraction before
    rw [split] at read ⊢
    obtain ⟨solid, same⟩ := front_eq_number (cs ++ rest) starts
    exact ⟨c, cs, rfl, solid, same.trans read⟩
  | name c cs rest starts continues ends =>
    have notPoint : (c == '.') = false := by
      cases same : c == '.' with
      | false => rfl
      | true =>
        rw [eq_of_beq same] at starts
        exact absurd starts (by decide)
    refine ⟨c, cs, rfl, isBlank_of_startsName c starts, ?_⟩
    simp only [front, ofSymbol?_of_startsName c starts, isDigit_of_startsName c starts, notPoint,
      starts, takeWhile_piece _ cs rest continues ends, dropWhile_piece _ cs rest continues ends,
      Bool.or_false, Bool.false_eq_true, if_false, if_true]

theorem lexeme_of_front {c : Char} {cs text rest : List Char} {kind : Kind}
    (read : front c cs = .lexeme kind text rest) : Lexeme kind text rest := by
  unfold front at read
  split at read
  · rename_i symbol
    cases read
    exact .symbol c kind cs symbol
  · split at read
    · rename_i starts
      exact number_lexeme starts read
    · split at read
      · rename_i starts
        cases read
        exact .name c _ _ starts (fun _ => List.mem_takeWhile_imp) (stops_dropWhile _ cs)
      · cases read

theorem front_eq_lexeme_iff (c : Char) (cs text rest : List Char) (kind : Kind) :
    front c cs = .lexeme kind text rest ↔ text ++ rest = c :: cs ∧ Lexeme kind text rest := by
  constructor
  · intro read
    exact ⟨front_append read, lexeme_of_front read⟩
  · rintro ⟨split, lexeme⟩
    obtain ⟨d, ds, rfl, -, read⟩ := front_of_lexeme lexeme
    cases split
    exact read

theorem scan_text {kind : Kind} {text rest : List Char} (lexeme : Lexeme kind text rest)
    (position : Nat) :
    scan position (text ++ rest) =
      (scan (position + text.length) rest).push ⟨kind, String.ofList text, position⟩ := by
  obtain ⟨c, cs, rfl, solid, read⟩ := front_of_lexeme lexeme
  exact scan_lexeme solid read position

theorem Lexeme.kind_ne_finish {kind : Kind} {text rest : List Char}
    (lexeme : Lexeme kind text rest) : kind ≠ .finish := by
  cases lexeme with
  | symbol c kind rest symbol =>
    rintro rfl
    exact kind_of_symbol c .finish symbol (by decide)
  | name c cs rest starts continues ends =>
    intro finish
    exact absurd (finish ▸ Kind.ofName_mem _) (by decide)
  | _ => decide

/-- The lexeme of a variable is a name, and no keyword. -/
theorem Lexeme.not_keyword {kind : Kind} {text rest : List Char} (lexeme : Lexeme kind text rest)
    (is : kind = .var) : String.ofList text ∉ keywords := by
  cases lexeme with
  | symbol c kind rest symbol =>
    subst is
    exact absurd (by decide) (kind_of_symbol c .var symbol)
  | whole digits rest plain ends => cases is
  | point whole fraction rest before behind ends => cases is
  | name c cs rest starts continues ends => exact (Kind.ofName_eq_var_iff _).mp is

end Token

end Formula
