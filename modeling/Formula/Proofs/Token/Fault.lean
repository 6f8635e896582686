import Formula.Proofs.Token.Breakdown
import Formula.Proofs.Token.Cut

/-!
# The character at fault

Where scanning breaks down, one character is at fault: one that starts no lexeme, the second point
of a number, or a point without a digit behind it. The characters up to it have the same error when
the text ends behind it. They also have it when anything else stands behind them, except for a point
without a digit behind it, which a digit would mend.
-/

set_option autoImplicit false

namespace Formula

def LexicalError.position : LexicalError → Nat
  | .malformedNumber position => position
  | .unknownCharacter _ position => position

namespace Token

open Character Decimal Grammar

/-! ## Faults -/

structure Foreign (c : Char) : Prop where
  noBlank : isBlank c = false
  noSymbol : Kind.ofSymbol? c = none
  noPoint : c ≠ '.'
  noDigit : c.isDigit = false
  noLetter : isAlphabetic c = false
  noLowLine : c ≠ '_'

/-- What is wrong behind `start` characters: the character `c` is at fault, behind the characters
`run` and in front of `rest`. -/
inductive Fault (start : Nat) : (run : List Char) → (c : Char) → (rest : List Char) →
    LexicalError → Prop where
  | foreign (c : Char) (rest : List Char) (is : Foreign c) :
    Fault start [] c rest (.unknownCharacter c start)
  | secondPoint (whole fraction rest : List Char) (before : ∀ c ∈ whole, c.isDigit = true)
    (between : ∀ c ∈ fraction, c.isDigit = true) :
    Fault start (whole ++ '.' :: fraction) '.' rest
      (.malformedNumber (start + (whole ++ '.' :: fraction).length))
  | lonePoint (whole rest : List Char) (before : ∀ c ∈ whole, c.isDigit = true)
    (ends : Stops continuesNumber rest) :
    Fault start whole '.' rest (.malformedNumber (start + whole.length))

theorem front_foreign (c : Char) (rest : List Char) (is : Foreign c) :
    front c rest = .unknown c := by
  simp only [front, is.noSymbol, is.noDigit, beq_false_of_ne is.noPoint, startsName, is.noLetter,
    beq_false_of_ne is.noLowLine, Bool.or_self, Bool.false_eq_true, if_false]

theorem foreign_of_front {c character : Char} {rest : List Char} (solid : isBlank c = false)
    (read : front c rest = .unknown character) : Foreign c := by
  unfold front at read
  split at read
  · cases read
  · rename_i noSymbol
    split at read
    · exact absurd read (number_ne_unknown _ _)
    · rename_i noNumber
      split at read
      · cases read
      · rename_i noName
        simp only [startsName, Bool.or_eq_true, beq_iff_eq, not_or, Bool.not_eq_true]
          at noNumber noName
        exact ⟨solid, noSymbol, noNumber.2, noNumber.1, noName.1, noName.2⟩

theorem number_of_front {c : Char} {rest : List Char} {offset : Nat}
    (read : front c rest = .malformed offset) : number (c :: rest) = .malformed offset := by
  unfold front at read
  split at read
  · cases read
  · split at read
    · exact read
    · split at read <;> cases read

theorem scan_point (whole behind : List Char) (offset : Nat)
    (before : ∀ c ∈ whole, c.isDigit = true)
    (read : number (whole ++ '.' :: behind) = .malformed offset) (position : Nat) :
    scan position (whole ++ '.' :: behind) = ⟨[], some (.malformedNumber (position + offset))⟩ := by
  obtain ⟨c, cs, split, starts⟩ := starts_point whole behind before
  rw [split] at read ⊢
  obtain ⟨solid, same⟩ := front_eq_number cs starts
  exact scan_malformed solid (same.trans read) position

namespace Fault

variable {start : Nat} {run rest : List Char} {c : Char} {error : LexicalError}

theorem scan (fault : Fault start run c rest error) :
    Token.scan start (run ++ c :: rest) = ⟨[], some error⟩ := by
  cases fault with
  | foreign c rest is => exact scan_unknown is.noBlank (front_foreign c rest is) start
  | secondPoint whole fraction rest before between =>
    have parts := number_of_parts whole fraction ('.' :: rest) before between (stops_point rest)
    have length : (whole ++ '.' :: fraction).length = whole.length + 1 + fraction.length := by
      simp only [List.length_append, List.length_cons]
      omega
    rw [if_pos (by rfl), ← length] at parts
    rw [List.append_assoc, List.cons_append]
    exact scan_point _ _ _ before parts start
  | lonePoint whole rest before ends =>
    obtain ⟨noDigit, noPoint⟩ := stops_continuesNumber rest ends
    have parts := number_of_parts run [] rest before (by simp) noDigit
    rw [if_neg noPoint, if_pos rfl] at parts
    exact scan_point _ _ _ before parts start

theorem position (fault : Fault start run c rest error) :
    error.position = start + run.length := by
  cases fault <;> rfl

/-- The fault does not go away when the text ends behind it. -/
theorem cut (fault : Fault start run c rest error) : Fault start run c [] error := by
  cases fault with
  | foreign c rest is => exact .foreign c [] is
  | secondPoint whole fraction rest before between =>
    exact .secondPoint whole fraction [] before between
  | lonePoint whole rest before ends => exact .lonePoint run [] before (stops_nil _)

end Fault

/-- Where no lexeme starts there is a fault. -/
theorem Stuck.fault {c : Char} {cs : List Char} (stuck : Stuck c cs) (start : Nat) :
    ∃ run c' rest error, run ++ c' :: rest = c :: cs ∧ Fault start run c' rest error := by
  cases read : front c cs with
  | lexeme kind text behind =>
    obtain ⟨split, lexeme⟩ := (front_eq_lexeme_iff c cs text behind kind).mp read
    exact absurd lexeme (stuck.noLexeme kind text behind split)
  | unknown character =>
    exact ⟨[], c, cs, _, rfl, .foreign c cs (foreign_of_front stuck.solid read)⟩
  | malformed offset =>
    have broken := number_of_front read
    obtain ⟨whole, fraction, rest, split, before, between, stops⟩ := parts_of_malformed broken
    rw [split, number_of_parts whole fraction rest before between stops] at broken
    by_cases second : rest.head? = some '.'
    · obtain ⟨rest, rfl⟩ := List.head?_eq_some_iff.mp second
      refine ⟨_, '.', rest, _, ?_, .secondPoint whole fraction rest before between⟩
      rw [split, List.append_assoc, List.cons_append]
    · -- With a digit behind its only point the number would be a lexeme.
      by_cases missing : fraction = []
      · subst missing
        have ends := stops_of_digit_of_point rest stops second
        exact ⟨whole, '.', rest, _, split.symm, .lonePoint whole rest before ends⟩
      · rw [if_neg second, if_neg missing] at broken
        cases broken

/-! ## The fault of a text -/

def Breakdown.front {text : List Char} (breakdown : Breakdown text) : List Char :=
  spell breakdown.segments ++ breakdown.blanks

/-- A fault keeps scanning from going on wherever the lexemes of the text are in front of it. -/
theorem Breakdown.scan_fault {text : List Char} (breakdown : Breakdown text) (run rest : List Char)
    (c : Char) (split : run ++ c :: rest = breakdown.c :: breakdown.rest) (other : List Char)
    (error : LexicalError) (fault : Fault breakdown.front.length run c other error) :
    (Token.scan 0 (breakdown.front ++ (run ++ c :: other))).failure = some error := by
  -- The last lexeme depends on one character behind it, and that one stays what it was.
  have head : (breakdown.blanks ++ (run ++ c :: other)).head? =
      (breakdown.blanks ++ breakdown.c :: breakdown.rest).head? := by
    rw [← split]
    cases breakdown.blanks with
    | nil => cases run <;> rfl
    | cons d blanks => rfl
  have leading := breakdown.leading.before _ (Or.inl head)
  have scanned := fault.scan
  rw [Breakdown.front] at scanned ⊢
  rw [List.append_assoc, scan_leading_blanks _ _ _ leading breakdown.blank, Nat.zero_add, scanned]
  rfl

/-- A text with its character at fault; `front` is what is scanned before. -/
structure FaultAt (text front run : List Char) (c : Char) (rest : List Char)
    (error : LexicalError) : Prop where
  spelled : front ++ (run ++ c :: rest) = text
  passes : ∃ tokens, scan 0 front = ⟨tokens, none⟩
  fault : Fault front.length run c rest error
  /-- What stands behind the character does not matter as long as it leaves a fault. -/
  fails : ∀ other error', Fault front.length run c other error' →
    (scan 0 (front ++ (run ++ c :: other))).failure = some error'

theorem Breakdown.faultAt {text : List Char} (breakdown : Breakdown text) (error : LexicalError)
    (rejected : (Token.scan 0 text).failure = some error) :
    ∃ run c rest, FaultAt text breakdown.front run c rest error := by
  obtain ⟨run, c, rest, error', split, fault⟩ := breakdown.stuck.fault breakdown.front.length
  have passes := scan_segments _ _ (breakdown.leading.longest breakdown.blank) 0
  have whole : breakdown.front ++ (run ++ c :: rest) = text := by
    rw [split, front, List.append_assoc, breakdown.spelled]
  have same := breakdown.scan_fault run rest c split rest error' fault
  rw [whole, rejected] at same
  cases same
  exact ⟨run, c, rest, whole, ⟨_, passes⟩, fault, breakdown.scan_fault run rest c split⟩

def cut (count : Nat) (text : String) : String := String.ofList (text.toList.take count)

/-- What is wrong with the point at `position`, behind the characters `run` of its number. -/
inductive PointFault (text : String) (run : List Char) (position : Nat) : Prop where
  /-- A point is there already, and no text behind the second one mends it. -/
  | second (whole fraction : List Char) (split : run = whole ++ '.' :: fraction)
    (before : ∀ c ∈ whole, c.isDigit = true) (between : ∀ c ∈ fraction, c.isDigit = true)
    (always : ∀ behind, tokenize (cut (position + 1) text ++ behind) =
      .error (.malformedNumber position))
  | lone (digits : ∀ c ∈ run, c.isDigit = true)
    (next : ∀ c, text.toList[position + 1]? = some c → c.isDigit = false ∧ c ≠ '.')

namespace FaultAt

variable {text : String} {front run rest : List Char} {c : Char} {error : LexicalError}

theorem position (here : FaultAt text.toList front run c rest error) :
    error.position = (front ++ run).length := by
  rw [here.fault.position, List.length_append]

theorem whole (here : FaultAt text.toList front run c rest error) :
    text.toList = front ++ run ++ c :: rest := by
  rw [← here.spelled, List.append_assoc]

theorem position_lt (here : FaultAt text.toList front run c rest error) :
    error.position < text.length := by
  rw [here.position, ← String.length_toList, here.whole]
  simp only [List.length_append, List.length_cons]
  omega

theorem take_position (here : FaultAt text.toList front run c rest error) :
    text.toList.take error.position = front ++ run := by
  rw [here.position, here.whole, List.take_left]

theorem take_behind (here : FaultAt text.toList front run c rest error) :
    text.toList.take (error.position + 1) = front ++ run ++ [c] := by
  rw [here.position, here.whole, List.take_append, List.take_of_length_le (Nat.le_succ _),
    Nat.add_sub_cancel_left]
  rfl

theorem getElem?_position (here : FaultAt text.toList front run c rest error) :
    text.toList[error.position]? = some c := by
  rw [here.position, here.whole, List.getElem?_append_right (Nat.le_refl _), Nat.sub_self]
  rfl

theorem getElem?_behind (here : FaultAt text.toList front run c rest error) :
    text.toList[error.position + 1]? = rest.head? := by
  rw [here.position, here.whole, List.getElem?_append_right (Nat.le_add_right _ 1),
    Nat.add_sub_cancel_left, List.head?_eq_getElem?]
  rfl

/-- Whatever leaves the fault behind the first characters leaves the error. -/
theorem tokenize_cut (here : FaultAt text.toList front run c rest error) (behind : String)
    (again : Fault front.length run c behind.toList error) :
    tokenize (cut (error.position + 1) text ++ behind) = .error error := by
  apply (tokenize_eq_error_iff _ error).mpr
  have fails := here.fails behind.toList error again
  rw [cut, here.take_behind, String.toList_append, String.toList_ofList, List.append_assoc,
    List.append_assoc]
  exact fails

theorem foreign {character : Char} {position : Nat}
    (here : FaultAt text.toList front run c rest (.unknownCharacter character position)) :
    text.toList[position]? = some character ∧ Foreign character ∧
      (∃ tokens, tokenize (cut position text) = .ok tokens) ∧
      ∀ behind, tokenize (cut (position + 1) text ++ behind) =
        .error (.unknownCharacter character position) := by
  have front' := here.take_position
  have there := here.getElem?_position
  have again := here.tokenize_cut
  obtain ⟨tokens, passes⟩ := here.passes
  cases here.fault with
  | foreign c rest is =>
    refine ⟨there, is, ⟨tokens, ?_⟩, fun behind => again behind (.foreign _ _ is)⟩
    apply (tokenize_eq_ok_iff _ _).mpr
    rw [List.append_nil] at front'
    rw [cut, String.toList_ofList, ← passes]
    exact congrArg (scan 0) front'

theorem malformed {position : Nat}
    (here : FaultAt text.toList front run c rest (.malformedNumber position)) :
    text.toList[position]? = some '.' ∧ text.toList.take position = front ++ run ∧
      PointFault text run position := by
  have front' := here.take_position
  have there := here.getElem?_position
  have next := here.getElem?_behind
  have again := here.tokenize_cut
  cases here.fault with
  | secondPoint whole fraction rest before between =>
    refine ⟨there, front', .second whole fraction rfl before between ?_⟩
    intro behind
    exact again behind (.secondPoint whole fraction _ before between)
  | lonePoint whole rest before ends =>
    refine ⟨there, front', .lone before ?_⟩
    intro d behind
    have outside := ends d (next.symm.trans behind)
    simpa only [continuesNumber, Bool.or_eq_false_iff, beq_eq_false_iff_ne] using outside

end FaultAt

theorem lexical_error_exact (text : String) (error : LexicalError)
    (rejected : tokenize text = .error error) :
    error.position < text.length ∧ tokenize (cut (error.position + 1) text) = .error error ∧
    (∀ c position, error = .unknownCharacter c position →
      text.toList[position]? = some c ∧ Foreign c ∧
        (∃ tokens, tokenize (cut position text) = .ok tokens) ∧
        ∀ behind, tokenize (cut (position + 1) text ++ behind) = .error error) ∧
    ∀ position, error = .malformedNumber position →
      text.toList[position]? = some '.' ∧ Nonempty (Breakdown text.toList) ∧
        ∀ breakdown : Breakdown text.toList, ∃ run,
          text.toList.take position = breakdown.front ++ run ∧ PointFault text run position := by
  have failure := (tokenize_eq_error_iff text error).mp rejected
  obtain ⟨breakdown⟩ := exists_breakdown text.toList error failure
  obtain ⟨run, c, rest, here⟩ := breakdown.faultAt error failure
  refine ⟨here.position_lt, ?_, ?_, ?_⟩
  · have ended := here.tokenize_cut "" here.fault.cut
    rw [String.append_empty] at ended
    exact ended
  · rintro character position rfl
    exact here.foreign
  · rintro position rfl
    refine ⟨here.malformed.1, ⟨breakdown⟩, ?_⟩
    intro other
    obtain ⟨run', c', rest', there⟩ := other.faultAt _ failure
    exact ⟨run', there.malformed.2⟩

/-- The second point of `3.14.1` cannot be mended by what follows it. -/
theorem second_point_never_mended :
    tokenize "sin 3.14.1" = .error (.malformedNumber 8) ∧
    ∀ behind, tokenize ("sin 3.14." ++ behind) = .error (.malformedNumber 8) := by
  have rejected : tokenize "sin 3.14.1" = .error (.malformedNumber 8) := by decide +kernel
  obtain ⟨-, -, -, malformed⟩ := lexical_error_exact "sin 3.14.1" _ rejected
  obtain ⟨-, ⟨breakdown⟩, places⟩ := malformed 8 rfl
  refine ⟨rejected, ?_⟩
  obtain ⟨run, -, point⟩ := places breakdown
  cases point with
  | second whole fraction split before between always => exact always
  | lone digits next => cases (next '1' rfl).1

end Token

end Formula
