import Formula.Character
import Formula.Token

/-!
# From text to tokens

The scan walks along the characters, skips blanks and takes the longest lexeme at each other
place. It keeps the tokens that it completed before an error, because they have been seen by
then. The main statements say that a lexeme is a non-empty piece at the front of the text, and
so that the scan ends.
-/

set_option autoImplicit false

namespace Formula

inductive LexicalError where
  /-- A decimal point at `position` without a digit behind it, or the second one of a number. -/
  | malformedNumber (position : Nat)
  /-- A character that starts no token. -/
  | unknownCharacter (character : Char) (position : Nat)
  deriving DecidableEq

def LexicalError.message : LexicalError → String
  | .malformedNumber position => "Malformed number at position " ++ position.repr
  | .unknownCharacter character position =>
    "Unknown character '" ++ character.toString ++ "' at position " ++ position.repr

namespace Token

open Character

inductive Front where
  /-- The lexeme `text` of the given kind, and the characters behind it. -/
  | lexeme (kind : Kind) (text rest : List Char)
  /-- A number whose decimal point `offset` characters further on is at fault. -/
  | malformed (offset : Nat)
  /-- A character that starts no lexeme. -/
  | unknown (character : Char)

/-- The number at the front of a text that starts with a digit or a point: digits, or digits, a
point and digits, or a point and digits. A second point is at fault, and so is one without a
digit behind it. -/
def number (cs : List Char) : Front :=
  let whole := cs.takeWhile Char.isDigit
  match cs.dropWhile Char.isDigit with
  | '.' :: behind =>
    let fraction := behind.takeWhile Char.isDigit
    let rest := behind.dropWhile Char.isDigit
    if rest.head? = some '.' then .malformed (whole.length + 1 + fraction.length)
    else if fraction = [] then .malformed whole.length
    else .lexeme .number (whole ++ '.' :: fraction) rest
  | rest => .lexeme .number whole rest

def front (c : Char) (cs : List Char) : Front :=
  match Kind.ofSymbol? c with
  | some kind => .lexeme kind [c] cs
  | none =>
    if c.isDigit || c == '.' then number (c :: cs)
    else if startsName c then
      let name := c :: cs.takeWhile continuesName
      .lexeme (.ofName (String.ofList name)) name (cs.dropWhile continuesName)
    else .unknown c

theorem number_append {cs text rest : List Char} {kind : Kind}
    (read : number cs = .lexeme kind text rest) : text ++ rest = cs := by
  have whole := List.takeWhile_append_dropWhile (p := Char.isDigit) (l := cs)
  unfold number at read
  split at read
  · rename_i behind point
    have fraction := List.takeWhile_append_dropWhile (p := Char.isDigit) (l := behind)
    simp only at read
    split at read
    · simp at read
    · split at read
      · simp at read
      · simp only [Front.lexeme.injEq] at read
        obtain ⟨-, rfl, rfl⟩ := read
        rw [List.append_assoc, List.cons_append, fraction, ← point, whole]
  · simp only [Front.lexeme.injEq] at read
    obtain ⟨-, rfl, rfl⟩ := read
    exact whole

theorem front_append {c : Char} {cs text rest : List Char} {kind : Kind}
    (read : front c cs = .lexeme kind text rest) : text ++ rest = c :: cs := by
  unfold front at read
  split at read
  · simp only [Front.lexeme.injEq] at read
    obtain ⟨-, rfl, rfl⟩ := read
    rfl
  · split at read
    · exact number_append read
    · split at read
      · simp only [Front.lexeme.injEq] at read
        obtain ⟨-, rfl, rfl⟩ := read
        simp
      · simp at read

theorem number_ne_nil {c : Char} {cs text rest : List Char} {kind : Kind}
    (starts : (c.isDigit || c == '.') = true)
    (read : number (c :: cs) = .lexeme kind text rest) : text ≠ [] := by
  unfold number at read
  split at read
  · simp only at read
    split at read
    · simp at read
    · split at read
      · simp at read
      · simp only [Front.lexeme.injEq] at read
        obtain ⟨-, rfl, -⟩ := read
        simp
  · rename_i noPoint
    simp only [Front.lexeme.injEq] at read
    obtain ⟨-, rfl, -⟩ := read
    by_cases digit : c.isDigit = true
    · simp [digit]
    · have point : c = '.' := by simpa [digit] using starts
      subst point
      exact absurd rfl (noPoint cs)

theorem front_ne_nil {c : Char} {cs text rest : List Char} {kind : Kind}
    (read : front c cs = .lexeme kind text rest) : text ≠ [] := by
  unfold front at read
  split at read
  · simp only [Front.lexeme.injEq] at read
    obtain ⟨-, rfl, -⟩ := read
    simp
  · split at read
    · rename_i starts
      exact number_ne_nil starts read
    · split at read
      · simp only [Front.lexeme.injEq] at read
        obtain ⟨-, rfl, -⟩ := read
        simp
      · simp at read

theorem length_rest_lt {c : Char} {cs text rest : List Char} {kind : Kind}
    (read : front c cs = .lexeme kind text rest) : rest.length < (c :: cs).length := by
  have append := congrArg List.length (front_append read)
  have positive := List.length_pos_iff.mpr (front_ne_nil read)
  simp only [List.length_append] at append
  omega

/-- The tokens that a scan completed, and the error that ended it, if one did. -/
structure Scan where
  tokens : List Token
  failure : Option LexicalError
  deriving DecidableEq

def Scan.push (token : Token) (scan : Scan) : Scan := { scan with tokens := token :: scan.tokens }

/-- Scans the characters of a text from `position` on; without an error the last token is the
end of the text. -/
def scan (position : Nat) (cs : List Char) : Scan :=
  match cs with
  | [] => ⟨[atEnd position], none⟩
  | c :: cs =>
    if isBlank c then scan (position + 1) cs
    else
      match _read : front c cs with
      | .lexeme kind text rest =>
        (scan (position + text.length) rest).push ⟨kind, String.ofList text, position⟩
      | .malformed offset => ⟨[], some (.malformedNumber (position + offset))⟩
      | .unknown character => ⟨[], some (.unknownCharacter character position)⟩
termination_by cs.length
decreasing_by
  · simp
  · exact length_rest_lt _read

theorem scan_nil (position : Nat) : scan position [] = ⟨[atEnd position], none⟩ := by
  rw [scan]

theorem scan_blank {c : Char} (blank : isBlank c = true) (position : Nat) (cs : List Char) :
    scan position (c :: cs) = scan (position + 1) cs := by
  rw [scan, if_pos blank]

theorem scan_lexeme {c : Char} {cs text rest : List Char} {kind : Kind}
    (solid : isBlank c = false) (read : front c cs = .lexeme kind text rest) (position : Nat) :
    scan position (c :: cs) =
      (scan (position + text.length) rest).push ⟨kind, String.ofList text, position⟩ := by
  rw [scan, if_neg (by simp [solid])]
  split
  · rename_i again
    rw [read] at again
    cases again
    rfl
  · rename_i again
    rw [read] at again
    cases again
  · rename_i again
    rw [read] at again
    cases again

theorem scan_malformed {c : Char} {cs : List Char} {offset : Nat}
    (solid : isBlank c = false) (read : front c cs = .malformed offset) (position : Nat) :
    scan position (c :: cs) = ⟨[], some (.malformedNumber (position + offset))⟩ := by
  rw [scan, if_neg (by simp [solid])]
  split
  · rename_i again
    rw [read] at again
    cases again
  · rename_i again
    rw [read] at again
    cases again
    rfl
  · rename_i again
    rw [read] at again
    cases again

theorem scan_unknown {c : Char} {cs : List Char} {character : Char}
    (solid : isBlank c = false) (read : front c cs = .unknown character) (position : Nat) :
    scan position (c :: cs) = ⟨[], some (.unknownCharacter character position)⟩ := by
  rw [scan, if_neg (by simp [solid])]
  split
  · rename_i again
    rw [read] at again
    cases again
  · rename_i again
    rw [read] at again
    cases again
  · rename_i again
    rw [read] at again
    cases again
    rfl

def Scan.result (scan : Scan) : Except LexicalError (List Token) :=
  match scan.failure with
  | none => .ok scan.tokens
  | some error => .error error

end Token

def tokenize (text : String) : Except LexicalError (List Token) :=
  (Token.scan 0 text.toList).result

end Formula
