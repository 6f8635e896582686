import Formula.Proofs.Display.Scan
import Formula.Proofs.Grammar.Derivation
import Formula.Proofs.Token.Segmentation

/-!
# Scanning texts that are put together

A text is scanned on its own and in front of another one in the same way, provided that no lexeme
goes on into what follows. So the scan of two texts is the scan of the first one, without its end,
and the scan of the second one from there on; and where a scan starts shows in its positions only.
The main statements say this for a text behind which a blank or a symbol stands, and for a text that
is cut at a place within no token.
-/

set_option autoImplicit false

namespace Formula

def Token.move (f : Nat → Nat) (token : Token) : Token :=
  { token with position := f token.position }

def LexicalError.move (f : Nat → Nat) : LexicalError → LexicalError
  | .malformedNumber position => .malformedNumber (f position)
  | .unknownCharacter character position => .unknownCharacter character (f position)

namespace Token

open Character Decimal Grammar

def Scan.move (f : Nat → Nat) (scan : Scan) : Scan :=
  ⟨scan.tokens.map (Token.move f), scan.failure.map (LexicalError.move f)⟩

/-- The scan of a text behind another one: the end of the first text is no end any more. -/
def Scan.followedBy (first second : Scan) : Scan :=
  match first.failure with
  | some _ => first
  | none => second.prepend (body first.tokens)

/-- Reading stops at the end of the text and nowhere before. -/
theorem tokens_eq_body (text : String) (tokens : List Token)
    (success : tokenize text = .ok tokens) : tokens = body tokens ++ [atEnd text.length] := by
  obtain ⟨front, rfl, ordinary⟩ := tokens_of_tokenize text tokens success
  rw [body_append front ordinary, body_cons_of_finish _ rfl, List.append_nil]

/-! ## Where a scan starts -/

theorem scan_move (offset position : Nat) (cs : List Char) :
    scan (position + offset) cs = (scan position cs).move (· + offset) := by
  induction position, cs using scan.induct with
  | case1 position => rw [scan_nil, scan_nil]; rfl
  | case2 position c cs blank ih =>
    rw [scan_blank blank, scan_blank blank, ← ih]
    congr 1
    omega
  | case3 position c cs solid kind text rest read ih =>
    have notBlank : isBlank c = false := by simpa using solid
    have start : position + offset + text.length = position + text.length + offset := by omega
    rw [scan_lexeme notBlank read, scan_lexeme notBlank read, start, ih]
    rfl
  | case4 position c cs solid place read =>
    have notBlank : isBlank c = false := by simpa using solid
    have start : position + offset + place = position + place + offset := by omega
    rw [scan_malformed notBlank read, scan_malformed notBlank read, start]
    rfl
  | case5 position c cs solid character read =>
    have notBlank : isBlank c = false := by simpa using solid
    rw [scan_unknown notBlank read, scan_unknown notBlank read]
    rfl

/-! ## What does not continue a lexeme -/

/-- No lexeme goes on into such characters: there are none, or the first one is a blank or a
symbol. -/
def Apart (rest : List Char) : Prop :=
  ∀ c, rest.head? = some c → isBlank c = true ∨ (Kind.ofSymbol? c).isSome = true

theorem apart_nil : Apart [] := by
  intro c front
  cases front

theorem apart_of_blank (c : Char) (cs : List Char) (blank : isBlank c = true) :
    Apart (c :: cs) := by
  rintro d ⟨⟩
  exact Or.inl blank

theorem apart_of_symbol (c : Char) (cs : List Char) (kind : Kind)
    (symbol : Kind.ofSymbol? c = some kind) : Apart (c :: cs) := by
  rintro d ⟨⟩
  exact Or.inr (by rw [symbol]; rfl)

theorem apart_blanks (blanks rest : List Char) (nonempty : blanks ≠ [])
    (blank : ∀ c ∈ blanks, isBlank c = true) : Apart (blanks ++ rest) := by
  cases blanks with
  | nil => exact absurd rfl nonempty
  | cons c blanks => exact apart_of_blank c _ (blank c List.mem_cons_self)

theorem continues_of_isBlank (c : Char) (blank : isBlank c = true) :
    continuesName c = false ∧ continuesNumber c = false := by
  have notPoint := beq_of_isBlank c '.' blank (by decide)
  refine ⟨continuesName_of_isBlank c blank, ?_⟩
  simp only [continuesNumber, isDigit_of_isBlank c blank, notPoint, Bool.or_self]

theorem continues_of_symbol (c : Char) (kind : Kind) (symbol : Kind.ofSymbol? c = some kind) :
    continuesName c = false ∧ continuesNumber c = false := by
  unfold Kind.ofSymbol? at symbol
  split at symbol <;> first | exact ⟨by decide, by decide⟩ | cases symbol

theorem Apart.stops {rest : List Char} (apart : Apart rest) :
    Stops continuesName rest ∧ Stops continuesNumber rest := by
  have outside : ∀ c, rest.head? = some c → continuesName c = false ∧ continuesNumber c = false := by
    intro c front
    rcases apart c front with blank | symbol
    · exact continues_of_isBlank c blank
    · obtain ⟨kind, symbol⟩ := Option.isSome_iff_exists.mp symbol
      exact continues_of_symbol c kind symbol
  exact ⟨fun c front => (outside c front).1, fun c front => (outside c front).2⟩

/-- Of what stands behind a lexeme only the first character counts. -/
theorem Lexeme.before {kind : Kind} {text rest : List Char} (lexeme : Lexeme kind text rest)
    (other : List Char) (same : other.head? = rest.head? ∨ Apart other) :
    Lexeme kind text other := by
  have keeps : ∀ inside : Char → Bool, (Apart other → Stops inside other) → Stops inside rest →
      Stops inside other := by
    intro inside separates stops
    rcases same with same | apart
    · exact stops_of_head inside rest other same stops
    · exact separates apart
  cases lexeme with
  | symbol c kind rest is => exact .symbol c kind other is
  | whole digits rest plain ends =>
    exact .whole text other plain (keeps _ (fun apart => apart.stops.2) ends)
  | point whole fraction rest before behind ends =>
    exact .point whole fraction other before behind (keeps _ (fun apart => apart.stops.2) ends)
  | name c cs rest starts continues ends =>
    exact .name c cs other starts continues (keeps _ (fun apart => apart.stops.1) ends)

theorem head_append_of_apart (rest behind : List Char) (apart : Apart behind) :
    (rest ++ behind).head? = rest.head? ∨ Apart (rest ++ behind) := by
  cases rest with
  | nil => exact Or.inr apart
  | cons c cs => exact Or.inl rfl

/-! ## A text in front of another one -/

theorem front_append_lexeme {c : Char} {cs text rest : List Char} {kind : Kind}
    (read : front c cs = .lexeme kind text rest) (behind : List Char) (apart : Apart behind) :
    front c (cs ++ behind) = .lexeme kind text (rest ++ behind) := by
  obtain ⟨split, lexeme⟩ := (front_eq_lexeme_iff c cs text rest kind).mp read
  apply (front_eq_lexeme_iff c (cs ++ behind) text (rest ++ behind) kind).mpr
  refine ⟨?_, lexeme.before _ (head_append_of_apart rest behind apart)⟩
  rw [← List.append_assoc, split, List.cons_append]

theorem number_of_parts (whole fraction rest : List Char)
    (before : ∀ c ∈ whole, c.isDigit = true) (between : ∀ c ∈ fraction, c.isDigit = true)
    (stops : Stops Char.isDigit rest) :
    number (whole ++ '.' :: (fraction ++ rest)) =
      if rest.head? = some '.' then .malformed (whole.length + 1 + fraction.length)
      else if fraction = [] then .malformed whole.length
      else .lexeme .number (whole ++ '.' :: fraction) rest := by
  rw [number, takeWhile_piece _ whole _ before (stops_point _),
    dropWhile_piece _ whole _ before (stops_point _)]
  simp only [takeWhile_piece _ fraction rest between stops,
    dropWhile_piece _ fraction rest between stops]

/-- A number is at fault only if it has a point. -/
theorem parts_of_malformed {cs : List Char} {offset : Nat} (read : number cs = .malformed offset) :
    ∃ whole fraction rest, cs = whole ++ '.' :: (fraction ++ rest) ∧
      (∀ c ∈ whole, c.isDigit = true) ∧ (∀ c ∈ fraction, c.isDigit = true) ∧
      Stops Char.isDigit rest := by
  have split := List.takeWhile_append_dropWhile (p := Char.isDigit) (l := cs)
  cases point : cs.dropWhile Char.isDigit with
  | nil => simp [number, point] at read
  | cons c behind =>
    by_cases is : c = '.'
    · refine ⟨cs.takeWhile Char.isDigit, behind.takeWhile Char.isDigit,
        behind.dropWhile Char.isDigit, ?_, fun _ => List.mem_takeWhile_imp,
        fun _ => List.mem_takeWhile_imp, stops_dropWhile _ behind⟩
      rw [List.takeWhile_append_dropWhile, ← is, ← point, split]
    · simp [number, point, is] at read

theorem number_append_malformed {cs : List Char} {offset : Nat}
    (read : number cs = .malformed offset) (behind : List Char) (apart : Apart behind) :
    number (cs ++ behind) = .malformed offset := by
  obtain ⟨whole, fraction, rest, rfl, before, between, stops⟩ := parts_of_malformed read
  obtain ⟨noDigit, noPoint⟩ := stops_continuesNumber behind apart.stops.2
  have first : (rest ++ behind).head? = some '.' ↔ rest.head? = some '.' := by
    cases rest with
    | nil => simp [noPoint]
    | cons c cs => rfl
  have stops' : Stops Char.isDigit (rest ++ behind) := by
    cases rest with
    | nil => exact noDigit
    | cons c cs => exact stops_of_head _ (c :: cs) _ rfl stops
  rw [number_of_parts whole fraction rest before between stops] at read
  have joined : whole ++ '.' :: (fraction ++ rest) ++ behind =
      whole ++ '.' :: (fraction ++ (rest ++ behind)) := by simp
  rw [joined, number_of_parts whole fraction (rest ++ behind) before between stops']
  by_cases again : rest.head? = some '.'
  · rw [if_pos again] at read
    rw [if_pos (first.mpr again)]
    exact read
  · rw [if_neg again] at read
    rw [if_neg (mt first.mp again)]
    by_cases missing : fraction = []
    · rw [if_pos missing] at read ⊢
      exact read
    · rw [if_neg missing] at read
      cases read

theorem front_append_malformed {c : Char} {cs : List Char} {offset : Nat}
    (read : front c cs = .malformed offset) (behind : List Char) (apart : Apart behind) :
    front c (cs ++ behind) = .malformed offset := by
  unfold front at read ⊢
  split at read
  · cases read
  · split at read
    · rename_i starts
      rw [if_pos starts]
      exact number_append_malformed read behind apart
    · split at read <;> cases read

theorem number_ne_unknown (cs : List Char) (character : Char) :
    number cs ≠ .unknown character := by
  unfold number
  split
  · dsimp only
    split
    · simp
    · split <;> simp
  · simp

theorem front_append_unknown {c : Char} {cs : List Char} {character : Char}
    (read : front c cs = .unknown character) (behind : List Char) :
    front c (cs ++ behind) = .unknown character := by
  unfold front at read ⊢
  split at read
  · cases read
  · split at read
    · exact absurd read (number_ne_unknown _ _)
    · rename_i noNumber
      rw [if_neg noNumber]
      split at read
      · cases read
      · rename_i noName
        rw [if_neg noName]
        exact read

theorem Scan.followedBy_push (token : Token) (ordinary : token.isFinish = false)
    (first second : Scan) :
    (first.push token).followedBy second = (first.followedBy second).push token := by
  obtain ⟨tokens, failure⟩ := first
  cases failure with
  | some error => rfl
  | none => simp only [Scan.followedBy, Scan.push, Scan.prepend, body_cons token ordinary,
      List.cons_append]

theorem Scan.followedBy_end (position : Nat) (second : Scan) :
    Scan.followedBy ⟨[atEnd position], none⟩ second = second := rfl

/-- Behind a text that is followed by a blank or a symbol, scanning goes on as if it started there,
unless it has failed already. -/
theorem scan_append (cs behind : List Char) (apart : Apart behind) (position : Nat) :
    scan position (cs ++ behind) =
      (scan position cs).followedBy (scan (position + cs.length) behind) := by
  induction position, cs using scan.induct with
  | case1 position =>
    rw [scan_nil, Scan.followedBy_end]
    rfl
  | case2 position c cs blank ih =>
    have length : position + (c :: cs).length = position + 1 + cs.length := by
      simp only [List.length_cons]
      omega
    rw [List.cons_append, scan_blank blank, scan_blank blank, ih, length]
  | case3 position c cs solid kind text rest read ih =>
    have notBlank : isBlank c = false := by simpa using solid
    have ordinary : (⟨kind, String.ofList text, position⟩ : Token).isFinish = false :=
      beq_false_of_ne (lexeme_of_front read).kind_ne_finish
    have length : position + (c :: cs).length = position + text.length + rest.length := by
      rw [← front_append read, List.length_append]
      omega
    rw [List.cons_append, scan_lexeme notBlank (front_append_lexeme read behind apart),
      scan_lexeme notBlank read, ih, Scan.followedBy_push _ ordinary, length]
  | case4 position c cs solid offset read =>
    have notBlank : isBlank c = false := by simpa using solid
    rw [List.cons_append, scan_malformed notBlank (front_append_malformed read behind apart),
      scan_malformed notBlank read]
    rfl
  | case5 position c cs solid character read =>
    have notBlank : isBlank c = false := by simpa using solid
    rw [List.cons_append, scan_unknown notBlank (front_append_unknown read behind),
      scan_unknown notBlank read]
    rfl

/-! ## A text that is cut -/

/-- The place behind `cut` characters is inside no token. -/
def Between (cut : Nat) (tokens : List Token) : Prop :=
  ∀ token ∈ tokens, ¬ (token.position < cut ∧ cut < token.stop)

theorem scan_cut_in_front (cs : List Char) (position : Nat) :
    (scan position []).failure = none ∧
      scan position cs = (scan position []).followedBy (scan position cs) := by
  rw [scan_nil, Scan.followedBy_end]
  exact ⟨rfl, rfl⟩

/-- A cut that is not inside the first lexeme is behind it. -/
theorem cut_behind_lexeme (text rest before behind : List Char)
    (split : text ++ rest = before ++ behind) (outside : text.length ≤ before.length) :
    ∃ after, before = text ++ after ∧ rest = after ++ behind := by
  rcases List.append_eq_append_iff.mp split with ⟨after, rfl, rfl⟩ | ⟨inner, rfl, rfl⟩
  · exact ⟨after, rfl, rfl⟩
  · have empty : inner = [] := by
      apply List.eq_nil_of_length_eq_zero
      simp only [List.length_append] at outside
      omega
    subst empty
    exact ⟨[], by simp, rfl⟩

theorem scan_cut (before behind : List Char) (position : Nat)
    (success : (scan position (before ++ behind)).failure = none)
    (between : Between (position + before.length) (scan position (before ++ behind)).tokens) :
    (scan position before).failure = none ∧
      scan position (before ++ behind) =
        (scan position before).followedBy (scan (position + before.length) behind) := by
  generalize whole : before ++ behind = cs at success between
  induction position, cs using scan.induct generalizing before with
  | case1 position =>
    obtain ⟨rfl, rfl⟩ := List.append_eq_nil_iff.mp whole
    exact scan_cut_in_front [] position
  | case2 position c cs blank ih =>
    cases before with
    | nil =>
      subst whole
      exact scan_cut_in_front (c :: cs) position
    | cons d before =>
      obtain ⟨rfl, split⟩ := List.cons.inj whole
      have length : position + (d :: before).length = position + 1 + before.length := by
        simp only [List.length_cons]
        omega
      rw [scan_blank blank] at success between
      rw [length] at between
      rw [scan_blank blank, scan_blank blank, length]
      exact ih before split success between
  | case3 position c cs solid kind text rest read ih =>
    have notBlank : isBlank c = false := by simpa using solid
    have lexeme := lexeme_of_front read
    have ordinary : (⟨kind, String.ofList text, position⟩ : Token).isFinish = false :=
      beq_false_of_ne lexeme.kind_ne_finish
    by_cases empty : before = []
    · subst empty whole
      exact scan_cut_in_front (c :: cs) position
    · rw [scan_lexeme notBlank read] at success between
      obtain ⟨outside, later⟩ := List.forall_mem_cons.mp between
      have positive := List.length_pos_iff.mpr empty
      simp only [Token.stop, String.length_ofList] at outside
      obtain ⟨after, rfl, rfl⟩ := cut_behind_lexeme text rest before behind
        ((front_append read).trans whole.symm) (by omega)
      have length : position + (text ++ after).length = position + text.length + after.length := by
        rw [List.length_append]
        omega
      rw [length] at later
      obtain ⟨passes, joined⟩ := ih after rfl success later
      have cut : Lexeme kind text after := by
        apply lexeme.before
        cases after with
        | nil => exact Or.inr apart_nil
        | cons d after => exact Or.inl rfl
      rw [scan_text cut, scan_lexeme notBlank read, joined, Scan.followedBy_push _ ordinary, length]
      exact ⟨passes, rfl⟩
  | case4 position c cs solid offset read =>
    rw [scan_malformed (by simpa using solid) read] at success
    cases success
  | case5 position c cs solid character read =>
    rw [scan_unknown (by simpa using solid) read] at success
    cases success

end Token

end Formula
