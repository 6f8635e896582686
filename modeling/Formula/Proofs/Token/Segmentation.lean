import Formula.Proofs.Display.Scan

/-!
# Texts that split into lexemes

A segmentation writes a text as lexemes with blanks before, between and behind them, where no
lexeme could be longer. The main statements say that a text has at most one segmentation, that
scanning succeeds exactly on the texts that have one, and that the tokens are then its lexemes,
each at the number of characters before it, and the end of the text.
-/

set_option autoImplicit false

namespace Formula.Token

open Character

/-- A lexeme and the blanks in front of it. -/
structure Segment where
  blanks : List Char
  kind : Kind
  text : List Char

def Segment.characters (segment : Segment) : List Char := segment.blanks ++ segment.text

def Segment.token (segment : Segment) (position : Nat) : Token :=
  ⟨segment.kind, String.ofList segment.text, position + segment.blanks.length⟩

def spell (segments : List Segment) : List Char := segments.flatMap Segment.characters

/-- Blanks are blank, and each lexeme is as long as it can be in front of what follows it. -/
def Longest (trailing : List Char) : List Segment → Prop
  | [] => ∀ c ∈ trailing, isBlank c = true
  | segment :: behind =>
    (∀ c ∈ segment.blanks, isBlank c = true) ∧
      Lexeme segment.kind segment.text (spell behind ++ trailing) ∧ Longest trailing behind

structure Segmentation (text : List Char) where
  segments : List Segment
  trailing : List Char
  spelled : spell segments ++ trailing = text
  longest : Longest trailing segments

def placed (position : Nat) : List Segment → List Token
  | [] => []
  | segment :: behind =>
    segment.token position :: placed (position + segment.characters.length) behind

def Segmentation.tokens {text : List Char} (segmentation : Segmentation text) : List Token :=
  placed 0 segmentation.segments ++ [atEnd text.length]

theorem spell_cons (segment : Segment) (behind : List Segment) (trailing : List Char) :
    spell (segment :: behind) ++ trailing =
      segment.blanks ++ (segment.text ++ (spell behind ++ trailing)) := by
  simp only [spell, List.flatMap_cons, Segment.characters, List.append_assoc]

/-! ## Scanning a segmentation -/

theorem scan_blanks (blanks rest : List Char) (blank : ∀ c ∈ blanks, isBlank c = true)
    (position : Nat) :
    scan position (blanks ++ rest) = scan (position + blanks.length) rest := by
  induction blanks generalizing position with
  | nil => rfl
  | cons c blanks ih =>
    have first := blank c List.mem_cons_self
    have others : ∀ d ∈ blanks, isBlank d = true :=
      fun d member => blank d (List.mem_cons_of_mem c member)
    rw [List.cons_append, scan_blank first, ih others, List.length_cons]
    congr 1
    omega

def Leading (behind : List Char) : List Segment → Prop
  | [] => True
  | segment :: later =>
    (∀ c ∈ segment.blanks, isBlank c = true) ∧
      Lexeme segment.kind segment.text (spell later ++ behind) ∧ Leading behind later

theorem longest_iff (trailing : List Char) (segments : List Segment) :
    Longest trailing segments ↔
      Leading trailing segments ∧ ∀ c ∈ trailing, isBlank c = true := by
  induction segments with
  | nil => simp only [Longest, Leading, true_and]
  | cons segment behind ih => simp only [Longest, Leading, ih, and_assoc]

/-- The segments in front of a text are scanned first, and then the text. -/
theorem scan_leading (segments : List Segment) (behind : List Char)
    (leading : Leading behind segments) (position : Nat) :
    scan position (spell segments ++ behind) =
      (scan (position + (spell segments).length) behind).prepend (placed position segments) := by
  induction segments generalizing position with
  | nil => rfl
  | cons segment later ih =>
    obtain ⟨blank, lexeme, leading⟩ := leading
    have inner := ih leading (position + segment.blanks.length + segment.text.length)
    have length : position + (spell (segment :: later)).length =
        position + segment.blanks.length + segment.text.length + (spell later).length := by
      simp only [spell, List.flatMap_cons, Segment.characters, List.length_append]
      omega
    rw [spell_cons, scan_blanks _ _ blank, scan_text lexeme, inner, length]
    simp only [Scan.push, Scan.prepend, placed, Segment.token, Segment.characters,
      List.length_append, List.cons_append, Nat.add_assoc]

theorem scan_leading_blanks (segments : List Segment) (blanks behind : List Char)
    (leading : Leading (blanks ++ behind) segments) (blank : ∀ c ∈ blanks, isBlank c = true)
    (position : Nat) :
    scan position (spell segments ++ (blanks ++ behind)) =
      (scan (position + (spell segments ++ blanks).length) behind).prepend
        (placed position segments) := by
  rw [scan_leading segments _ leading, scan_blanks blanks _ blank, List.length_append,
    Nat.add_assoc]

theorem scan_segments (segments : List Segment) (trailing : List Char)
    (longest : Longest trailing segments) (position : Nat) :
    scan position (spell segments ++ trailing) =
      ⟨placed position segments ++
        [atEnd (position + (spell segments ++ trailing).length)], none⟩ := by
  obtain ⟨leading, blank⟩ := (longest_iff trailing segments).mp longest
  have scanned := scan_leading_blanks segments trailing [] (by rwa [List.append_nil]) blank position
  rw [List.append_nil, scan_nil] at scanned
  exact scanned

/-! ## Lexemes as far as they go -/

structure Stuck (c : Char) (rest : List Char) : Prop where
  solid : isBlank c = false
  noLexeme : ∀ kind text behind, text ++ behind = c :: rest → ¬ Lexeme kind text behind

theorem stuck_of_front {c : Char} {cs : List Char} (solid : isBlank c = false)
    (noLexeme : ∀ kind text rest, front c cs ≠ .lexeme kind text rest) : Stuck c cs where
  solid := solid
  noLexeme := by
    intro kind text behind split lexeme
    exact noLexeme kind text behind
      ((front_eq_lexeme_iff c cs text behind kind).mpr ⟨split, lexeme⟩)

theorem Stuck.scan {c : Char} {rest : List Char} (stuck : Stuck c rest) (position : Nat) :
    ∃ error, Token.scan position (c :: rest) = ⟨[], some error⟩ := by
  cases read : front c rest with
  | lexeme kind text behind =>
    obtain ⟨split, lexeme⟩ := (front_eq_lexeme_iff c rest text behind kind).mp read
    exact absurd lexeme (stuck.noLexeme kind text behind split)
  | malformed offset => exact ⟨_, scan_malformed stuck.solid read position⟩
  | unknown character => exact ⟨_, scan_unknown stuck.solid read position⟩

/-- One more blank in front of a text goes to the first lexeme, or behind all lexemes. -/
theorem leading_blank (c : Char) (is : isBlank c = true) (segments : List Segment)
    (blanks rest : List Char) (leading : Leading (blanks ++ rest) segments)
    (blank : ∀ d ∈ blanks, isBlank d = true) :
    ∃ segments' blanks', spell segments' ++ (blanks' ++ rest) =
        c :: (spell segments ++ (blanks ++ rest)) ∧
      Leading (blanks' ++ rest) segments' ∧ ∀ d ∈ blanks', isBlank d = true := by
  cases segments with
  | nil => exact ⟨[], c :: blanks, rfl, trivial, List.forall_mem_cons.mpr ⟨is, blank⟩⟩
  | cons segment behind =>
    obtain ⟨before, lexeme, leading⟩ := leading
    refine ⟨⟨c :: segment.blanks, segment.kind, segment.text⟩ :: behind, blanks, ?_,
      ⟨List.forall_mem_cons.mpr ⟨is, before⟩, lexeme, leading⟩, blank⟩
    rw [spell_cons, spell_cons, List.cons_append]

/-- Every text is lexemes up to its end or up to a character at which none starts. -/
theorem exists_leading (position : Nat) (cs : List Char) :
    ∃ segments blanks rest, spell segments ++ (blanks ++ rest) = cs ∧
      Leading (blanks ++ rest) segments ∧ (∀ c ∈ blanks, isBlank c = true) ∧
      ∀ c behind, rest = c :: behind → Stuck c behind := by
  have stops : ∀ c behind, Stuck c behind → ∃ segments blanks rest,
      spell segments ++ (blanks ++ rest) = c :: behind ∧ Leading (blanks ++ rest) segments ∧
        (∀ c ∈ blanks, isBlank c = true) ∧ ∀ d later, rest = d :: later → Stuck d later := by
    intro c behind stuck
    refine ⟨[], [], c :: behind, rfl, trivial, by simp, ?_⟩
    rintro d later ⟨⟩
    exact stuck
  induction position, cs using scan.induct with
  | case1 position => exact ⟨[], [], [], rfl, trivial, by simp, by simp⟩
  | case2 position c cs blank ih =>
    obtain ⟨segments, blanks, rest, rfl, leading, blankAfter, stuck⟩ := ih
    obtain ⟨segments', blanks', spelled, leading, blankAfter⟩ :=
      leading_blank c blank segments blanks rest leading blankAfter
    exact ⟨segments', blanks', rest, spelled, leading, blankAfter, stuck⟩
  | case3 position c cs solid kind text rest read ih =>
    obtain ⟨segments, blanks, left, rfl, leading, blank, stuck⟩ := ih
    refine ⟨⟨[], kind, text⟩ :: segments, blanks, left, ?_,
      ⟨by simp, lexeme_of_front read, leading⟩, blank, stuck⟩
    rw [spell_cons, List.nil_append, front_append read]
  | case4 position c cs solid offset read =>
    exact stops c cs (stuck_of_front (by simpa using solid) fun _ _ _ => by rw [read]; simp)
  | case5 position c cs solid character read =>
    exact stops c cs (stuck_of_front (by simpa using solid) fun _ _ _ => by rw [read]; simp)

/-! ## A segmentation from scanning -/

theorem longest_of_scan (position : Nat) (cs : List Char)
    (success : (scan position cs).failure = none) :
    ∃ segments trailing, Longest trailing segments ∧ spell segments ++ trailing = cs := by
  obtain ⟨segments, blanks, rest, rfl, leading, blank, stuck⟩ := exists_leading position cs
  cases rest with
  | nil =>
    rw [List.append_nil] at leading ⊢
    exact ⟨segments, blanks, (longest_iff blanks segments).mpr ⟨leading, blank⟩, rfl⟩
  | cons c behind =>
    obtain ⟨error, fails⟩ := (stuck c behind rfl).scan
      (position + (spell segments ++ blanks).length)
    rw [scan_leading_blanks segments blanks _ leading blank, fails] at success
    cases success

/-! ## Only one segmentation -/

/-- The blanks at the front are taken whole, because a lexeme does not start with one. -/
theorem blanks_unique (blanks : List Char) {kind : Kind} {text rest : List Char}
    (blank : ∀ c ∈ blanks, isBlank c = true) (lexeme : Lexeme kind text rest) :
    (blanks ++ (text ++ rest)).takeWhile isBlank = blanks ∧
      (blanks ++ (text ++ rest)).dropWhile isBlank = text ++ rest := by
  obtain ⟨c, cs, rfl, solid, -⟩ := front_of_lexeme lexeme
  have stops : Stops isBlank (c :: cs ++ rest) := stops_cons _ _ _ solid
  exact ⟨takeWhile_piece _ _ _ blank stops, dropWhile_piece _ _ _ blank stops⟩

theorem lexeme_unique {kind kind' : Kind} {text text' rest rest' : List Char}
    (lexeme : Lexeme kind text rest) (lexeme' : Lexeme kind' text' rest')
    (same : text ++ rest = text' ++ rest') : kind = kind' ∧ text = text' ∧ rest = rest' := by
  obtain ⟨c, cs, rfl, -, read⟩ := front_of_lexeme lexeme
  have read' := (front_eq_lexeme_iff c (cs ++ rest) text' rest' kind').mpr ⟨same.symm, lexeme'⟩
  rw [read] at read'
  cases read'
  exact ⟨rfl, rfl, rfl⟩

theorem not_all_blank {kind : Kind} {text rest : List Char} (lexeme : Lexeme kind text rest)
    (blanks : List Char) : ¬ ∀ c ∈ blanks ++ (text ++ rest), isBlank c = true := by
  obtain ⟨c, cs, rfl, solid, -⟩ := front_of_lexeme lexeme
  intro all
  rw [all c (by simp)] at solid
  cases solid

theorem segments_unique (segments segments' : List Segment) (trailing trailing' : List Char)
    (longest : Longest trailing segments) (longest' : Longest trailing' segments')
    (same : spell segments ++ trailing = spell segments' ++ trailing') :
    segments = segments' ∧ trailing = trailing' := by
  induction segments generalizing segments' with
  | nil =>
    cases segments' with
    | nil => exact ⟨rfl, same⟩
    | cons segment' behind' =>
      have only : trailing = spell (segment' :: behind') ++ trailing' := same
      rw [spell_cons] at only
      subst only
      exact absurd longest (not_all_blank longest'.2.1 segment'.blanks)
  | cons segment behind ih =>
    cases segments' with
    | nil =>
      have only : spell (segment :: behind) ++ trailing = trailing' := same
      rw [spell_cons] at only
      subst only
      exact absurd longest' (not_all_blank longest.2.1 segment.blanks)
    | cons segment' behind' =>
      obtain ⟨blank, lexeme, longest⟩ := longest
      obtain ⟨blank', lexeme', longest'⟩ := longest'
      rw [spell_cons, spell_cons] at same
      have front := blanks_unique segment.blanks blank lexeme
      have front' := blanks_unique segment'.blanks blank' lexeme'
      rw [same] at front
      have sameBlanks := front.1.symm.trans front'.1
      obtain ⟨sameKind, sameText, sameRest⟩ :=
        lexeme_unique lexeme lexeme' (front.2.symm.trans front'.2)
      obtain ⟨rfl, rfl⟩ := ih behind' longest longest' sameRest
      cases segment
      cases segment'
      cases sameBlanks
      cases sameKind
      cases sameText
      exact ⟨rfl, rfl⟩

theorem placed_not_finish (position : Nat) (segments : List Segment) (trailing : List Char)
    (longest : Longest trailing segments) :
    ∀ token ∈ placed position segments, token.isFinish = false := by
  induction segments generalizing position with
  | nil => simp [placed]
  | cons segment behind ih =>
    obtain ⟨-, lexeme, longest⟩ := longest
    exact List.forall_mem_cons.mpr
      ⟨beq_false_of_ne lexeme.kind_ne_finish, ih _ longest⟩

/-- A scan that succeeds has the end of the text as its last token, and only there. -/
theorem tokens_of_scan (position : Nat) (cs : List Char)
    (success : (scan position cs).failure = none) :
    ∃ tokens, (scan position cs).tokens = tokens ++ [atEnd (position + cs.length)] ∧
      ∀ token ∈ tokens, token.isFinish = false := by
  obtain ⟨segments, trailing, longest, rfl⟩ := longest_of_scan position cs success
  refine ⟨placed position segments, ?_, placed_not_finish position segments trailing longest⟩
  rw [scan_segments segments trailing longest]

/-! ## Which texts are tokens -/

theorem tokenize_eq_ok_iff (text : String) (tokens : List Token) :
    tokenize text = .ok tokens ↔ scan 0 text.toList = ⟨tokens, none⟩ := by
  cases scanned : scan 0 text.toList with
  | mk found failure =>
    simp only [tokenize, scanned, Scan.result]
    cases failure <;> simp

theorem tokenize_eq_error_iff (text : String) (error : LexicalError) :
    tokenize text = .error error ↔ (scan 0 text.toList).failure = some error := by
  cases scanned : scan 0 text.toList with
  | mk found failure =>
    simp only [tokenize, scanned, Scan.result]
    cases failure <;> simp

theorem Segmentation.scan {text : List Char} (segmentation : Segmentation text) :
    Token.scan 0 text = ⟨segmentation.tokens, none⟩ := by
  have scanned := scan_segments segmentation.segments segmentation.trailing segmentation.longest 0
  rw [segmentation.spelled, Nat.zero_add] at scanned
  exact scanned

/-- The end of the text is the last token, and no other one. -/
theorem tokens_of_tokenize (text : String) (tokens : List Token)
    (success : tokenize text = .ok tokens) :
    ∃ front, tokens = front ++ [atEnd text.length] ∧ ∀ token ∈ front, token.isFinish = false := by
  have scanned := (tokenize_eq_ok_iff text tokens).mp success
  obtain ⟨front, split, ordinary⟩ := tokens_of_scan 0 text.toList (by rw [scanned])
  rw [scanned, Nat.zero_add, String.length_toList] at split
  exact ⟨front, split, ordinary⟩

/-- The tokens of a text have its end among them. -/
theorem any_isFinish_of_tokenize (text : String) (tokens : List Token)
    (success : tokenize text = .ok tokens) : tokens.any isFinish = true := by
  obtain ⟨front, rfl, -⟩ := tokens_of_tokenize text tokens success
  rw [List.any_append, Bool.or_eq_true]
  exact Or.inr rfl

theorem tokenize_iff_segmentation (text : String) :
    (∀ tokens, tokenize text = .ok tokens ↔
      ∃ segmentation : Segmentation text.toList, segmentation.tokens = tokens) ∧
    (∀ segmentation other : Segmentation text.toList, segmentation = other) ∧
    ∀ segmentation : Segmentation text.toList, ∃ tokens,
      segmentation.tokens = tokens ++ [atEnd text.length] ∧
        ∀ token ∈ tokens, token.isFinish = false := by
  refine ⟨?_, ?_, ?_⟩
  · intro tokens
    constructor
    · intro success
      cases failure : (scan 0 text.toList).failure with
      | some error =>
        simp only [tokenize, Scan.result, failure] at success
        cases success
      | none =>
        obtain ⟨segments, trailing, longest, spelled⟩ := longest_of_scan 0 text.toList failure
        refine ⟨⟨segments, trailing, spelled, longest⟩, ?_⟩
        rw [tokenize, Segmentation.scan ⟨segments, trailing, spelled, longest⟩] at success
        exact Except.ok.inj success
    · rintro ⟨segmentation, rfl⟩
      rw [tokenize, segmentation.scan]
      rfl
  · rintro ⟨segments, trailing, spelled, longest⟩ ⟨segments', trailing', spelled', longest'⟩
    obtain ⟨rfl, rfl⟩ := segments_unique segments segments' trailing trailing' longest longest'
      (spelled.trans spelled'.symm)
    rfl
  · intro segmentation
    refine ⟨placed 0 segmentation.segments, ?_,
      placed_not_finish 0 _ segmentation.trailing segmentation.longest⟩
    rw [Segmentation.tokens, String.length_toList]

end Formula.Token
