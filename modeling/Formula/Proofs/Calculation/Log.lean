import Formula.Event
import Formula.Proofs.Calculation.Composition
import Formula.Proofs.Expr.Visits
import Formula.Proofs.Grammar.Leaves
import Formula.Proofs.Token.Breakdown

/-!
# What the log of a calculation tells

The log names the tokens in order, then the tree, then the bindings that are read, and at last the
value. The bindings are those of the variables of the text from left to right, without a gap, and
where they stop short an unbound variable or another fault has ended the evaluation. A stage that
fails writes nothing, and neither does what would come behind it.
-/

set_option autoImplicit false

namespace Formula

open Token Grammar

/-! ## The variables of a text -/

namespace Token

def varName? (token : Token) : Option String :=
  if token.kind = .var then some token.text else none

/-- The names of the variables among tokens, one for each time a variable stands there. -/
def variableNames (tokens : List Token) : List String := tokens.filterMap varName?

theorem name?_of_leaf (token : Token) : (leaf? token).bind Expr.name? = varName? token := by
  unfold leaf? varName?
  cases token.kind with
  | number => cases Decimal.read? token.text <;> rfl
  | _ => rfl

theorem variableNames_eq (tokens : List Token) :
    variableNames tokens = (tokens.filterMap leaf?).filterMap Expr.name? := by
  rw [List.filterMap_filterMap, variableNames]
  congr 1
  funext token
  exact (name?_of_leaf token).symm

/-- Reading keeps the order of the variables. -/
theorem occurrences_of_tokens (limit : Nat) (text : String) (tokens : List Token) (tree : Expr)
    (scanned : tokenize text = .ok tokens) (reading : Expr.ofTokens limit tokens = .ok tree) :
    tree.occurrences = variableNames tokens := by
  have ended := tokens_eq_body text tokens scanned
  have leafless : leaf? (atEnd text.length) = none := rfl
  have leaves : tokens.filterMap leaf? = (body tokens).filterMap leaf? := by
    conv_lhs => rw [ended]
    rw [List.filterMap_append, List.filterMap_cons_none leafless, List.filterMap_nil,
      List.append_nil]
  rw [Expr.occurrences_eq_leaves, leaves_of_ofTokens tokens limit tree reading, variableNames_eq,
    leaves]

end Token

/-! ## The lines of the log -/

def Event.line (event : Event) : Bool × String := (event.isFine, event.message)

def log (env : Environment) (text : String) : List (Bool × String) :=
  (events env text).map Event.line

def lexedLine (token : Token) : Bool × String := (true, "lexed " ++ token.dump)

def tokenizedLine (characters tokens : Nat) : Bool × String :=
  (false, "tokenized " ++ characters.repr ++ " chars into " ++ tokens.repr ++ " tokens")

def parsedLine (tree : Expr) : Bool × String := (false, "parsed " ++ tree.display)

def readLine (read : String × Float) : Bool × String :=
  (true, read.1 ++ " = " ++ Decimal.text read.2)

def lastLines (tree : Expr) : Except EvaluationError Float → List (Bool × String)
  | .ok value => [(false, tree.display ++ " => " ++ Decimal.text value)]
  | .error _ => []

namespace Calculation

theorem log_of_breakdown (env : Environment) (text : String)
    (breakdown : Breakdown text.toList) :
    log env text = (placed 0 breakdown.segments).map lexedLine := by
  obtain ⟨error, scanned⟩ := breakdown.scan
  simp only [log, events, scanned, List.append_nil, List.map_map]
  rfl

/-- Behind the tokens stands what reading them and evaluating their tree adds. -/
theorem log_of_tokens (env : Environment) (text : String) (tokens : List Token)
    (scanned : tokenize text = .ok tokens) :
    log env text = tokens.map lexedLine ++ tokenizedLine text.length tokens.length ::
      (Token.events env tokens).map Event.line := by
  simp only [log, events, (tokenize_eq_ok_iff text tokens).mp scanned, List.map_append,
    List.map_map, List.map_cons]
  rfl

theorem lines_of_tree (env : Environment) (tree : Expr) :
    (tree.events env).map Event.line =
      (tree.reads env).map readLine ++ lastLines tree (tree.eval env) := by
  rw [Expr.events, List.map_append, List.map_map]
  congr 1
  cases tree.eval env <;> rfl

theorem log_tells_calculation (env : Environment) (text : String) :
    (∀ error, tokenize text = .error error →
      calculate env text = .error (.lexical error) ∧ Nonempty (Breakdown text.toList) ∧
        ∀ breakdown : Breakdown text.toList,
          log env text = (placed 0 breakdown.segments).map lexedLine) ∧
    ∀ tokens, tokenize text = .ok tokens →
      (∃ front, tokens = front ++ [atEnd text.length] ∧
        ∀ token ∈ front, token.isFinish = false) ∧
      ∃ later, log env text =
          tokens.map lexedLine ++ tokenizedLine text.length tokens.length :: later ∧
        (∀ error, Expr.ofTokens Expr.defaultLimit tokens = .error error →
          calculate env text = .error (.syntactic error) ∧ later = []) ∧
        ∀ tree, Expr.ofTokens Expr.defaultLimit tokens = .ok tree →
          ∃ reads outcome, calculate env text = outcome.mapError .evaluation ∧
            later = parsedLine tree :: (reads.map readLine ++ lastLines tree outcome) ∧
            Visits env (variableNames tokens) reads outcome := by
  refine ⟨?_, ?_⟩
  · intro error fails
    refine ⟨?_, (tokenize_error_iff text).mp ⟨error, fails⟩, log_of_breakdown env text⟩
    simp only [calculate, Expr.ofText, fails]
  · intro tokens scanned
    refine ⟨tokens_of_tokenize text tokens scanned, _, log_of_tokens env text tokens scanned, ?_, ?_⟩
    · intro error fails
      refine ⟨?_, ?_⟩
      · simp only [calculate, Expr.ofText, scanned, fails]
      · simp only [Token.events, fails, List.map_nil]
    · intro tree reading
      have accepted := (ofText_eq_ok_iff Expr.defaultLimit text tree).mpr ⟨tokens, scanned, reading⟩
      refine ⟨tree.reads env, tree.eval env, calculate_of_ofText env text tree accepted, ?_, ?_⟩
      · simp only [Token.events, reading, List.map_cons, lines_of_tree]
        rfl
      · rw [← occurrences_of_tokens _ text tokens tree scanned reading]
        exact visits_eval env tree

end Calculation

end Formula
