import Formula.Proofs.Calculation.Log
import Formula.Proofs.Expr.Variables
import Formula.Proofs.Token.Literal

/-!
# The inputs of a text

The variables that are listed for a text are its inputs: they are the variables among its tokens,
its value depends on their bindings and on no others, and it has no value before all of them are
bound. No keyword is among them.
-/

set_option autoImplicit false

namespace Formula

open Token Grammar

/-! ## Variables among the tokens -/

namespace Token

theorem mem_variableNames (name : String) (tokens : List Token) :
    name ∈ variableNames tokens ↔ ∃ token ∈ tokens, token.kind = .var ∧ token.text = name := by
  unfold variableNames varName?
  simp only [List.mem_filterMap, Option.ite_none_right_eq_some, Option.some.injEq]

theorem not_keyword_of_var (text : String) (tokens : List Token)
    (scanned : tokenize text = .ok tokens) (token : Token) (member : token ∈ tokens)
    (is : token.kind = .var) : token.text ∉ keywords := by
  have ordinary : token.isFinish = false := by rw [isFinish, is]; rfl
  obtain ⟨rest, lexeme⟩ := lexeme_of_tokenize text tokens scanned token member ordinary
  have named := lexeme.not_keyword is
  rwa [String.ofList_toList] at named

end Token

namespace Calculation

/-! ## Values and bindings -/

theorem find?_of_bits (env env' : Environment) (name : String)
    (same : (env.find? name).map Float.toBits = (env'.find? name).map Float.toBits) :
    env.find? name = env'.find? name :=
  Option.map_injective (fun _ _ bits => Float.toBits_inj.mp bits) same

theorem calculate_congr (env env' : Environment) (text : String) (tree : Expr)
    (accepted : Expr.ofText Expr.defaultLimit text = .ok tree)
    (agree : ∀ name ∈ tree.names, env.find? name = env'.find? name) :
    calculate env text = calculate env' text := by
  have same : tree.eval env = tree.eval env' :=
    Expr.eval_congr env env' tree fun name member =>
      agree name ((Expr.mem_names name tree).mpr member)
  rw [calculate_of_ofText env text tree accepted, calculate_of_ofText env' text tree accepted, same]

theorem variables_are_inputs (text : String) (tree : Expr)
    (accepted : Expr.ofText Expr.defaultLimit text = .ok tree) :
    (∃ tokens, tokenize text = .ok tokens ∧
      ∀ name, name ∈ tree.names ↔ ∃ token ∈ tokens, token.kind = .var ∧ token.text = name) ∧
    tree.names.Pairwise (· < ·) ∧
    (∀ name ∈ keywords, name ∉ tree.names) ∧
    (∀ env env' : Environment,
      (∀ name ∈ tree.names,
        (env.find? name).map Float.toBits = (env'.find? name).map Float.toBits) →
      calculate env text = calculate env' text) ∧
    (∀ (env : Environment) (name : String), name ∉ tree.names →
      (∀ value, calculate (env.insert name value) text = calculate env text) ∧
        calculate (env.erase name) text = calculate env text) ∧
    ∀ env : Environment, (∃ name ∈ tree.names, env.find? name = none) →
      ∃ error, calculate env text = .error (.evaluation error) := by
  obtain ⟨tokens, scanned, reading⟩ := (ofText_eq_ok_iff _ text tree).mp accepted
  have names : ∀ name, name ∈ tree.names ↔
      ∃ token ∈ tokens, token.kind = .var ∧ token.text = name := by
    intro name
    rw [Expr.mem_names, occurrences_of_tokens _ text tokens tree scanned reading,
      mem_variableNames]
  refine ⟨⟨tokens, scanned, names⟩, tree.ascending_names, ?_, ?_, ?_, ?_⟩
  · intro name keyword member
    obtain ⟨token, among, is, rfl⟩ := (names name).mp member
    exact not_keyword_of_var text tokens scanned token among is keyword
  · intro env env' same
    exact calculate_congr env env' text tree accepted fun name member =>
      find?_of_bits env env' name (same name member)
  · intro env name unused
    have other : ∀ used ∈ tree.names, used ≠ name := by
      rintro used member rfl
      exact unused member
    refine ⟨?_, ?_⟩
    · intro value
      apply calculate_congr _ env text tree accepted
      intro used member
      rw [Environment.find?_insert, if_neg (other used member)]
    · apply calculate_congr _ env text tree accepted
      intro used member
      rw [Environment.find?_erase, if_neg (other used member)]
  · rintro env ⟨name, member, unbound⟩
    rw [calculate_of_ofText env text tree accepted]
    cases outcome : tree.eval env with
    | error error => exact ⟨error, rfl⟩
    | ok value =>
      obtain ⟨bound, found⟩ := bound_of_value env tree value outcome name member
      rw [unbound] at found
      cases found

def wave : Expr := .binary .mul (.var "a") (.call .sin (.binary .mul .pi (.var "t")))

theorem wave_depends_on_two_names :
    Expr.ofText Expr.defaultLimit "a*sin(pi*t)" = .ok wave ∧
    wave.names = ["a", "t"] ∧
    (∀ (env : Environment) (value : Float),
      calculate (env.insert "pi" value) "a*sin(pi*t)" = calculate env "a*sin(pi*t)") ∧
    ∃ error, calculate bindingMinusZero "a*sin(pi*t)" = .error (.evaluation error) := by
  have accepted : Expr.ofText Expr.defaultLimit "a*sin(pi*t)" = .ok wave := by decide +kernel
  have names : wave.names = ["a", "t"] := by decide +kernel
  obtain ⟨-, -, reserved, -, unused, unbound⟩ := variables_are_inputs "a*sin(pi*t)" wave accepted
  refine ⟨accepted, names, ?_, ?_⟩
  · intro env
    exact (unused env "pi" (reserved "pi" (by decide))).1
  · exact unbound bindingMinusZero ⟨"t", by rw [names]; decide, by decide⟩

end Calculation

end Formula
