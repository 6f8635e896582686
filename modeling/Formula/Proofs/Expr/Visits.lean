import Formula.Proofs.Expr.Variables

/-!
# The bindings that are read

Evaluation reads the bindings of the variables of a tree from left to right and without a gap. With
a value it has read them all; it stops short at an unbound variable or at another fault.
-/

set_option autoImplicit false

namespace Formula

/-- The bindings that were read on the way to an outcome belong to a front part of the variables. -/
structure Visits (env : Environment) (names : List String) (reads : List (String × Float))
    (outcome : Except EvaluationError Float) : Prop where
  bound : ∀ read ∈ reads, env.find? read.1 = some read.2
  inOrder : reads.map Prod.fst <+: names
  whole : ∀ value, outcome = .ok value → reads.map Prod.fst = names
  /-- The variable behind those that were read is the one without a binding. -/
  stopped : ∀ name, outcome = .error (.undefinedVariable name) →
    env.find? name = none ∧ reads.map Prod.fst ++ [name] <+: names

namespace Visits

variable {env : Environment} {names further : List String} {reads : List (String × Float)}

/-- What is done with a value reads nothing more. -/
theorem onward {value : Float} {outcome : Except EvaluationError Float}
    (visits : Visits env names reads (.ok value))
    (bound : ∀ name, outcome ≠ .error (.undefinedVariable name)) :
    Visits env names reads outcome where
  bound := visits.bound
  inOrder := visits.inOrder
  whole := fun _ _ => visits.whole value rfl
  stopped := fun name fails => absurd fails (bound name)

/-- Behind a fault nothing is read. -/
theorem append_of_error {error : EvaluationError} (visits : Visits env names reads (.error error)) :
    Visits env (names ++ further) reads (.error error) where
  bound := visits.bound
  inOrder := visits.inOrder.trans (List.prefix_append names further)
  whole := by
    intro value success
    cases success
  stopped := by
    intro name fails
    obtain ⟨unbound, next⟩ := visits.stopped name fails
    exact ⟨unbound, next.trans (List.prefix_append names further)⟩

theorem append {value : Float} {later : List (String × Float)}
    {outcome : Except EvaluationError Float} (visits : Visits env names reads (.ok value))
    (second : Visits env further later outcome) :
    Visits env (names ++ further) (reads ++ later) outcome where
  bound := by
    intro read member
    rcases List.mem_append.mp member with early | late
    · exact visits.bound read early
    · exact second.bound read late
  inOrder := by
    rw [List.map_append, visits.whole value rfl]
    exact (List.prefix_append_right_inj names).mpr second.inOrder
  whole := by
    intro last success
    rw [List.map_append, visits.whole value rfl, second.whole last success]
  stopped := by
    intro name fails
    obtain ⟨unbound, next⟩ := second.stopped name fails
    rw [List.map_append, visits.whole value rfl, List.append_assoc]
    exact ⟨unbound, (List.prefix_append_right_inj names).mpr next⟩

end Visits

theorem visits_number (env : Environment) (value : Float) : Visits env [] [] (.ok value) where
  bound := by simp
  inOrder := List.prefix_refl _
  whole := fun _ _ => rfl
  stopped := by
    intro name fails
    cases fails

theorem visits_bound (env : Environment) (name : String) (value : Float)
    (found : env.find? name = some value) : Visits env [name] [(name, value)] (.ok value) where
  bound := List.forall_mem_singleton.mpr found
  inOrder := List.prefix_refl _
  whole := fun _ _ => rfl
  stopped := by
    intro other fails
    cases fails

theorem visits_unbound (env : Environment) (name : String) (missing : env.find? name = none) :
    Visits env [name] [] (.error (.undefinedVariable name)) where
  bound := by simp
  inOrder := List.nil_prefix
  whole := by
    intro value success
    cases success
  stopped := by
    rintro _ ⟨⟩
    exact ⟨missing, List.prefix_refl _⟩

theorem apply_ne_undefined (op : Operator) (left right : Float) (name : String) :
    op.apply left right ≠ .error (.undefinedVariable name) := by
  cases op with
  | div =>
    simp only [Operator.apply]
    split <;> simp
  | _ => simp [Operator.apply]

/-- Evaluation reads the variables of a tree from left to right. -/
theorem visits_eval (env : Environment) (tree : Expr) :
    Visits env tree.occurrences (tree.reads env) (tree.eval env) := by
  induction tree with
  | number value => exact visits_number env value
  | var name =>
    simp only [Expr.occurrences, Expr.reads, Expr.eval]
    cases found : env.find? name with
    | some value => exact visits_bound env name value found
    | none => exact visits_unbound env name found
  | neg operand ih =>
    simp only [Expr.occurrences, Expr.reads, Expr.eval]
    cases inner : operand.eval env with
    | error error =>
      rw [inner] at ih
      exact ih
    | ok value =>
      rw [inner] at ih
      exact ih.onward fun _ => by simp
  | binary op left right leftIH rightIH =>
    simp only [Expr.occurrences, Expr.reads, Expr.eval]
    cases first : left.eval env with
    | error error =>
      rw [first] at leftIH
      exact leftIH.append_of_error
    | ok x =>
      rw [first] at leftIH
      have both := leftIH.append rightIH
      cases second : right.eval env with
      | error error =>
        rw [second] at both
        exact both
      | ok y =>
        rw [second] at both
        exact both.onward (apply_ne_undefined op x y)
  | call function argument ih =>
    simp only [Expr.occurrences, Expr.reads, Expr.eval]
    cases inner : argument.eval env with
    | error error =>
      rw [inner] at ih
      exact ih
    | ok value =>
      rw [inner] at ih
      exact ih.onward fun _ => by simp

/-- Evaluation reads every variable on the way to a value. -/
theorem bound_of_value (env : Environment) (tree : Expr) (value : Float)
    (success : tree.eval env = .ok value) (name : String) (member : name ∈ tree.names) :
    ∃ bound, env.find? name = some bound := by
  have visits := visits_eval env tree
  have all := visits.whole value success
  rw [Expr.mem_names, ← all] at member
  obtain ⟨read, reads, rfl⟩ := List.mem_map.mp member
  exact ⟨read.2, visits.bound read reads⟩

end Formula
