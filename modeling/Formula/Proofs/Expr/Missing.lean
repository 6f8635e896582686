import Formula.Proofs.Expr.Visits

/-!
# Variables without a binding

A tree has missing variables as long as evaluation can stop at one. More bindings change nothing of
an outcome but a variable that was unbound, so that binding the variable at which evaluation stops,
again and again, ends after as many rounds as there are missing variables.
-/

set_option autoImplicit false

namespace Formula

namespace Environment

def ExtendedBy (env more : Environment) : Prop :=
  ∀ name value, env.find? name = some value → more.find? name = some value

def adds (env more : Environment) (name : String) : Bool := more.binds name && !env.binds name

theorem ExtendedBy.binds {env more : Environment} (extended : env.ExtendedBy more) (name : String)
    (bound : env.binds name = true) : more.binds name = true := by
  obtain ⟨value, found⟩ := Option.isSome_iff_exists.mp bound
  exact Option.isSome_iff_exists.mpr ⟨value, extended name value found⟩

theorem extendedBy_insert (env : Environment) (name : String) (value : Float)
    (unbound : env.find? name = none) : env.ExtendedBy (env.insert name value) := by
  intro other bound found
  rw [find?_insert]
  split
  · rename_i same
    rw [same, unbound] at found
    cases found
  · exact found

end Environment

namespace Expr

variable (env : Environment) (tree : Expr)

/-! ## Missing variables and outcomes -/

theorem mem_missing (name : String) :
    name ∈ tree.missing env ↔ name ∈ tree.names ∧ env.find? name = none := by
  rw [missing, List.mem_filter, Environment.binds, Bool.not_eq_true', Option.isSome_eq_false_iff,
    Option.isNone_iff_eq_none]

/-- Evaluation stops at a missing variable only. -/
theorem mem_missing_of_eval (name : String)
    (stops : tree.eval env = .error (.undefinedVariable name)) : name ∈ tree.missing env := by
  obtain ⟨unbound, next⟩ := (visits_eval env tree).stopped name stops
  have member : name ∈ tree.occurrences := next.subset (List.mem_append_right _ (by simp))
  exact (mem_missing env tree name).mpr ⟨(mem_names name tree).mpr member, unbound⟩

theorem missing_of_eval (value : Float) (success : tree.eval env = .ok value) :
    tree.missing env = [] := by
  apply List.eq_nil_iff_forall_not_mem.mpr
  intro name member
  obtain ⟨listed, unbound⟩ := (mem_missing env tree name).mp member
  obtain ⟨bound, found⟩ := bound_of_value env tree value success name listed
  rw [unbound] at found
  cases found

theorem eval_of_missing (complete : tree.missing env = []) :
    (∃ value, tree.eval env = .ok value) ∨ tree.eval env = .error .divisionByZero := by
  cases outcome : tree.eval env with
  | ok value => exact Or.inl ⟨value, rfl⟩
  | error error =>
    cases error with
    | divisionByZero => exact Or.inr rfl
    | undefinedVariable name =>
      have member := mem_missing_of_eval env tree name outcome
      rw [complete] at member
      cases member

/-! ## More bindings -/

variable {env} {more : Environment}

theorem missing_extended (extended : env.ExtendedBy more) :
    tree.missing more = (tree.missing env).filter fun name => !env.adds more name := by
  rw [missing, missing, List.filter_filter]
  congr 1
  funext name
  have kept := extended.binds name
  unfold Environment.adds
  cases before : env.binds name with
  | false => cases more.binds name <;> rfl
  | true =>
    rw [kept before]
    rfl

/-- The outcome stays unless it is a variable that has got a binding. -/
theorem eval_extended (extended : env.ExtendedBy more)
    (unbound : ∀ name, tree.eval env = .error (.undefinedVariable name) →
      more.find? name = none) : tree.eval more = tree.eval env := by
  induction tree with
  | number value => rfl
  | var name =>
    rw [eval] at unbound
    rw [eval, eval]
    cases found : env.find? name with
    | some value => rw [extended name value found]
    | none =>
      rw [found] at unbound
      rw [unbound name rfl]
  | neg operand ih =>
    rw [eval, eval, ih]
    intro name stops
    apply unbound name
    rw [eval, stops]
  | binary op left right leftIH rightIH =>
    have first : left.eval more = left.eval env := by
      apply leftIH
      intro name stops
      apply unbound name
      rw [eval, stops]
    rw [eval, eval, first]
    cases value : left.eval env with
    | error error => rfl
    | ok x =>
      -- the right operand is evaluated only behind a value of the left one
      have second : right.eval more = right.eval env := by
        apply rightIH
        intro name stops
        apply unbound name
        rw [eval, value, stops]
      rw [second]
  | call function argument ih =>
    rw [eval, eval, ih]
    intro name stops
    apply unbound name
    rw [eval, stops]

/-! ## Binding what evaluation stops at -/

/-- The bindings after some rounds, in each of which the variable at which evaluation stops gets
the next value. The rounds end when evaluation stops at no variable. -/
def supply (tree : Expr) (env : Environment) : List Float → Environment
  | [] => env
  | value :: rest =>
    match tree.eval env with
    | .error (.undefinedVariable name) => tree.supply (env.insert name value) rest
    | _ => env

/-- A round leaves fewer variables missing. -/
theorem missing_insert_lt (name : String) (value : Float) (member : name ∈ tree.missing env) :
    (tree.missing (env.insert name value)).length < (tree.missing env).length := by
  obtain ⟨-, unbound⟩ := (mem_missing env tree name).mp member
  rw [missing_extended tree (env.extendedBy_insert name value unbound)]
  apply List.length_filter_lt_length_iff_exists.mpr
  refine ⟨name, member, ?_⟩
  simp [Environment.adds, Environment.binds, Environment.find?_insert, unbound]

theorem supply_suffices (values : List Float) (env : Environment)
    (enough : (tree.missing env).length ≤ values.length) (name : String) :
    tree.eval (tree.supply env values) ≠ .error (.undefinedVariable name) := by
  induction values generalizing env with
  | nil =>
    intro stops
    have member := mem_missing_of_eval env tree name stops
    rw [List.eq_nil_of_length_eq_zero (Nat.le_zero.mp enough)] at member
    cases member
  | cons value rest ih =>
    rw [supply]
    split
    · rename_i asked stops
      have fewer := missing_insert_lt tree asked value (mem_missing_of_eval env tree asked stops)
      apply ih
      rw [List.length_cons] at enough
      omega
    · rename_i other
      exact other name

theorem ascending_missing (env : Environment) : (tree.missing env).Pairwise (· < ·) :=
  tree.ascending_names.filter _

/-- Missing variables and the outcome of evaluation agree, under more and more bindings. -/
theorem missing_agrees_with_eval (env : Environment) (tree : Expr) :
    ((∃ value, tree.eval env = .ok value) → tree.missing env = []) ∧
    (tree.missing env = [] →
      (∃ value, tree.eval env = .ok value) ∨ tree.eval env = .error .divisionByZero) ∧
    (∀ name, tree.eval env = .error (.undefinedVariable name) → name ∈ tree.missing env) ∧
    (∀ more, env.ExtendedBy more →
      (∀ value, tree.eval env = .ok value → tree.eval more = .ok value) ∧
      (tree.eval env = .error .divisionByZero → tree.eval more = .error .divisionByZero) ∧
      (∀ name, tree.eval env = .error (.undefinedVariable name) → more.find? name = none →
        tree.eval more = .error (.undefinedVariable name)) ∧
      tree.missing more = (tree.missing env).filter fun name => !env.adds more name) ∧
    (tree.missing env).Pairwise (· < ·) ∧
    ∀ values : List Float, (tree.missing env).length ≤ values.length →
      ∀ name, tree.eval (tree.supply env values) ≠ .error (.undefinedVariable name) := by
  refine ⟨?_, eval_of_missing env tree, mem_missing_of_eval env tree, ?_, ascending_missing tree env,
    fun values enough => supply_suffices tree values env enough⟩
  · rintro ⟨value, success⟩
    exact missing_of_eval env tree value success
  · intro more extended
    refine ⟨?_, ?_, ?_, missing_extended tree extended⟩
    · intro value success
      rw [eval_extended tree extended (by simp [success]), success]
    · intro divides
      rw [eval_extended tree extended (by simp [divides]), divides]
    · intro name stops unbound
      rw [eval_extended tree extended, stops]
      intro other same
      cases stops.symm.trans same
      exact unbound

end Expr

end Formula
