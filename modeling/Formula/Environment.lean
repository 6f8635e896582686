/-!
# Bindings of variables

An environment binds each of finitely many names to one double. The main statements say what a
name is bound to after a binding is made or removed.
-/

set_option autoImplicit false

namespace Formula

/-- The doubles bound to names; no name is bound twice. -/
structure Environment where
  bindings : List (String × Float)
  distinct : (bindings.map Prod.fst).Nodup
  deriving DecidableEq

namespace Environment

instance : EmptyCollection Environment := ⟨⟨[], List.nodup_nil⟩⟩

def find? (env : Environment) (name : String) : Option Float := env.bindings.lookup name

def binds (env : Environment) (name : String) : Bool := (env.find? name).isSome

def size (env : Environment) : Nat := env.bindings.length

def erase (env : Environment) (name : String) : Environment where
  bindings := env.bindings.filter fun binding => binding.1 != name
  distinct := env.distinct.sublist (List.filter_sublist.map Prod.fst)

theorem not_mem_erase (env : Environment) (name : String) :
    name ∉ (env.erase name).bindings.map Prod.fst := by
  simp [erase]

def insert (env : Environment) (name : String) (value : Float) : Environment where
  bindings := (name, value) :: (env.erase name).bindings
  distinct := List.nodup_cons.mpr ⟨env.not_mem_erase name, (env.erase name).distinct⟩

theorem find?_empty (name : String) : (∅ : Environment).find? name = none := rfl

private theorem lookup_binding (name key : String) (value : Float)
    (rest : List (String × Float)) :
    ((key, value) :: rest).lookup name = if name = key then some value else rest.lookup name := by
  rw [List.lookup_cons]
  by_cases equal : name = key
  · simp [equal]
  · rw [if_neg equal, beq_false_of_ne equal]

theorem find?_erase (env : Environment) (name other : String) :
    (env.erase name).find? other = if other = name then none else env.find? other := by
  obtain ⟨bindings, distinct⟩ := env
  simp only [find?, erase]
  clear distinct
  induction bindings with
  | nil => simp
  | cons binding rest ih =>
    obtain ⟨key, value⟩ := binding
    by_cases same : key = name
    · rw [List.filter_cons_of_neg (by simp [same]), ih, lookup_binding, same]
      by_cases equal : other = name <;> simp [equal]
    · rw [List.filter_cons_of_pos (by simp [same]), lookup_binding, lookup_binding, ih]
      by_cases found : other = key
      · simp [found, same]
      · simp [found]

theorem find?_insert (env : Environment) (name other : String) (value : Float) :
    (env.insert name value).find? other =
      if other = name then some value else env.find? other := by
  have erased := find?_erase env name other
  simp only [find?] at erased
  simp only [find?, insert, lookup_binding, erased]
  by_cases equal : other = name <;> simp [equal]

end Environment

end Formula
