/-!
# Environments

An environment binds names to values.  Each name is bound at most once: assigning to a bound name
replaces its value in place, assigning to a new name adds a binding at the end.
-/

namespace ShellExpr

structure Environment (α : Type) where
  bindings : List (String × α)

namespace Environment

variable {α : Type}

def empty : Environment α :=
  ⟨[]⟩

/-- The value of a name in a list of bindings. -/
def find? (name : String) : List (String × α) → Option α
  | [] => none
  | (other, value) :: rest => if other = name then some value else find? name rest

/-- Replaces the value of `name`, or binds it at the end. -/
def replace (name : String) (value : α) : List (String × α) → List (String × α)
  | [] => [(name, value)]
  | (other, old) :: rest =>
    if other = name then (name, value) :: rest else (other, old) :: replace name value rest

def lookup (env : Environment α) (name : String) : Option α :=
  find? name env.bindings

def contains (env : Environment α) (name : String) : Bool :=
  (env.lookup name).isSome

def assign (env : Environment α) (name : String) (value : α) : Environment α :=
  ⟨replace name value env.bindings⟩

def remove (env : Environment α) (name : String) : Environment α :=
  ⟨env.bindings.filter fun binding => binding.1 != name⟩

def size (env : Environment α) : Nat :=
  env.bindings.length

def isEmpty (env : Environment α) : Bool :=
  env.bindings.isEmpty

/-- Assigns every pair, from left to right. -/
def assignAll (env : Environment α) (pairs : List (String × α)) : Environment α :=
  pairs.foldl (fun env pair => env.assign pair.1 pair.2) env

/-! ### Looking up after a change -/

theorem find?_replace (name other : String) (value : α) (bindings : List (String × α)) :
    find? other (replace name value bindings) =
      if name = other then some value else find? other bindings := by
  induction bindings with
  | nil => simp [replace, find?]
  | cons binding rest ih =>
    obtain ⟨first, old⟩ := binding
    by_cases same : first = name
    · by_cases asked : name = other <;> simp [replace, find?, same, asked]
    · by_cases asked : first = other
      · subst asked
        simp [replace, find?, same, Ne.symm same]
      · simp [replace, find?, same, asked, ih]

theorem lookup_assign (env : Environment α) (name other : String) (value : α) :
    (env.assign name value).lookup other =
      if name = other then some value else env.lookup other :=
  find?_replace name other value env.bindings

end Environment

end ShellExpr
