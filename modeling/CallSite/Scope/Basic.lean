import CallSite.Scope.Store

/-!
# Scopes

A scope binds names to locations, in the order of their declaration and each name at most once.
Nothing outside the body of a function, a pattern or the program is visible inside it; a branch sees
what its surroundings see.
-/

namespace CallSite

inductive ScopeKind where
  | body
  | branch
deriving DecidableEq, Repr

structure Scope where
  id : Nat
  kind : ScopeKind
  bindings : List (String × Location) := []
deriving DecidableEq, Repr

namespace Scope

def names (scope : Scope) : List String := scope.bindings.map (·.1)

def size (scope : Scope) : Nat := scope.bindings.length

def location? (scope : Scope) (name : String) : Option Location :=
  scope.bindings.lookup name

def binds (scope : Scope) (name : String) : Bool := (scope.location? name).isSome

/-- The bound variables, in the order of their declaration. -/
def contents (scope : Scope) (store : Store) : List Variable :=
  scope.bindings.filterMap fun binding => store.get? binding.2

/-- Bind one more name. -/
def bind (scope : Scope) (name : String) (location : Location) : Scope :=
  { scope with bindings := scope.bindings ++ [(name, location)] }

theorem location?_bind (scope : Scope) (name other : String) (location : Location) :
    (scope.bind name location).location? other =
      (scope.location? other).or (if other = name then some location else none) := by
  by_cases same : other = name
  · simp [location?, bind, List.lookup_append, same]
  · have differs : (other == name) = false := by simp [same]
    simp [location?, bind, List.lookup_append, List.lookup_cons, same, differs]

/-- Put a new variable into the store and bind it, unless its name is taken in this scope. -/
def declare? (scope : Scope) (store : Store) (declared : Variable) : Option (Scope × Store) :=
  if scope.binds declared.name then none
  else some (scope.bind declared.name store.size, store.add declared)

/-- The scopes that a name is looked up in: from the innermost one out to the nearest body. -/
def visible : List Scope → List Scope
  | [] => []
  | scope :: outer =>
    match scope.kind with
    | .body => [scope]
    | .branch => scope :: visible outer

end Scope

end CallSite
