import CallSite.SymbolTable.Basic

/-!
# Environments

A symbol table together with the store that its scopes point into.  Declaring extends the innermost
scope and the store; assigning writes to the visible variable if there is one.
-/

namespace CallSite

structure Environment where
  table : SymbolTable := {}
  store : Store := {}

namespace Environment

def lookup? (env : Environment) (name : String) : Option Variable :=
  (env.table.locate? name).bind env.store.get?

def typeOf? (env : Environment) (name : String) : Option Ty :=
  (env.lookup? name).map (·.type)

/-- Write to the variable at a location, whoever can see it. -/
def retype (env : Environment) (location : Location) (type : Ty) : Environment :=
  { env with store := env.store.retype location type }

/-- Why a variable of that name cannot be declared in the innermost scope. -/
def refusal? (env : Environment) (name : String) : Option TableError :=
  match env.table.scopes with
  | [] => some .noOpenScope
  | scope :: _ => if scope.binds name then some (.alreadyExists .var name) else none

/-- Put a new variable into the store and bind it in the innermost scope. -/
def extend (env : Environment) (name : String) (type : Ty) : Environment :=
  match env.table.scopes with
  | [] => env
  | scope :: outer =>
    { table := { env.table with scopes := scope.bind name env.store.size :: outer }
      store := env.store.add ⟨name, type, scope.id⟩ }

/-- Declare a variable in the innermost scope.  A second declaration there is refused and leaves the
first one untouched. -/
def declare (env : Environment) (name : String) (type : Ty) :
    Except TableError Environment :=
  match env.refusal? name with
  | some error => .error error
  | none => .ok (env.extend name type)

/-- Declare a variable where that is not refused. -/
def declared (env : Environment) (name : String) (type : Ty) : Environment :=
  match env.refusal? name with
  | some _ => env
  | none => env.extend name type

/-- Give the visible variable another type, or declare it when none is visible. -/
def assign (env : Environment) (name : String) (type : Ty) :
    Except TableError Environment :=
  match env.table.locate? name with
  | some location => .ok (env.retype location type)
  | none => env.declare name type

/-- Assign to a variable where that is not refused. -/
def assigned (env : Environment) (name : String) (type : Ty) : Environment :=
  match env.table.locate? name with
  | some location => env.retype location type
  | none => env.declared name type

/-- Declare a variable in the innermost scope; where that is refused, give the visible one the type
instead. -/
def rebind (env : Environment) (name : String) (type : Ty) : Environment :=
  match env.refusal? name with
  | none => env.extend name type
  | some _ =>
    match env.table.locate? name with
    | some location => env.retype location type
    | none => env

theorem declared_eq (env : Environment) (name : String) (type : Ty) :
    env.declared name type = (env.declare name type).toOption.getD env := by
  cases refused : env.refusal? name <;> simp [declared, declare, refused, Except.toOption]

theorem assigned_eq (env : Environment) (name : String) (type : Ty) :
    env.assigned name type = (env.assign name type).toOption.getD env := by
  cases found : env.table.locate? name <;>
    simp [assigned, assign, found, declared_eq, Except.toOption]

def openBody (env : Environment) : Environment := { env with table := env.table.openBody }

def openBranch (env : Environment) : Environment := { env with table := env.table.openBranch }

def close (env : Environment) : Environment := { env with table := env.table.close }

end Environment

end CallSite
