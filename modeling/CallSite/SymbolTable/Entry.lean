import CallSite.Scope.Basic
import CallSite.Syntax.Declaration
import CallSite.Text.Quoted

/-!
# Entries of the symbol table

An entry keeps a declaration together with the types of the last call or match that was checked.
-/

namespace CallSite

/-- The spaces a name can live in.  One name may be used in all three. -/
inductive Space where
  | function
  | pattern
  | var
deriving DecidableEq, Repr

namespace Space

def label : Space → String
  | function => "Function:"
  | pattern => "Pattern:"
  | var => "Var:"

/-- A name together with its space. -/
def key (space : Space) (name : String) : String := space.label ++ name

end Space

/-- Why a declaration or a lookup is refused. -/
inductive TableError where
  | alreadyExists (space : Space) (name : String)
  | notFound (space : Space) (name : String)
  | noOpenScope
deriving DecidableEq, Repr

namespace TableError

def message : TableError → String
  | alreadyExists space name => "item " ++ Text.quoted (space.key name) ++ " already exists"
  | notFound space name => "item " ++ Text.quoted (space.key name) ++ " not found"
  | noOpenScope => "no scope is open"

end TableError

/-- A parameter, or the target of a pattern, with the type it last had. -/
structure Slot where
  name : String
  type : Ty := .unresolved
deriving DecidableEq, Repr

namespace Slot

/-- Write types into slots from left to right, as far as both lists go. -/
def fill : List Slot → List Ty → List Slot
  | slot :: slots, type :: types => { slot with type := type } :: fill slots types
  | slots, _ => slots

@[simp]
theorem map_name_fill (slots : List Slot) (types : List Ty) :
    (fill slots types).map (·.name) = slots.map (·.name) := by
  fun_induction fill slots types with
  | case1 slot slots type types ih => simp [ih]
  | case2 => rfl

end Slot

structure FunctionEntry where
  declaration : Function
  params : List Slot
  returns : Ty := .unresolved
  scope : Option Scope := none

structure PatternEntry where
  declaration : Pattern
  target : Slot
  value : Ty := .unresolved
  scope : Option Scope := none

namespace FunctionEntry

/-- The entry of a function that no call was checked for. -/
def fresh (declaration : Function) : FunctionEntry where
  declaration := declaration
  params := declaration.params.map fun param => { name := param.name.name }

def name (entry : FunctionEntry) : String := entry.declaration.name.name

/-- Keep the outcome of one checked call. -/
def record (entry : FunctionEntry) (types : List Ty) (returns : Ty) (scope : Option Scope) :
    FunctionEntry :=
  { entry with params := Slot.fill entry.params types, returns := returns, scope := scope }

@[simp]
theorem name_record (entry : FunctionEntry) (types : List Ty) (returns : Ty)
    (scope : Option Scope) : (entry.record types returns scope).name = entry.name := rfl

end FunctionEntry

namespace PatternEntry

/-- The entry of a pattern that no match was checked for. -/
def fresh (declaration : Pattern) : PatternEntry where
  declaration := declaration
  target := { name := declaration.target.name }

def name (entry : PatternEntry) : String := entry.declaration.name.name

/-- Keep the outcome of one checked match. -/
def record (entry : PatternEntry) (type value : Ty) (scope : Option Scope) : PatternEntry :=
  { entry with target := { entry.target with type := type }, value := value, scope := scope }

@[simp]
theorem name_record (entry : PatternEntry) (type value : Ty) (scope : Option Scope) :
    (entry.record type value scope).name = entry.name := rfl

end PatternEntry

end CallSite
