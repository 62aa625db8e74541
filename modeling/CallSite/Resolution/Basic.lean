import CallSite.Diagnostic.Sink
import CallSite.SymbolTable.Environment

/-!
# Resolving single names

Resolution walks a program once, keeping the names in scope in an environment and reporting to a
sink.  No type is known yet, so every variable is declared with an unresolved one.
-/

namespace CallSite.Resolution

structure State where
  env : Environment := {}
  sink : Sink

abbrev ResolveM := StateM State

def report (problem : Problem) (position : Position) : ResolveM Unit :=
  modify fun state => { state with sink := state.sink.report ⟨problem, position⟩ }

/-- Report a problem unless a condition holds. -/
def require (condition : Bool) (problem : Problem) (position : Position) : ResolveM Unit :=
  if condition then pure () else report problem position

def getTable : ResolveM SymbolTable := do
  let state ← get
  pure state.env.table

/-- Declare a variable in the innermost scope; a second declaration there changes nothing. -/
def declare (name : String) : ResolveM Unit :=
  modify fun state => { state with env := state.env.declared name .unresolved }

/-- Declare a variable unless one of that name is visible. -/
def declareIfAbsent (name : String) : ResolveM Unit := do
  let table ← getTable
  if table.hasVariable name then pure () else declare name

/-- Run an action in a scope of its own. -/
def inScope (kind : ScopeKind) (action : ResolveM Unit) : ResolveM Unit := do
  modify fun state => { state with env.table := state.env.table.openScope kind }
  action
  modify fun state => { state with env.table := state.env.table.close }

def useVariable (name : String) (position : Position) : ResolveM Unit := do
  let table ← getTable
  require (table.hasVariable name) (.variableUndeclared name) position

def useFunction (name : String) (position : Position) : ResolveM Unit := do
  let table ← getTable
  require (table.hasFunction name) (.functionUndeclared name) position

def usePattern (name : String) (position : Position) : ResolveM Unit := do
  let table ← getTable
  require (table.hasPattern name) (.patternUndeclared name) position

/-- The number of arguments lies between the parameters that need one and all parameters. -/
def acceptsArguments (params : List Param) (supplied : Nat) : Bool :=
  decide (Param.leastArguments params ≤ supplied ∧ supplied ≤ Param.mostArguments params)

def requireArity (callee : String) (params : List Param) (supplied : Nat)
    (position : Position) : ResolveM Unit :=
  require (acceptsArguments params supplied)
    (.arity callee (Param.leastArguments params) (Param.mostArguments params) supplied) position

/-- A called name is a function, whose arity is checked, or a variable that may hold a pointer. -/
def useCallee (name : String) (supplied : Nat) (position : Position) : ResolveM Unit := do
  let table ← getTable
  match table.function? name with
  | some entry => requireArity name entry.declaration.params supplied position
  | none => require (table.hasVariable name) (.functionUndeclared name) position

end CallSite.Resolution
