import CallSite.Resolution.Body

/-!
# Resolving programs

Functions and patterns are registered first, so that a body may use any of them.  A declaration
whose name is taken is reported and goes on under a new name: the old one, a `#` and the number of
renamings of its kind so far.
-/

namespace CallSite.Resolution

/-- The name of the declaration that is the `count`-th of its kind to be renamed. -/
def freshName (name : String) (count : Nat) : String :=
  name ++ "#" ++ toString count

def setTable (table : SymbolTable) : ResolveM Unit :=
  modify fun state => { state with env.table := table }

/-- Register a function if its name is free, and tell whether it was. -/
def registerFunction (function : Function) : ResolveM Bool := do
  let table ← getTable
  match table.declareFunction (.fresh function) with
  | .ok table => do
    setTable table
    pure true
  | .error _ => pure false

/-- Register a pattern if its name is free, and tell whether it was. -/
def registerPattern (pattern : Pattern) : ResolveM Bool := do
  let table ← getTable
  match table.declarePattern (.fresh pattern) with
  | .ok table => do
    setTable table
    pure true
  | .error _ => pure false

/-- Register functions in order, after `count` of them were renamed. -/
def registerFunctions (count : Nat) : List Function → ResolveM (List Function)
  | [] => pure []
  | function :: functions => do
    if ← registerFunction function then
      let rest ← registerFunctions count functions
      pure (function :: rest)
    else
      report (.functionRedefined function.name.name) function.position
      let renamed := function.rename (freshName function.name.name (count + 1))
      let _ ← registerFunction renamed
      let rest ← registerFunctions (count + 1) functions
      pure (renamed :: rest)

/-- Register patterns in order, after `count` of them were renamed. -/
def registerPatterns (count : Nat) : List Pattern → ResolveM (List Pattern)
  | [] => pure []
  | pattern :: patterns => do
    if ← registerPattern pattern then
      let rest ← registerPatterns count patterns
      pure (pattern :: rest)
    else
      report (.patternRedefined pattern.name.name) pattern.position
      let renamed := pattern.rename (freshName pattern.name.name (count + 1))
      let _ ← registerPattern renamed
      let rest ← registerPatterns (count + 1) patterns
      pure (renamed :: rest)

/-- Report the parameters that are named as their function was written. -/
def compareNames (function : Function) : List Param → ResolveM Unit
  | [] => pure ()
  | param :: params => do
    require (param.name.name != function.name.baseName)
      (.parameterNamedAsFunction param.name.name) function.position
    compareNames function params

def resolveFunction (function : Function) : ResolveM Unit :=
  inScope .body do
    compareNames function function.params
    resolveParams function.params
    resolveBody function.body

def resolvePattern (pattern : Pattern) : ResolveM Unit :=
  inScope .body do
    declare pattern.target.name
    resolveExprs pattern.conditions
    resolveExprs pattern.returns

def resolveFunctions : List Function → ResolveM Unit
  | [] => pure ()
  | function :: functions => do
    resolveFunction function
    resolveFunctions functions

def resolvePatterns : List Pattern → ResolveM Unit
  | [] => pure ()
  | pattern :: patterns => do
    resolvePattern pattern
    resolvePatterns patterns

/-- Resolve every body of a program and return it with its duplicates renamed. -/
def resolveProgram (program : Program) : ResolveM Program := do
  let functions ← registerFunctions 0 program.functions
  let patterns ← registerPatterns 0 program.patterns
  resolveFunctions functions
  resolvePatterns patterns
  inScope .body (resolveBody program.main.body)
  pure { program with functions := functions, patterns := patterns }

end Resolution

/-- Resolve the names of a program: the renamed program, and the sink after all reports. -/
def Program.resolve (program : Program) (sink : Sink) : Program × Sink :=
  let result := (Resolution.resolveProgram program).run { sink := sink }
  (result.1, result.2.sink)

end CallSite
