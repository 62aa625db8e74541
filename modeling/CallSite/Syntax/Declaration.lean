import CallSite.Syntax.Placement

/-!
# Declarations and programs

Functions have parameters, patterns have one target and two lists of expressions, and a program has
functions, patterns and a main body.
-/

namespace CallSite

/-- The name that a lambda is reported under. -/
def lambdaName : String := "lambda"

structure Function where
  name : Identifier
  params : List Param
  body : List Stmt
  position : Position

structure Pattern where
  name : Identifier
  target : Identifier
  conditions : List Expr
  returns : List Expr
  position : Position

structure MainBody where
  body : List Stmt
  position : Position

structure Program where
  functions : List Function
  patterns : List Pattern
  main : MainBody

namespace Param

/-- How many parameters at the end of a list have a default. -/
def trailingDefaults (params : List Param) : Nat :=
  (params.reverse.takeWhile (·.default.isSome)).length

/-- The fewest arguments that leave no parameter without a value. -/
def leastArguments (params : List Param) : Nat :=
  params.length - trailingDefaults params

/-- The most arguments that parameters take. -/
def mostArguments (params : List Param) : Nat := params.length

theorem trailingDefaults_le_length (params : List Param) :
    trailingDefaults params ≤ params.length := by
  have shorter := (List.takeWhile_sublist (·.default.isSome) (l := params.reverse)).length_le
  simpa [trailingDefaults] using shorter

end Param

namespace Function

/-- A function stands where its name stands. -/
def ofName (name : Identifier) (params : List Param) (body : List Stmt) : Function :=
  ⟨name, params, body, name.position⟩

def rename (function : Function) (name : String) : Function :=
  { function with name := { function.name with name := name } }

end Function

namespace Pattern

/-- A pattern stands where its name stands.  Each case is a condition and what it returns. -/
def ofCases (name target : Identifier) (cases : List (Expr × Expr)) : Pattern :=
  ⟨name, target, cases.map (·.1), cases.map (·.2), name.position⟩

def rename (pattern : Pattern) (name : String) : Pattern :=
  { pattern with name := { pattern.name with name := name } }

end Pattern

namespace Program

/-- The first function of that name. -/
def function? (program : Program) (name : String) : Option Function :=
  program.functions.find? (·.name.name == name)

/-- The first pattern of that name. -/
def pattern? (program : Program) (name : String) : Option Pattern :=
  program.patterns.find? (·.name.name == name)

def functionNames (program : Program) : List String :=
  program.functions.map (·.name.name)

def patternNames (program : Program) : List String :=
  program.patterns.map (·.name.name)

end Program

end CallSite
