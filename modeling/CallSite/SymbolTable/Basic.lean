import CallSite.SymbolTable.Entry

/-!
# The symbol table

Functions and patterns are declared once, globally, in the order of their declaration.  Variables
belong to the open scopes, the innermost of which comes first.  Scopes are numbered as they are
opened and a number is not given twice.  The numbers are counted without a bound: `2 ^ 64` openings,
after which a counter of that many bits starts again, are taken to be out of reach.
-/

namespace CallSite

structure SymbolTable where
  functions : List FunctionEntry := []
  patterns : List PatternEntry := []
  mainScope : Option Scope := none
  scopes : List Scope := []
  /-- The number of the next scope that is opened. -/
  nextScopeId : Nat := 0

namespace SymbolTable

def empty : SymbolTable := {}

/-! ## Functions and patterns -/

def function? (table : SymbolTable) (name : String) : Option FunctionEntry :=
  table.functions.find? (·.name == name)

def pattern? (table : SymbolTable) (name : String) : Option PatternEntry :=
  table.patterns.find? (·.name == name)

def hasFunction (table : SymbolTable) (name : String) : Bool := (table.function? name).isSome

def hasPattern (table : SymbolTable) (name : String) : Bool := (table.pattern? name).isSome

def getFunction (table : SymbolTable) (name : String) : Except TableError FunctionEntry :=
  match table.function? name with
  | some entry => .ok entry
  | none => .error (.notFound .function name)

def getPattern (table : SymbolTable) (name : String) : Except TableError PatternEntry :=
  match table.pattern? name with
  | some entry => .ok entry
  | none => .error (.notFound .pattern name)

/-- The first declaration of a name keeps it. -/
def declareFunction (table : SymbolTable) (entry : FunctionEntry) :
    Except TableError SymbolTable :=
  if table.hasFunction entry.name then .error (.alreadyExists .function entry.name)
  else .ok { table with functions := table.functions ++ [entry] }

/-- The first declaration of a name keeps it. -/
def declarePattern (table : SymbolTable) (entry : PatternEntry) :
    Except TableError SymbolTable :=
  if table.hasPattern entry.name then .error (.alreadyExists .pattern entry.name)
  else .ok { table with patterns := table.patterns ++ [entry] }

/-- Declare functions in order, passing over those whose name is taken. -/
def declareFunctions (table : SymbolTable) (functions : List Function) : SymbolTable :=
  functions.foldl
    (fun table function => (table.declareFunction (.fresh function)).toOption.getD table) table

/-- Declare patterns in order, passing over those whose name is taken. -/
def declarePatterns (table : SymbolTable) (patterns : List Pattern) : SymbolTable :=
  patterns.foldl
    (fun table pattern => (table.declarePattern (.fresh pattern)).toOption.getD table) table

/-- Change the entry of a function. -/
def updateFunction (table : SymbolTable) (name : String)
    (change : FunctionEntry → FunctionEntry) : SymbolTable :=
  { table with
    functions := table.functions.map fun entry =>
      if entry.name == name then change entry else entry }

/-- Change the entry of a pattern. -/
def updatePattern (table : SymbolTable) (name : String)
    (change : PatternEntry → PatternEntry) : SymbolTable :=
  { table with
    patterns := table.patterns.map fun entry =>
      if entry.name == name then change entry else entry }

/-! ## Scopes -/

def depth (table : SymbolTable) : Nat := table.scopes.length

/-- The innermost open scope. -/
def current? (table : SymbolTable) : Option Scope := table.scopes.head?

/-- Open an empty scope under the next number. -/
def openScope (table : SymbolTable) (kind : ScopeKind) : SymbolTable :=
  { table with
    scopes := { id := table.nextScopeId, kind := kind } :: table.scopes
    nextScopeId := table.nextScopeId + 1 }

/-- Open the scope of a body: nothing declared before is visible in it. -/
def openBody (table : SymbolTable) : SymbolTable := table.openScope .body

/-- Open the scope of a branch: everything visible before stays visible. -/
def openBranch (table : SymbolTable) : SymbolTable := table.openScope .branch

/-- Open a scope that was kept.  Scopes opened later have greater numbers. -/
def reopen (table : SymbolTable) (scope : Scope) : SymbolTable :=
  { table with
    scopes := scope :: table.scopes
    nextScopeId := max table.nextScopeId (scope.id + 1) }

/-- Close the innermost scope, if one is open. -/
def close (table : SymbolTable) : SymbolTable :=
  { table with scopes := table.scopes.tail }

/-- Where the visible variable of that name lives. -/
def locate? (table : SymbolTable) (name : String) : Option Location :=
  (Scope.visible table.scopes).findSome? (·.location? name)

def locate (table : SymbolTable) (name : String) : Except TableError Location :=
  match table.locate? name with
  | some location => .ok location
  | none => .error (.notFound .var name)

def hasVariable (table : SymbolTable) (name : String) : Bool := (table.locate? name).isSome

@[simp]
theorem close_openScope (table : SymbolTable) (kind : ScopeKind) :
    (table.openScope kind).close.scopes = table.scopes := rfl

end SymbolTable

end CallSite
