import CallSite.Proofs.Resolution.Registration
import CallSite.Proofs.Scope.Contents
import CallSite.Proofs.SymbolTable.Records
import CallSite.Proofs.Syntax.Visibility

/-!
# Lexical scoping

A second resolver keeps no scopes at all: it reads a program with the list of the names visible so
far, and yields what is to be reported.  Resolution on a stack of scopes reports the same, in the
same order.
-/

namespace CallSite

namespace Resolution

namespace Lexical

/-- A report unless the condition holds. -/
def missing (known : Bool) (problem : Problem) (position : Position) : List Diagnostic :=
  if known then [] else [⟨problem, position⟩]

def arityReports (callee : String) (params : List Param) (supplied : Nat) (position : Position) :
    List Diagnostic :=
  missing (acceptsArguments params supplied)
    (.arity callee (Param.leastArguments params) (Param.mostArguments params) supplied) position

section Reports

variable (table : SymbolTable)

def calleeReports (visible : List String) (name : String) (supplied : Nat) (position : Position) :
    List Diagnostic :=
  match table.function? name with
  | some entry => arityReports name entry.declaration.params supplied position
  | none => missing (visible.contains name) (.functionUndeclared name) position

mutual

/-- What is to be reported of an expression where the given names are visible. -/
def exprReports (visible : List String) : Expr → List Diagnostic
  | .var position name => missing (visible.contains name) (.variableUndeclared name) position
  | .int _ _ | .float _ _ | .bool _ _ | .string _ _ => []
  | .list _ elements => exprsReports visible elements
  | .pointer position function =>
    missing (table.hasFunction function) (.functionUndeclared function) position
  | .binary _ _ left right => exprReports visible left ++ exprReports visible right
  | .unary _ _ operand | .len _ operand | .chop _ operand | .chomp _ operand =>
    exprReports visible operand
  | .call _ (.var position name) arguments =>
    calleeReports table visible name arguments.length position ++ exprsReports visible arguments
  | .call _ (.lambda position params body) arguments =>
    paramReports visible params ++ (bodyReports (Param.visibleAfter visible params) body ++
      (arityReports lambdaName params arguments.length position ++
        exprsReports visible arguments))
  | .call _ callee arguments => exprReports visible callee ++ exprsReports visible arguments
  | .index _ target indices => exprReports visible target ++ exprsReports visible indices
  | .lambda _ params body =>
    paramReports visible params ++ bodyReports (Param.visibleAfter visible params) body
  | .append _ target values => exprReports visible target ++ exprsReports visible values
  | .matching position pattern argument =>
    missing (table.hasPattern pattern) (.patternUndeclared pattern) position ++
      exprReports visible argument
termination_by structural expression => expression

def exprsReports (visible : List String) : List Expr → List Diagnostic
  | [] => []
  | expression :: expressions =>
    exprReports visible expression ++ exprsReports visible expressions
termination_by structural expressions => expressions

/-- A default sees its own parameter and those before it. -/
def paramReports (visible : List String) : List Param → List Diagnostic
  | [] => []
  | ⟨name, none⟩ :: params => paramReports (name.name :: visible) params
  | ⟨name, some default⟩ :: params =>
    exprReports (name.name :: visible) default ++ paramReports (name.name :: visible) params
termination_by structural params => params

def rangeReports (visible : List String) : Range → List Diagnostic
  | .elements values => exprsReports visible values
  | .value operand => exprReports visible operand
  | .span first last => exprReports visible first ++ exprReports visible last
termination_by structural range => range

def stmtReports (visible : List String) : Stmt → List Diagnostic
  | .expr _ value | .put _ value | .ret _ (some value) => exprReports visible value
  | .assign position target (some index) _ value =>
    exprReports visible index ++ (exprReports visible value ++
      missing (visible.contains target) (.variableUndeclared target) position)
  | .assign position target none operator value =>
    exprReports visible value ++
      if operator.isCompound then
        missing (visible.contains target) (.variableUndeclared target) position
      else []
  | .ifElse _ conditions thenBody elseBody =>
    exprsReports visible conditions ++
      (bodyReports visible thenBody ++ bodyReports visible elseBody)
  | .ret _ none => []
  | .push _ target value => exprReports visible target ++ exprReports visible value
  | .loop _ body => bodyReports visible body
  | .forEach _ iterator range body =>
    rangeReports visible range ++ bodyReports (iterator :: visible) body
  | .breakWhen _ conditions | .nextWhen _ conditions => exprsReports visible conditions
termination_by structural statement => statement

def bodyReports (visible : List String) : List Stmt → List Diagnostic
  | [] => []
  | statement :: statements =>
    stmtReports visible statement ++ bodyReports (statement.visibleAfter visible) statements
termination_by structural statements => statements

end

def functionReports (function : Function) : List Diagnostic :=
  (function.params.flatMap fun param =>
    missing (param.name.name != function.name.baseName)
      (.parameterNamedAsFunction param.name.name) function.position) ++
  (paramReports table [] function.params ++
    bodyReports table (Param.visibleAfter [] function.params) function.body)

def patternReports (pattern : Pattern) : List Diagnostic :=
  exprsReports table [pattern.target.name] pattern.conditions ++
    exprsReports table [pattern.target.name] pattern.returns

/-- What is to be reported of the bodies of a program. -/
def programReports (program : Program) : List Diagnostic :=
  program.functions.flatMap (functionReports table) ++
    (program.patterns.flatMap (patternReports table) ++ bodyReports table [] program.main.body)

end Reports

end Lexical

open Lexical

/-! ## Actions on the stack of scopes -/

/-- The declarations of the table are registered, and exactly the given names are visible. -/
structure StateShows (table : SymbolTable) (visible : List String) (state : State) : Prop where
  shows_ : state.env.Shows visible
  functions : state.env.table.functions = table.functions
  patterns : state.env.table.patterns = table.patterns

/-- Where exactly the names in `visible` are visible the action makes the given reports, and then
exactly the names in `later` are visible. -/
def Performs (table : SymbolTable) (visible later : List String) (action : ResolveM Unit)
    (reports : List Diagnostic) : Prop :=
  ∀ state, StateShows table visible state →
    StateShows table later (action.run state).2 ∧ state.env.Grows (action.run state).2.env ∧
      (action.run state).2.sink = state.sink.reportAll reports

namespace Performs

variable {table : SymbolTable} {visible later : List String}

theorem pure : Performs table visible visible (Pure.pure ()) [] :=
  fun _ shown => ⟨shown, .refl _, rfl⟩

theorem andThen {middle : List String} {first second : ResolveM Unit}
    {early late : List Diagnostic} (left : Performs table visible middle first early)
    (right : Performs table middle later second late) :
    Performs table visible later (do first; second) (early ++ late) := by
  intro state shown
  obtain ⟨between, grown, early_⟩ := left state shown
  obtain ⟨after, more, late_⟩ := right _ between
  refine ⟨after, grown.trans more, late_.trans ?_⟩
  rw [early_, Sink.reportAll_append]

theorem require (condition : Bool) (problem : Problem) (position : Position) :
    Performs table visible visible (Resolution.require condition problem position)
      (missing condition problem position) := by
  cases condition with
  | true => exact pure
  | false =>
    exact fun _ shown => ⟨⟨shown.shows_, shown.functions, shown.patterns⟩, .refl _, rfl⟩

/-- An action that depends on the symbol table. -/
theorem ofTable {action : SymbolTable → ResolveM Unit} {reports : List Diagnostic}
    (inner : ∀ state, StateShows table visible state →
      Performs table visible later (action state.env.table) reports) :
    Performs table visible later (do let current ← getTable; action current) reports :=
  fun state shown => inner state shown state shown

theorem useVariable (name : String) (position : Position) :
    Performs table visible visible (Resolution.useVariable name position)
      (missing (visible.contains name) (.variableUndeclared name) position) := by
  refine ofTable fun state shown => ?_
  rw [shown.shows_.hasVariable]
  exact require _ _ _

theorem useFunction (name : String) (position : Position) :
    Performs table visible visible (Resolution.useFunction name position)
      (missing (table.hasFunction name) (.functionUndeclared name) position) := by
  refine ofTable fun state shown => ?_
  rw [SymbolTable.hasFunction, SymbolTable.function?, shown.functions]
  exact require _ _ _

theorem usePattern (name : String) (position : Position) :
    Performs table visible visible (Resolution.usePattern name position)
      (missing (table.hasPattern name) (.patternUndeclared name) position) := by
  refine ofTable fun state shown => ?_
  rw [SymbolTable.hasPattern, SymbolTable.pattern?, shown.patterns]
  exact require _ _ _

theorem useCallee (name : String) (supplied : Nat) (position : Position) :
    Performs table visible visible (Resolution.useCallee name supplied position)
      (calleeReports table visible name supplied position) := by
  refine ofTable fun state shown => ?_
  rw [calleeReports, SymbolTable.function?, shown.functions, ← SymbolTable.function?]
  cases table.function? name with
  | some entry => exact require _ _ _
  | none =>
    rw [shown.shows_.hasVariable]
    exact require _ _ _

theorem declare (name : String) :
    Performs table visible (name :: visible) (Resolution.declare name) [] := by
  intro state shown
  have same := state.env.sameGlobals_declared name .unresolved
  exact ⟨⟨shown.shows_.declared name .unresolved, same.functions.trans shown.functions,
    same.patterns.trans shown.patterns⟩,
    (Environment.declared_becomes shown.shows_.sound name .unresolved).grows, rfl⟩

/-- A name that is visible already is not declared, which shows the same names. -/
theorem declareIfAbsent (name : String) :
    Performs table visible (name :: visible) (Resolution.declareIfAbsent name) [] := by
  refine ofTable fun state shown => ?_
  rw [shown.shows_.hasVariable]
  split
  · next seen =>
    intro other again
    exact ⟨⟨again.shows_.again (List.contains_iff_mem.mp seen), again.functions, again.patterns⟩,
      .refl _, rfl⟩
  · exact declare name

theorem inBranch {action : ResolveM Unit} {reports : List Diagnostic}
    (inner : Performs table visible later action reports) :
    Performs table visible visible (inScope .branch action) reports := by
  intro state shown
  obtain ⟨after, grown, reported⟩ :=
    inner { state with env := state.env.opened .branch }
      ⟨shown.shows_.opened_branch, shown.functions, shown.patterns⟩
  exact ⟨⟨shown.shows_.close_branch after.shows_.sound grown, after.functions, after.patterns⟩,
    (Environment.Becomes.close_branch ⟨rfl, after.shows_.sound, grown⟩).grows, reported⟩

end Performs

/-! ## Resolution is lexical -/

section Bodies

variable {table : SymbolTable}

mutual

theorem performs_resolveExpr (visible : List String) : ∀ expression : Expr,
    Performs table visible visible (resolveExpr expression) (exprReports table visible expression)
  | .var position name => .useVariable name position
  | .int _ _ | .float _ _ | .bool _ _ | .string _ _ => .pure
  | .list _ elements => performs_resolveExprs visible elements
  | .pointer position function => .useFunction function position
  | .binary _ _ left right =>
    (performs_resolveExpr visible left).andThen (performs_resolveExpr visible right)
  | .unary _ _ operand | .len _ operand | .chop _ operand | .chomp _ operand =>
    performs_resolveExpr visible operand
  | .call _ callee arguments => by
    have resolved := performs_resolveExprs visible arguments
    cases callee with
    | var place name => exact (Performs.useCallee name arguments.length place).andThen resolved
    | lambda place params body =>
      have inner := (performs_resolveParams visible params).andThen
        (performs_resolveBody (Param.visibleAfter visible params) body)
      have whole := inner.inBranch.andThen ((Performs.require
        (acceptsArguments params arguments.length) (.arity lambdaName (Param.leastArguments params)
          (Param.mostArguments params) arguments.length) place).andThen resolved)
      rwa [List.append_assoc] at whole
    | _ => exact (performs_resolveExpr visible _).andThen resolved
  | .index _ target indices =>
    (performs_resolveExpr visible target).andThen (performs_resolveExprs visible indices)
  | .lambda _ params body =>
    ((performs_resolveParams visible params).andThen
      (performs_resolveBody (Param.visibleAfter visible params) body)).inBranch
  | .append _ target values =>
    (performs_resolveExpr visible target).andThen (performs_resolveExprs visible values)
  | .matching position pattern argument =>
    (Performs.usePattern pattern position).andThen (performs_resolveExpr visible argument)
termination_by structural expression => expression

theorem performs_resolveExprs (visible : List String) : ∀ expressions : List Expr,
    Performs table visible visible (resolveExprs expressions)
      (exprsReports table visible expressions)
  | [] => .pure
  | expression :: expressions =>
    (performs_resolveExpr visible expression).andThen
      (performs_resolveExprs visible expressions)
termination_by structural expressions => expressions

theorem performs_resolveParams (visible : List String) : ∀ params : List Param,
    Performs table visible (Param.visibleAfter visible params) (resolveParams params)
      (paramReports table visible params)
  | [] => .pure
  | ⟨name, none⟩ :: params =>
    (Performs.declare name.name).andThen (performs_resolveParams (name.name :: visible) params)
  | ⟨name, some default⟩ :: params =>
    (Performs.declare name.name).andThen
      ((performs_resolveExpr (name.name :: visible) default).andThen
        (performs_resolveParams (name.name :: visible) params))
termination_by structural params => params

theorem performs_resolveRange (visible : List String) : ∀ range : Range,
    Performs table visible visible (resolveRange range) (rangeReports table visible range)
  | .elements values => performs_resolveExprs visible values
  | .value operand => performs_resolveExpr visible operand
  | .span first last =>
    (performs_resolveExpr visible first).andThen (performs_resolveExpr visible last)
termination_by structural range => range

theorem performs_resolveStmt (visible : List String) : ∀ statement : Stmt,
    Performs table visible (statement.visibleAfter visible) (resolveStmt statement)
      (stmtReports table visible statement)
  | .expr _ value | .put _ value | .ret _ (some value) => performs_resolveExpr visible value
  | .assign position target (some index) _ value =>
    (performs_resolveExpr visible index).andThen
      ((performs_resolveExpr visible value).andThen (.useVariable target position))
  | .assign position target none operator value => by
    refine (performs_resolveExpr visible value).andThen ?_
    rw [Stmt.visibleAfter]
    by_cases compound : operator.isCompound = true
    · rw [if_pos compound, if_pos compound, if_pos compound]
      exact .useVariable target position
    · rw [if_neg compound, if_neg compound, if_neg compound]
      exact .declareIfAbsent target
  | .ifElse _ conditions thenBody elseBody =>
    (performs_resolveExprs visible conditions).andThen
      ((performs_resolveBody visible thenBody).inBranch.andThen
        (performs_resolveBody visible elseBody).inBranch)
  | .ret _ none => .pure
  | .push _ target value =>
    (performs_resolveExpr visible target).andThen (performs_resolveExpr visible value)
  | .loop _ body => (performs_resolveBody visible body).inBranch
  | .forEach _ iterator range body =>
    ((performs_resolveRange visible range).andThen
      ((Performs.declare iterator).andThen
        (performs_resolveBody (iterator :: visible) body))).inBranch
  | .breakWhen _ conditions | .nextWhen _ conditions => performs_resolveExprs visible conditions
termination_by structural statement => statement

theorem performs_resolveBody (visible : List String) : ∀ statements : List Stmt,
    Performs table visible (Stmt.visibleAfterAll visible statements) (resolveBody statements)
      (bodyReports table visible statements)
  | [] => .pure
  | statement :: statements =>
    (performs_resolveStmt visible statement).andThen
      (performs_resolveBody (statement.visibleAfter visible) statements)
termination_by structural statements => statements

end

theorem performs_compareNames (function : Function) (visible : List String)
    (params : List Param) :
    Performs table visible visible (compareNames function params)
      (params.flatMap fun param => missing (param.name.name != function.name.baseName)
        (.parameterNamedAsFunction param.name.name) function.position) := by
  induction params with
  | nil => exact .pure
  | cons param params ih => exact (Performs.require _ _ _).andThen ih

end Bodies

/-! ## Declarations -/

/-- Whatever is open, the action makes the given reports and leaves the declarations alone. -/
def Works (table : SymbolTable) (action : ResolveM Unit) (reports : List Diagnostic) : Prop :=
  ∀ state : State, state.env.table.functions = table.functions →
    state.env.table.patterns = table.patterns →
      (action.run state).2.env.table.functions = table.functions ∧
      (action.run state).2.env.table.patterns = table.patterns ∧
      (action.run state).2.sink = state.sink.reportAll reports

namespace Works

variable {table : SymbolTable}

theorem pure : Works table (Pure.pure ()) [] := fun _ functions patterns =>
  ⟨functions, patterns, rfl⟩

theorem andThen {first second : ResolveM Unit} {early late : List Diagnostic}
    (left : Works table first early) (right : Works table second late) :
    Works table (do first; second) (early ++ late) := by
  intro state functions patterns
  obtain ⟨sameFunctions, samePatterns, early_⟩ := left state functions patterns
  obtain ⟨lastFunctions, lastPatterns, late_⟩ := right _ sameFunctions samePatterns
  refine ⟨lastFunctions, lastPatterns, late_.trans ?_⟩
  rw [early_, Sink.reportAll_append]

theorem inBody {action : ResolveM Unit} {later : List String} {reports : List Diagnostic}
    (inner : Performs table [] later action reports) :
    Works table (inScope .body action) reports := by
  intro state functions patterns
  obtain ⟨after, _, reported⟩ := inner { state with env := state.env.opened .body }
    ⟨.opened_body state.env, functions, patterns⟩
  exact ⟨after.functions, after.patterns, reported⟩

end Works

section Program

variable {table : SymbolTable}

theorem works_resolveFunction (function : Function) :
    Works table (resolveFunction function) (functionReports table function) :=
  .inBody ((performs_compareNames function [] function.params).andThen
    ((performs_resolveParams [] function.params).andThen
      (performs_resolveBody _ function.body)))

theorem works_resolvePattern (pattern : Pattern) :
    Works table (resolvePattern pattern) (patternReports table pattern) :=
  .inBody ((Performs.declare pattern.target.name).andThen
    ((performs_resolveExprs _ pattern.conditions).andThen
      (performs_resolveExprs _ pattern.returns)))

theorem works_resolveFunctions (functions : List Function) :
    Works table (resolveFunctions functions) (functions.flatMap (functionReports table)) := by
  induction functions with
  | nil => exact .pure
  | cons function functions ih => exact (works_resolveFunction function).andThen ih

theorem works_resolvePatterns (patterns : List Pattern) :
    Works table (resolvePatterns patterns) (patterns.flatMap (patternReports table)) := by
  induction patterns with
  | nil => exact .pure
  | cons pattern patterns ih => exact (works_resolvePattern pattern).andThen ih

theorem works_resolveBodies (program : Program) :
    Works table (resolveBodies program) (programReports table program) :=
  (works_resolveFunctions program.functions).andThen
    ((works_resolvePatterns program.patterns).andThen
      (.inBody (performs_resolveBody [] program.main.body)))

end Program

end Resolution

namespace Program

open Resolution

/-- Resolution reports the redefinitions, and then what lexical scoping finds in the bodies. -/
theorem Resolves.reports {program resolved : Program} {sink last : Sink}
    (resolves : program.Resolves sink resolved last) :
    ∃ redefinitions : List Diagnostic,
      (∀ report ∈ redefinitions, (∃ name, report.problem = .functionRedefined name) ∨
        ∃ name, report.problem = .patternRedefined name) ∧
      last = sink.reportAll
        (redefinitions ++ Lexical.programReports resolved.table resolved) := by
  obtain ⟨redefinitions, only, same⟩ := resolves.sink
  refine ⟨redefinitions, only, ?_⟩
  rw [same, Sink.reportAll_append]
  exact (works_resolveBodies resolved { env := { table := resolved.table }, sink := _ } rfl rfl).2.2

end Program

end CallSite
