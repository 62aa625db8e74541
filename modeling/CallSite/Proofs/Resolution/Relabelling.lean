import CallSite.Analysis
import CallSite.Proofs.Resolution.Recovery
import CallSite.Proofs.Syntax.Relabelling

/-!
# Resolution under new names for patterns

Resolution finds the same in a program whose patterns have new names, and reports it under those
names.  The call graph does not know patterns at all.
-/

namespace CallSite

variable (labels : Relabelling)

/-! ## Symbol tables -/

def FunctionEntry.relabel (entry : FunctionEntry) : FunctionEntry :=
  { entry with declaration := entry.declaration.relabel labels }

def PatternEntry.relabel (entry : PatternEntry) : PatternEntry :=
  { entry with declaration := entry.declaration.relabel labels }

namespace SymbolTable

def relabel (table : SymbolTable) : SymbolTable :=
  { table with
    functions := table.functions.map (FunctionEntry.relabel labels)
    patterns := table.patterns.map (PatternEntry.relabel labels) }

theorem function?_relabel (table : SymbolTable) (name : String) :
    (table.relabel labels).function? name =
      (table.function? name).map (FunctionEntry.relabel labels) :=
  List.find?_map

theorem pattern?_relabel (table : SymbolTable) (name : String) :
    (table.relabel labels).pattern? (labels.key name) =
      (table.pattern? name).map (PatternEntry.relabel labels) := by
  have moves : ∀ entry : PatternEntry, (entry.relabel labels).name = labels.key entry.name :=
    fun _ => rfl
  exact Relabelling.find?_map PatternEntry.name moves table.patterns name

@[simp]
theorem hasFunction_relabel (table : SymbolTable) (name : String) :
    (table.relabel labels).hasFunction name = table.hasFunction name := by
  rw [hasFunction, function?_relabel, Option.isSome_map, hasFunction]

theorem hasPattern_relabel (table : SymbolTable) (name : String) :
    (table.relabel labels).hasPattern (labels.key name) = table.hasPattern name := by
  rw [hasPattern, pattern?_relabel, Option.isSome_map, hasPattern]

/-- The same entries are new where entries and names change alike. -/
theorem foldl_addNew_map {α : Type} (nameOf : α → String) {change : α → α}
    {names : Equiv.Perm String} (named : ∀ item, nameOf (change item) = names (nameOf item))
    (added entries : List α) :
    (added.map change).foldl (addNew nameOf) (entries.map change) =
      (added.foldl (addNew nameOf) entries).map change := by
  induction added generalizing entries with
  | nil => rfl
  | cons first rest ih =>
    have step : addNew nameOf (entries.map change) (change first) =
        (addNew nameOf entries first).map change := by
      rw [addNew, addNew, named, Relabelling.find?_map nameOf named, Option.isSome_map]
      split
      · rfl
      · rw [List.map_append, List.map_singleton]
    rw [List.map_cons, List.foldl_cons, step, ih, List.foldl_cons]

end SymbolTable

theorem Program.table_relabel (program : Program) :
    (program.relabel labels).table = program.table.relabel labels := by
  have freshFunction : ∀ function : Function, FunctionEntry.fresh (function.relabel labels) =
      (FunctionEntry.fresh function).relabel labels := by
    intro function
    have params := congrArg (List.map fun name : Identifier => ({ name := name.name } : Slot))
      (Param.map_name_relabelAll labels function.params)
    rw [List.map_map, List.map_map] at params
    exact congrArg (FunctionEntry.mk (function.relabel labels) · .unresolved none) params
  have functions : (program.relabel labels).table.functions =
      program.table.functions.map (FunctionEntry.relabel labels) := by
    have entries : (program.relabel labels).functions.map FunctionEntry.fresh =
        (program.functions.map FunctionEntry.fresh).map (FunctionEntry.relabel labels) := by
      rw [relabel, List.map_map, List.map_map]
      exact List.map_congr_left fun function _ => freshFunction function
    have stays : ∀ entry : FunctionEntry, (entry.relabel labels).name =
        Equiv.refl String entry.name := fun _ => rfl
    rw [functions_table, functions_table, entries]
    exact SymbolTable.foldl_addNew_map FunctionEntry.name stays _ []
  have patterns : (program.relabel labels).table.patterns =
      program.table.patterns.map (PatternEntry.relabel labels) := by
    have entries : (program.relabel labels).patterns.map PatternEntry.fresh =
        (program.patterns.map PatternEntry.fresh).map (PatternEntry.relabel labels) := by
      rw [relabel, List.map_map, List.map_map]
      rfl
    have moves : ∀ entry : PatternEntry, (entry.relabel labels).name = labels.key entry.name :=
      fun _ => rfl
    rw [patterns_table, patterns_table, entries]
    exact SymbolTable.foldl_addNew_map PatternEntry.name moves _ []
  rw [table_eq, functions, patterns]
  conv_rhs => rw [table_eq program]
  rfl

/-! ## Bodies -/

namespace Resolution.Lexical

variable {labels}

@[simp]
theorem missing_relabel (known : Bool) (problem : Problem) (position : Position) :
    (missing known problem position).map (Diagnostic.relabel labels) =
      missing known (problem.relabel labels) position := by
  cases known <;> rfl

@[simp]
theorem arityReports_relabel (callee : String) (params : List Param) (supplied : Nat)
    (position : Position) :
    arityReports callee (Param.relabelAll labels params) supplied position =
      (arityReports callee params supplied position).map (Diagnostic.relabel labels) := by
  simp [arityReports, acceptsArguments, Problem.relabel]

variable {table : SymbolTable}

theorem calleeReports_relabel (visible : List String) (name : String) (supplied : Nat)
    (position : Position) :
    calleeReports (table.relabel labels) visible name supplied position =
      (calleeReports table visible name supplied position).map (Diagnostic.relabel labels) := by
  rw [calleeReports, calleeReports, SymbolTable.function?_relabel]
  cases table.function? name with
  | none => exact (missing_relabel _ (.functionUndeclared name) position).symm
  | some entry => exact arityReports_relabel name entry.declaration.params supplied position

mutual

theorem exprReports_relabel (visible : List String) : ∀ expression : Expr,
    exprReports (table.relabel labels) visible (expression.relabel labels) =
      (exprReports table visible expression).map (Diagnostic.relabel labels)
  | .var _ _ => by simp [Expr.relabel, exprReports, Problem.relabel]
  | .int _ _ | .float _ _ | .bool _ _ | .string _ _ => rfl
  | .list _ elements => exprsReports_relabel visible elements
  | .pointer _ function => by
    simp [Expr.relabel, exprReports, Problem.relabel]
  | .binary _ _ left right => by
    rw [Expr.relabel, exprReports, exprReports, List.map_append,
      exprReports_relabel visible left, exprReports_relabel visible right]
  | .unary _ _ operand | .len _ operand | .chop _ operand | .chomp _ operand =>
    exprReports_relabel visible operand
  | .call _ callee arguments => by
    have inArguments := exprsReports_relabel visible arguments
    have inCallee := exprReports_relabel visible callee
    cases callee with
    | var place name =>
      rw [Expr.relabel, Expr.relabel, exprReports, exprReports, List.map_append, inArguments,
        Expr.length_relabelAll, calleeReports_relabel]
    | lambda place params body =>
      have inParams := paramReports_relabel visible params
      have inBody := bodyReports_relabel (Param.visibleAfter visible params) body
      simp only [Expr.relabel, exprReports, List.map_append, inArguments, inParams, inBody,
        Expr.length_relabelAll, arityReports_relabel, Param.visibleAfter_relabelAll]
    | _ =>
      refine Eq.trans ?_ List.map_append.symm
      exact congrArg₂ (· ++ ·) inCallee inArguments
  | .index _ target indices => by
    rw [Expr.relabel, exprReports, exprReports, List.map_append,
      exprReports_relabel visible target, exprsReports_relabel visible indices]
  | .lambda _ params body => by
    rw [Expr.relabel, exprReports, exprReports, List.map_append,
      Param.visibleAfter_relabelAll, paramReports_relabel visible params,
      bodyReports_relabel (Param.visibleAfter visible params) body]
  | .append _ target values => by
    rw [Expr.relabel, exprReports, exprReports, List.map_append,
      exprReports_relabel visible target, exprsReports_relabel visible values]
  | .matching _ pattern argument => by
    rw [Expr.relabel, exprReports, exprReports, List.map_append, missing_relabel,
      exprReports_relabel visible argument, ← table.hasPattern_relabel labels pattern]
    rfl
termination_by structural expression => expression

theorem exprsReports_relabel (visible : List String) : ∀ expressions : List Expr,
    exprsReports (table.relabel labels) visible (Expr.relabelAll labels expressions) =
      (exprsReports table visible expressions).map (Diagnostic.relabel labels)
  | [] => rfl
  | expression :: expressions => by
    rw [Expr.relabelAll, exprsReports, exprsReports, List.map_append,
      exprReports_relabel visible expression,
      exprsReports_relabel visible expressions]
termination_by structural expressions => expressions

theorem paramReports_relabel (visible : List String) : ∀ params : List Param,
    paramReports (table.relabel labels) visible (Param.relabelAll labels params) =
      (paramReports table visible params).map (Diagnostic.relabel labels)
  | [] => rfl
  | ⟨name, none⟩ :: params => paramReports_relabel (name.name :: visible) params
  | ⟨name, some default⟩ :: params => by
    rw [Param.relabelAll, paramReports, paramReports, List.map_append,
      exprReports_relabel (name.name :: visible) default,
      paramReports_relabel (name.name :: visible) params]
termination_by structural params => params

theorem rangeReports_relabel (visible : List String) : ∀ range : Range,
    rangeReports (table.relabel labels) visible (range.relabel labels) =
      (rangeReports table visible range).map (Diagnostic.relabel labels)
  | .elements values => exprsReports_relabel visible values
  | .value operand => exprReports_relabel visible operand
  | .span first last => by
    rw [Range.relabel, rangeReports, rangeReports, List.map_append,
      exprReports_relabel visible first, exprReports_relabel visible last]
termination_by structural range => range

theorem stmtReports_relabel (visible : List String) : ∀ statement : Stmt,
    stmtReports (table.relabel labels) visible (statement.relabel labels) =
      (stmtReports table visible statement).map (Diagnostic.relabel labels)
  | .expr _ value | .put _ value | .ret _ (some value) => exprReports_relabel visible value
  | .assign _ _ (some index) _ value => by
    rw [Stmt.relabel, stmtReports, stmtReports, List.map_append, List.map_append,
      missing_relabel, exprReports_relabel visible index,
      exprReports_relabel visible value]
    rfl
  | .assign _ _ none operator value => by
    rw [Stmt.relabel, stmtReports, stmtReports, List.map_append,
      exprReports_relabel visible value]
    split
    · rw [missing_relabel]
      rfl
    · rfl
  | .ifElse _ conditions thenBody elseBody => by
    rw [Stmt.relabel, stmtReports, stmtReports, List.map_append, List.map_append,
      exprsReports_relabel visible conditions,
      bodyReports_relabel visible thenBody,
      bodyReports_relabel visible elseBody]
  | .ret _ none => rfl
  | .push _ target value => by
    rw [Stmt.relabel, stmtReports, stmtReports, List.map_append,
      exprReports_relabel visible target, exprReports_relabel visible value]
  | .loop _ body => bodyReports_relabel visible body
  | .forEach _ iterator range body => by
    rw [Stmt.relabel, stmtReports, stmtReports, List.map_append,
      rangeReports_relabel visible range,
      bodyReports_relabel (iterator :: visible) body]
  | .breakWhen _ conditions | .nextWhen _ conditions =>
    exprsReports_relabel visible conditions
termination_by structural statement => statement

theorem bodyReports_relabel (visible : List String) : ∀ statements : List Stmt,
    bodyReports (table.relabel labels) visible (Stmt.relabelAll labels statements) =
      (bodyReports table visible statements).map (Diagnostic.relabel labels)
  | [] => rfl
  | statement :: statements => by
    rw [Stmt.relabelAll, bodyReports, bodyReports, List.map_append,
      Stmt.visibleAfter_relabel, stmtReports_relabel visible statement,
      bodyReports_relabel (statement.visibleAfter visible) statements]
termination_by structural statements => statements

end

theorem functionReports_relabel (function : Function) :
    functionReports (table.relabel labels) (function.relabel labels) =
      (functionReports table function).map (Diagnostic.relabel labels) := by
  have params : (function.relabel labels).params.flatMap (fun param =>
        missing (param.name.name != function.name.baseName)
          (.parameterNamedAsFunction param.name.name) function.position) =
      (function.params.flatMap fun param =>
        missing (param.name.name != function.name.baseName)
          (.parameterNamedAsFunction param.name.name) function.position).map
        (Diagnostic.relabel labels) := by
    simp [Function.relabel, Param.relabelAll_eq_map, List.flatMap_map, List.map_flatMap,
      Problem.relabel]
  rw [functionReports, functionReports, List.map_append, List.map_append]
  refine congrArg₂ (· ++ ·) params (congrArg₂ (· ++ ·) ?_ ?_)
  · exact paramReports_relabel [] function.params
  · rw [Function.relabel, Param.visibleAfter_relabelAll]
    exact bodyReports_relabel _ function.body

theorem patternReports_relabel (pattern : Pattern) :
    patternReports (table.relabel labels) (pattern.relabel labels) =
      (patternReports table pattern).map (Diagnostic.relabel labels) := by
  rw [patternReports, patternReports, List.map_append, Pattern.relabel,
    exprsReports_relabel, exprsReports_relabel]

theorem programReports_relabel (program : Program) :
    programReports (table.relabel labels) (program.relabel labels) =
      (programReports table program).map (Diagnostic.relabel labels) := by
  simp only [programReports, Program.relabel, List.map_append, List.flatMap_map, List.map_flatMap,
    functionReports_relabel, patternReports_relabel,
    bodyReports_relabel]

end Resolution.Lexical

namespace Program

open Resolution

theorem nodup_functionNames_relabel {program : Program} (functions : program.functionNames.Nodup) :
    (program.relabel labels).functionNames.Nodup := by
  rwa [functionNames_relabel]

theorem nodup_patternNames_relabel {program : Program} (patterns : program.patternNames.Nodup) :
    (program.relabel labels).patternNames.Nodup := by
  rw [patternNames_relabel]
  exact patterns.map labels.key.injective

/-- Where all names differ, resolution reports the same under the new names. -/
theorem resolve_relabel {program : Program} (functions : program.functionNames.Nodup)
    (patterns : program.patternNames.Nodup) (sink : Sink) :
    (program.relabel labels).resolve (sink.relabel labels) =
      (program.relabel labels, (program.resolve sink).2.relabel labels) := by
  rw [resolve_of_distinct functions patterns,
    resolve_of_distinct (nodup_functionNames_relabel labels functions)
      (nodup_patternNames_relabel labels patterns),
    table_relabel, Lexical.programReports_relabel, Sink.reportAll_relabel]

/-! ## Cycles -/

theorem callGraph_relabel (program : Program) :
    CallGraph.ofProgram (program.relabel labels) = CallGraph.ofProgram program := by
  have added : ∀ (graph : CallGraph) (function : Function),
      graph.addFunction program.functionNames (function.relabel labels) =
        graph.addFunction program.functionNames function := by
    intro graph function
    rw [CallGraph.addFunction, Function.references_relabel]
    rfl
  rw [CallGraph.ofProgram, CallGraph.ofProgram, functionNames_relabel, relabel, List.foldl_map]
  simp only [added]

theorem cyclesUnder_relabel (program : Program) (config : Config) :
    (program.relabel labels).cyclesUnder config = program.cyclesUnder config := by
  rw [cyclesUnder, cyclesUnder, callGraph_relabel]

theorem reportCycles_relabel (program : Program) (cycles : List (List String)) (sink : Sink) :
    (program.relabel labels).reportCycles cycles (sink.relabel labels) =
      (program.reportCycles cycles sink).relabel labels := by
  have declared : (program.relabel labels).declaredAt? = program.declaredAt? := by
    funext name
    rw [declaredAt?, declaredAt?, relabel, ← List.map_reverse, List.find?_map, Option.map_map]
    rfl
  have diagnostic : ∀ cycle, (program.relabel labels).cycleDiagnostic cycle =
      (program.cycleDiagnostic cycle).relabel labels := by
    intro cycle
    rw [cycleDiagnostic, declared]
    rfl
  rw [reportCycles, reportCycles, ← Sink.reportAll_relabel, List.map_map]
  exact congrArg _ (List.map_congr_left fun cycle _ => diagnostic cycle)

end Program

end CallSite
