import Mathlib.Data.List.Basic
import Mathlib.Logic.Equiv.Basic
import CallSite.Diagnostic.Sink
import CallSite.Proofs.Syntax.Visibility
import CallSite.Syntax.References

/-!
# New names for patterns

A relabelling gives patterns other names, where they are declared and wherever a match names them.
Nothing else in a program changes: expressions stay where they are, functions refer to the same
functions, and the same names are visible.
-/

namespace CallSite

/-- New names for patterns.  A report shows only the part of a name before a `#`, and so such parts
have new names of their own. -/
structure Relabelling where
  key : Equiv.Perm String
  shown : Equiv.Perm String

namespace Relabelling

/-- Exchange the name of a pattern with a name without `#`.  In a program where the other name does
not occur this renames the pattern. -/
def exchange (pattern : Identifier) (other : String) : Relabelling where
  key := Equiv.swap pattern.name other
  shown := Equiv.swap pattern.baseName other

theorem contains_map {α β : Type} [BEq α] [LawfulBEq α] [BEq β] [LawfulBEq β] {change : α → β}
    (injective : Function.Injective change) (items : List α) (item : α) :
    (items.map change).contains (change item) = items.contains item := by
  rw [Bool.eq_iff_iff, List.contains_iff_mem, List.contains_iff_mem,
    List.mem_map_of_injective injective]

/-- A search by name finds the same item where items and names change alike. -/
theorem find?_map {α : Type} (nameOf : α → String) {change : α → α} {names : Equiv.Perm String}
    (named : ∀ item, nameOf (change item) = names (nameOf item)) (items : List α)
    (name : String) :
    (items.map change).find? (nameOf · == names name) =
      (items.find? (nameOf · == name)).map change := by
  have same : (nameOf · == names name) ∘ change = (nameOf · == name) := by
    funext item
    rw [Function.comp_apply, named, Bool.eq_iff_iff]
    simp
  rw [List.find?_map, same]

end Relabelling

variable (labels : Relabelling)

/-! ## Programs -/

mutual

def Expr.relabel : Expr → Expr
  | .var position name => .var position name
  | .int position value => .int position value
  | .float position value => .float position value
  | .bool position value => .bool position value
  | .string position value => .string position value
  | .pointer position function => .pointer position function
  | .list position elements => .list position (Expr.relabelAll elements)
  | .binary position operator left right =>
    .binary position operator (Expr.relabel left) (Expr.relabel right)
  | .unary position operator operand => .unary position operator (Expr.relabel operand)
  | .call position callee arguments =>
    .call position (Expr.relabel callee) (Expr.relabelAll arguments)
  | .index position target indices =>
    .index position (Expr.relabel target) (Expr.relabelAll indices)
  | .lambda position params body =>
    .lambda position (Param.relabelAll params) (Stmt.relabelAll body)
  | .append position target values =>
    .append position (Expr.relabel target) (Expr.relabelAll values)
  | .len position operand => .len position (Expr.relabel operand)
  | .chop position operand => .chop position (Expr.relabel operand)
  | .chomp position operand => .chomp position (Expr.relabel operand)
  | .matching position pattern argument =>
    .matching position (labels.key pattern) (Expr.relabel argument)
termination_by structural expression => expression

def Expr.relabelAll : List Expr → List Expr
  | [] => []
  | expression :: expressions => Expr.relabel expression :: Expr.relabelAll expressions
termination_by structural expressions => expressions

def Param.relabelAll : List Param → List Param
  | [] => []
  | ⟨name, some default⟩ :: params => ⟨name, some (Expr.relabel default)⟩ :: Param.relabelAll params
  | ⟨name, none⟩ :: params => ⟨name, none⟩ :: Param.relabelAll params
termination_by structural params => params

def Range.relabel : Range → Range
  | .elements values => .elements (Expr.relabelAll values)
  | .value operand => .value (Expr.relabel operand)
  | .span first last => .span (Expr.relabel first) (Expr.relabel last)
termination_by structural range => range

def Stmt.relabel : Stmt → Stmt
  | .expr position value => .expr position (Expr.relabel value)
  | .assign position target (some index) operator value =>
    .assign position target (some (Expr.relabel index)) operator (Expr.relabel value)
  | .assign position target none operator value =>
    .assign position target none operator (Expr.relabel value)
  | .ifElse position conditions thenBody elseBody =>
    .ifElse position (Expr.relabelAll conditions) (Stmt.relabelAll thenBody)
      (Stmt.relabelAll elseBody)
  | .ret position (some value) => .ret position (some (Expr.relabel value))
  | .ret position none => .ret position none
  | .put position value => .put position (Expr.relabel value)
  | .push position target value => .push position (Expr.relabel target) (Expr.relabel value)
  | .loop position body => .loop position (Stmt.relabelAll body)
  | .forEach position iterator range body =>
    .forEach position iterator (Range.relabel range) (Stmt.relabelAll body)
  | .breakWhen position conditions => .breakWhen position (Expr.relabelAll conditions)
  | .nextWhen position conditions => .nextWhen position (Expr.relabelAll conditions)
termination_by structural statement => statement

def Stmt.relabelAll : List Stmt → List Stmt
  | [] => []
  | statement :: statements => Stmt.relabel statement :: Stmt.relabelAll statements
termination_by structural statements => statements

end

def Function.relabel (function : Function) : Function :=
  { function with
    params := Param.relabelAll labels function.params
    body := Stmt.relabelAll labels function.body }

def Pattern.relabel (pattern : Pattern) : Pattern :=
  { pattern with
    name := { pattern.name with name := labels.key pattern.name.name }
    conditions := Expr.relabelAll labels pattern.conditions
    returns := Expr.relabelAll labels pattern.returns }

def Program.relabel (program : Program) : Program where
  functions := program.functions.map (Function.relabel labels)
  patterns := program.patterns.map (Pattern.relabel labels)
  main := { program.main with body := Stmt.relabelAll labels program.main.body }

/-! ## Reports -/

def Problem.relabel : Problem → Problem
  | .patternRedefined pattern => .patternRedefined (labels.key pattern)
  | .patternUndeclared pattern => .patternUndeclared (labels.key pattern)
  | .patternReturnsDiffer pattern => .patternReturnsDiffer (labels.shown pattern)
  | problem => problem

def Diagnostic.relabel (diagnostic : Diagnostic) : Diagnostic :=
  { diagnostic with problem := diagnostic.problem.relabel labels }

theorem Problem.relabel_injective : Function.Injective (Problem.relabel labels) := by
  intro problem other same
  cases problem <;> cases other <;> simp_all [Problem.relabel]

theorem Diagnostic.relabel_injective : Function.Injective (Diagnostic.relabel labels) := by
  rintro ⟨problem, position⟩ ⟨other, place⟩ same
  obtain ⟨problems, positions⟩ := Diagnostic.mk.inj same
  exact congrArg₂ Diagnostic.mk (Problem.relabel_injective labels problems) positions

def Sink.relabel (sink : Sink) : Sink :=
  { sink with recorded := sink.recorded.map (Diagnostic.relabel labels) }

/-- A sink drops the same reports under their new names, since no two of them are confused. -/
theorem Sink.report_relabel (sink : Sink) (report : Diagnostic) :
    (sink.relabel labels).report (report.relabel labels) =
      (sink.report report).relabel labels := by
  have known : (sink.relabel labels).recorded.contains (report.relabel labels) =
      sink.recorded.contains report :=
    Relabelling.contains_map (Diagnostic.relabel_injective labels) sink.recorded report
  have dropped : (sink.relabel labels).drops (report.relabel labels) = sink.drops report := by
    rw [Sink.drops, Sink.drops, known]
    rfl
  rw [Sink.report, Sink.report, dropped]
  split
  · rfl
  · simp [Sink.relabel]

theorem Sink.reportAll_relabel (sink : Sink) (reports : List Diagnostic) :
    (sink.relabel labels).reportAll (reports.map (Diagnostic.relabel labels)) =
      (sink.reportAll reports).relabel labels := by
  induction reports generalizing sink with
  | nil => rfl
  | cons report reports ih =>
    rw [List.map_cons, Sink.reportAll, List.foldl_cons, Sink.report_relabel]
    exact ih _

/-! ## What stays -/

@[simp]
theorem Expr.position_relabel (expression : Expr) :
    (expression.relabel labels).position = expression.position := by
  cases expression <;> rfl

@[simp]
theorem Expr.length_relabelAll (expressions : List Expr) :
    (Expr.relabelAll labels expressions).length = expressions.length := by
  induction expressions with
  | nil => rfl
  | cons expression expressions ih => simp [Expr.relabelAll, ih]

theorem Param.relabelAll_eq_map (params : List Param) :
    Param.relabelAll labels params = params.map fun param =>
      { param with default := param.default.map (Expr.relabel labels) } := by
  induction params with
  | nil => rfl
  | cons param params ih =>
    obtain ⟨name, default⟩ := param
    cases default <;> simp [Param.relabelAll, ih]

@[simp]
theorem Param.map_name_relabelAll (params : List Param) :
    (Param.relabelAll labels params).map (·.name) = params.map (·.name) := by
  simp [Param.relabelAll_eq_map]

@[simp]
theorem Param.leastArguments_relabelAll (params : List Param) :
    Param.leastArguments (Param.relabelAll labels params) = Param.leastArguments params := by
  simp [Param.leastArguments, Param.trailingDefaults, Param.relabelAll_eq_map, ← List.map_reverse,
    List.takeWhile_map, Function.comp_def]

@[simp]
theorem Param.mostArguments_relabelAll (params : List Param) :
    Param.mostArguments (Param.relabelAll labels params) = Param.mostArguments params := by
  simp [Param.mostArguments, Param.relabelAll_eq_map]

@[simp]
theorem Param.visibleAfter_relabelAll (visible : List String) (params : List Param) :
    Param.visibleAfter visible (Param.relabelAll labels params) =
      Param.visibleAfter visible params := by
  induction params generalizing visible with
  | nil => rfl
  | cons param params ih =>
    obtain ⟨name, default⟩ := param
    cases default <;> exact ih _

@[simp]
theorem Stmt.visibleAfter_relabel (visible : List String) (statement : Stmt) :
    (statement.relabel labels).visibleAfter visible = statement.visibleAfter visible := by
  cases statement with
  | assign position target index operator value => cases index <;> rfl
  | ret position value => cases value <;> rfl
  | _ => rfl

/-! ## References -/

mutual

theorem Expr.references_relabel : ∀ expression : Expr,
    (expression.relabel labels).references = expression.references
  | .var _ _ | .int _ _ | .float _ _ | .bool _ _ | .string _ _ | .pointer _ _ => rfl
  | .list _ elements => Expr.referencesOfAll_relabelAll elements
  | .binary _ _ left right => by
    rw [Expr.relabel, Expr.references, Expr.references, Expr.references_relabel left,
      Expr.references_relabel right]
  | .unary _ _ operand | .len _ operand | .chop _ operand | .chomp _ operand
  | .matching _ _ operand => Expr.references_relabel operand
  | .call _ callee arguments => by
    have inArguments := Expr.referencesOfAll_relabelAll arguments
    have inCallee := Expr.references_relabel callee
    cases callee with
    | var place name => exact congrArg (name :: ·) inArguments
    | _ => exact congrArg₂ (· ++ ·) inCallee inArguments
  | .index _ target indices => by
    rw [Expr.relabel, Expr.references, Expr.references, Expr.references_relabel target,
      Expr.referencesOfAll_relabelAll indices]
  | .lambda _ params body => by
    rw [Expr.relabel, Expr.references, Expr.references, Param.references_relabelAll params,
      Stmt.referencesOfAll_relabelAll body]
  | .append _ target values => by
    rw [Expr.relabel, Expr.references, Expr.references, Expr.references_relabel target,
      Expr.referencesOfAll_relabelAll values]
termination_by structural expression => expression

theorem Expr.referencesOfAll_relabelAll : ∀ expressions : List Expr,
    Expr.referencesOfAll (Expr.relabelAll labels expressions) = Expr.referencesOfAll expressions
  | [] => rfl
  | expression :: expressions => by
    rw [Expr.relabelAll, Expr.referencesOfAll, Expr.referencesOfAll,
      Expr.references_relabel expression, Expr.referencesOfAll_relabelAll expressions]
termination_by structural expressions => expressions

theorem Param.references_relabelAll : ∀ params : List Param,
    Param.references (Param.relabelAll labels params) = Param.references params
  | [] => rfl
  | ⟨_, some default⟩ :: params => by
    rw [Param.relabelAll, Param.references, Param.references, Expr.references_relabel default,
      Param.references_relabelAll params]
  | ⟨_, none⟩ :: params => Param.references_relabelAll params
termination_by structural params => params

theorem Range.references_relabel : ∀ range : Range,
    (range.relabel labels).references = range.references
  | .elements values => Expr.referencesOfAll_relabelAll values
  | .value operand => Expr.references_relabel operand
  | .span first last => by
    rw [Range.relabel, Range.references, Range.references, Expr.references_relabel first,
      Expr.references_relabel last]
termination_by structural range => range

theorem Stmt.references_relabel : ∀ statement : Stmt,
    (statement.relabel labels).references = statement.references
  | .expr _ value | .put _ value | .assign _ _ none _ value | .ret _ (some value) =>
    Expr.references_relabel value
  | .assign _ _ (some index) _ value => by
    rw [Stmt.relabel, Stmt.references, Stmt.references, Expr.references_relabel index,
      Expr.references_relabel value]
  | .ifElse _ conditions thenBody elseBody => by
    rw [Stmt.relabel, Stmt.references, Stmt.references,
      Expr.referencesOfAll_relabelAll conditions, Stmt.referencesOfAll_relabelAll thenBody,
      Stmt.referencesOfAll_relabelAll elseBody]
  | .ret _ none => rfl
  | .push _ target value => by
    rw [Stmt.relabel, Stmt.references, Stmt.references, Expr.references_relabel target,
      Expr.references_relabel value]
  | .loop _ body => Stmt.referencesOfAll_relabelAll body
  | .forEach _ _ range body => by
    rw [Stmt.relabel, Stmt.references, Stmt.references, Range.references_relabel range,
      Stmt.referencesOfAll_relabelAll body]
  | .breakWhen _ conditions | .nextWhen _ conditions => Expr.referencesOfAll_relabelAll conditions
termination_by structural statement => statement

theorem Stmt.referencesOfAll_relabelAll : ∀ statements : List Stmt,
    Stmt.referencesOfAll (Stmt.relabelAll labels statements) = Stmt.referencesOfAll statements
  | [] => rfl
  | statement :: statements => by
    rw [Stmt.relabelAll, Stmt.referencesOfAll, Stmt.referencesOfAll,
      Stmt.references_relabel statement, Stmt.referencesOfAll_relabelAll statements]
termination_by structural statements => statements

end

theorem Function.references_relabel (function : Function) :
    (function.relabel labels).references = function.references := by
  rw [Function.relabel, Function.references, Function.references, Param.references_relabelAll,
    Stmt.referencesOfAll_relabelAll]

@[simp]
theorem Program.functionNames_relabel (program : Program) :
    (program.relabel labels).functionNames = program.functionNames := by
  simp [Program.functionNames, Program.relabel, Function.relabel, Function.comp_def]

theorem Program.patternNames_relabel (program : Program) :
    (program.relabel labels).patternNames = program.patternNames.map labels.key := by
  simp [Program.patternNames, Program.relabel, Pattern.relabel, Function.comp_def]

end CallSite
