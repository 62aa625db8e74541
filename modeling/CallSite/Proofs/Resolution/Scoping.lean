import CallSite.Proofs.Resolution.Recovery
import Mathlib.Data.Finset.Insert

/-!
# Scoping by sets of names

What a program is to be told about its names, said in two steps.  The first lists the places where
names are used, each with the set of variables visible there; the second judges each place by
itself, against the declarations of the program.  There is no stack: a branch, a loop or a lambda
reads a copy of the set, and what is added to the copy is gone after it.  Resolution reports what
the two steps find, in the order of the places.
-/

namespace CallSite

namespace Resolution

/-- A place that resolution judges. -/
inductive JudgedUse where
  | readVariable (position : Position) (name : String)
  | callByName (position : Position) (name : String) (supplied : Nat)
  | callOfLambda (position : Position) (params : List Param) (supplied : Nat)
  | pointTo (position : Position) (function : String)
  | matchOn (position : Position) (pattern : String)

/-- A use among the variables that are visible there. -/
structure Place where
  use : JudgedUse
  visible : Finset String

namespace Place

/-! ## Where names are used -/

/-- The variables visible after some parameters, declared from left to right. -/
def afterParams (visible : Finset String) : List Param → Finset String
  | [] => visible
  | param :: params => afterParams (insert param.name.name visible) params

/-- The variables visible after a statement: only a plain assignment without an index adds one. -/
def afterStmt (visible : Finset String) : Stmt → Finset String
  | .assign _ target none operator _ =>
    if operator.isCompound then visible else insert target visible
  | _ => visible

mutual

/-- The places of an expression, in the order they are judged. -/
def ofExpr (visible : Finset String) : Expr → List Place
  | .var position name => [⟨.readVariable position name, visible⟩]
  | .int _ _ | .float _ _ | .bool _ _ | .string _ _ => []
  | .list _ elements => ofExprs visible elements
  | .pointer position function => [⟨.pointTo position function, visible⟩]
  | .binary _ _ left right => ofExpr visible left ++ ofExpr visible right
  | .unary _ _ operand | .len _ operand | .chop _ operand | .chomp _ operand =>
    ofExpr visible operand
  | .call _ (.var position name) arguments =>
    ⟨.callByName position name arguments.length, visible⟩ :: ofExprs visible arguments
  | .call _ (.lambda position params body) arguments =>
    ofParams visible params ++ (ofBody (afterParams visible params) body ++
      ⟨.callOfLambda position params arguments.length, visible⟩ :: ofExprs visible arguments)
  | .call _ callee arguments => ofExpr visible callee ++ ofExprs visible arguments
  | .index _ target indices => ofExpr visible target ++ ofExprs visible indices
  | .lambda _ params body =>
    ofParams visible params ++ ofBody (afterParams visible params) body
  | .append _ target values => ofExpr visible target ++ ofExprs visible values
  | .matching position pattern argument =>
    ⟨.matchOn position pattern, visible⟩ :: ofExpr visible argument
termination_by structural expression => expression

def ofExprs (visible : Finset String) : List Expr → List Place
  | [] => []
  | expression :: expressions => ofExpr visible expression ++ ofExprs visible expressions
termination_by structural expressions => expressions

/-- A default sees its own parameter and those before it. -/
def ofParams (visible : Finset String) : List Param → List Place
  | [] => []
  | ⟨name, none⟩ :: params => ofParams (insert name.name visible) params
  | ⟨name, some default⟩ :: params =>
    ofExpr (insert name.name visible) default ++ ofParams (insert name.name visible) params
termination_by structural params => params

def ofRange (visible : Finset String) : Range → List Place
  | .elements values => ofExprs visible values
  | .value operand => ofExpr visible operand
  | .span first last => ofExpr visible first ++ ofExpr visible last
termination_by structural range => range

/-- An indexed target is judged after the index and the value, a compound one after the value. -/
def ofStmt (visible : Finset String) : Stmt → List Place
  | .expr _ value | .put _ value | .ret _ (some value) => ofExpr visible value
  | .assign position target (some index) _ value =>
    ofExpr visible index ++ (ofExpr visible value ++ [⟨.readVariable position target, visible⟩])
  | .assign position target none operator value =>
    ofExpr visible value ++
      if operator.isCompound then [⟨.readVariable position target, visible⟩] else []
  | .ifElse _ conditions thenBody elseBody =>
    ofExprs visible conditions ++ (ofBody visible thenBody ++ ofBody visible elseBody)
  | .ret _ none => []
  | .push _ target value => ofExpr visible target ++ ofExpr visible value
  | .loop _ body => ofBody visible body
  | .forEach _ iterator range body =>
    ofRange visible range ++ ofBody (insert iterator visible) body
  | .breakWhen _ conditions | .nextWhen _ conditions => ofExprs visible conditions
termination_by structural statement => statement

def ofBody (visible : Finset String) : List Stmt → List Place
  | [] => []
  | statement :: statements =>
    ofStmt visible statement ++ ofBody (afterStmt visible statement) statements
termination_by structural statements => statements

end

/-- The body of a function sees its parameters and nothing else. -/
def ofFunction (function : Function) : List Place :=
  ofParams ∅ function.params ++ ofBody (afterParams ∅ function.params) function.body

/-- The cases of a pattern see its target and nothing else. -/
def ofPattern (pattern : Pattern) : List Place :=
  ofExprs {pattern.target.name} pattern.conditions ++
    ofExprs {pattern.target.name} pattern.returns

def ofProgram (program : Program) : List Place :=
  program.functions.flatMap ofFunction ++
    (program.patterns.flatMap ofPattern ++ ofBody ∅ program.main.body)

/-! ## What is wrong with a place -/

/-- A number of arguments must lie between the number of parameters without the defaults at their
end and the number of all parameters. -/
def arityProblem? (callee : String) (params : List Param) (supplied : Nat) : Option Problem :=
  let most := params.length
  let least := most - Param.trailingDefaults params
  if least ≤ supplied ∧ supplied ≤ most then none else some (.arity callee least most supplied)

/-- The report that a place calls for in a program. -/
def report? (program : Program) : Place → Option Diagnostic
  | ⟨.readVariable position name, visible⟩ =>
    if name ∈ visible then none else some ⟨.variableUndeclared name, position⟩
  | ⟨.callByName position name supplied, visible⟩ =>
    match program.function? name with
    | some function => (arityProblem? name function.params supplied).map (⟨·, position⟩)
    | none => if name ∈ visible then none else some ⟨.functionUndeclared name, position⟩
  | ⟨.callOfLambda position params supplied, _⟩ =>
    (arityProblem? lambdaName params supplied).map (⟨·, position⟩)
  | ⟨.pointTo position function, _⟩ =>
    if function ∈ program.functionNames then none
    else some ⟨.functionUndeclared function, position⟩
  | ⟨.matchOn position pattern, _⟩ =>
    if pattern ∈ program.patternNames then none
    else some ⟨.patternUndeclared pattern, position⟩

end Place

/-- The reports that the places of a program call for. -/
def scopingReports (program : Program) : List Diagnostic :=
  (Place.ofProgram program).filterMap (Place.report? program)

end Resolution

namespace Problem

/-- The problem is one of a single place: no clash between two declarations, and none between a
function and its parameter. -/
def ofPlace : Problem → Bool
  | functionRedefined _ | patternRedefined _ | parameterNamedAsFunction _ => false
  | _ => true

end Problem

namespace Resolution

namespace Place

open Lexical

theorem ofPlace_of_report? {program : Program} {place : Place} {report : Diagnostic}
    (reported : place.report? program = some report) : report.problem.ofPlace = true := by
  obtain ⟨use, visible⟩ := place
  cases use with
  | readVariable | callOfLambda | pointTo | matchOn =>
    grind [report?, arityProblem?, Problem.ofPlace]
  | callByName position name supplied =>
    cases found : program.function? name with
    | none => grind [report?, Problem.ofPlace]
    | some function => grind [report?, arityProblem?, Problem.ofPlace]

/-! ## The list and the set of visible names -/

/-- The list and the set hold the same names. -/
def Agree (names : List String) (visible : Finset String) : Prop :=
  ∀ name, name ∈ visible ↔ name ∈ names

namespace Agree

variable {names : List String} {visible : Finset String}

theorem empty : Agree [] ∅ := by simp [Agree]

theorem singleton (name : String) : Agree [name] {name} := by simp [Agree]

theorem insert (agree : Agree names visible) (name : String) :
    Agree (name :: names) (Insert.insert name visible) := by
  intro other
  rw [Finset.mem_insert, List.mem_cons, agree]

theorem afterParams (agree : Agree names visible) (params : List Param) :
    Agree (Param.visibleAfter names params) (Place.afterParams visible params) := by
  induction params generalizing names visible with
  | nil => exact agree
  | cons param params ih => exact ih (agree.insert param.name.name)

theorem afterStmt (agree : Agree names visible) (statement : Stmt) :
    Agree (statement.visibleAfter names) (Place.afterStmt visible statement) := by
  cases statement with
  | assign position target index operator value =>
    cases index with
    | some index => exact agree
    | none =>
      rw [Stmt.visibleAfter, Place.afterStmt]
      split
      · exact agree
      · exact agree.insert target
  | _ => exact agree

end Agree

/-! ## Both find the same -/

/-- The places call for the given reports. -/
def CallFor (program : Program) (places : List Place) (reports : List Diagnostic) : Prop :=
  places.filterMap (report? program) = reports

namespace CallFor

variable {program : Program} {names : List String} {visible : Finset String}

theorem nil : CallFor program [] [] := rfl

theorem append {first second : List Place} {early late : List Diagnostic}
    (left : CallFor program first early) (right : CallFor program second late) :
    CallFor program (first ++ second) (early ++ late) := by
  rw [CallFor, List.filterMap_append, left, right]

theorem flatMap {α : Type} {places : α → List Place} {reports : α → List Diagnostic}
    (each : ∀ item, CallFor program (places item) (reports item)) (items : List α) :
    CallFor program (items.flatMap places) (items.flatMap reports) := by
  induction items with
  | nil => exact nil
  | cons item items ih => exact (each item).append ih

/-- One place, judged by a condition. -/
theorem judged {place : Place} {condition : Prop} [Decidable condition] {known : Bool}
    {problem : Problem} {position : Position}
    (rule : place.report? program = if condition then none else some ⟨problem, position⟩)
    (same : known = true ↔ condition) :
    CallFor program [place] (missing known problem position) := by
  unfold CallFor missing
  by_cases holds : condition
  · rw [if_pos (same.mpr holds)]
    simp [rule, holds]
  · rw [if_neg (mt same.mp holds)]
    simp [rule, holds]

theorem readVariable (agree : Agree names visible) (position : Position) (name : String) :
    CallFor program [⟨.readVariable position name, visible⟩]
      (missing (names.contains name) (.variableUndeclared name) position) :=
  judged rfl (List.contains_iff_mem.trans (agree name).symm)

theorem pointTo (position : Position) (function : String) :
    CallFor program [⟨.pointTo position function, visible⟩]
      (missing (program.table.hasFunction function) (.functionUndeclared function) position) :=
  judged rfl (program.hasFunction_table_iff function)

theorem matchOn (position : Position) (pattern : String) :
    CallFor program [⟨.matchOn position pattern, visible⟩]
      (missing (program.table.hasPattern pattern) (.patternUndeclared pattern) position) :=
  judged rfl (program.hasPattern_table_iff pattern)

/-- One place, judged by a number of arguments. -/
theorem counted {place : Place} {callee : String} {params : List Param} {supplied : Nat}
    {position : Position}
    (rule : place.report? program = (arityProblem? callee params supplied).map (⟨·, position⟩)) :
    CallFor program [place] (arityReports callee params supplied position) := by
  have judgement : place.report? program =
      if Param.leastArguments params ≤ supplied ∧ supplied ≤ Param.mostArguments params then none
      else some ⟨.arity callee (Param.leastArguments params) (Param.mostArguments params) supplied,
        position⟩ := by
    rw [rule, arityProblem?, apply_ite (Option.map _)]
    rfl
  exact judged judgement decide_eq_true_iff

theorem callOfLambda (position : Position) (params : List Param) (supplied : Nat) :
    CallFor program [⟨.callOfLambda position params supplied, visible⟩]
      (arityReports lambdaName params supplied position) :=
  counted rfl

theorem callByName (agree : Agree names visible) (position : Position) (name : String)
    (supplied : Nat) :
    CallFor program [⟨.callByName position name supplied, visible⟩]
      (calleeReports program.table names name supplied position) := by
  have declared := program.function?_table name
  rw [calleeReports]
  cases found : program.table.function? name with
  | some entry =>
    rw [found] at declared
    refine counted ?_
    rw [report?, ← declared]
    rfl
  | none =>
    rw [found] at declared
    refine judged ?_ (List.contains_iff_mem.trans (agree name).symm)
    rw [report?, ← declared]
    rfl

mutual

theorem expr {names : List String} {visible : Finset String} (agree : Agree names visible) :
    ∀ expression : Expr, CallFor program (ofExpr visible expression)
      (exprReports program.table names expression)
  | .var position name => readVariable agree position name
  | .int _ _ | .float _ _ | .bool _ _ | .string _ _ => nil
  | .list _ elements => exprs agree elements
  | .pointer position function => pointTo position function
  | .binary _ _ left right => (expr agree left).append (expr agree right)
  | .unary _ _ operand | .len _ operand | .chop _ operand | .chomp _ operand =>
    expr agree operand
  | .call _ callee arguments => by
    have given := exprs agree arguments
    cases callee with
    | var place name => exact (callByName agree place name arguments.length).append given
    | lambda place params statements =>
      exact (param agree params).append ((body (agree.afterParams params) statements).append
        ((callOfLambda place params arguments.length).append given))
    | _ => exact (expr agree _).append given
  | .index _ target values | .append _ target values =>
    (expr agree target).append (exprs agree values)
  | .lambda _ params statements =>
    (param agree params).append (body (agree.afterParams params) statements)
  | .matching position pattern argument =>
    (matchOn position pattern).append (expr agree argument)
termination_by structural expression => expression

theorem exprs {names : List String} {visible : Finset String} (agree : Agree names visible) :
    ∀ expressions : List Expr, CallFor program (ofExprs visible expressions)
      (exprsReports program.table names expressions)
  | [] => nil
  | expression :: expressions => (expr agree expression).append (exprs agree expressions)
termination_by structural expressions => expressions

theorem param {names : List String} {visible : Finset String} (agree : Agree names visible) :
    ∀ params : List Param, CallFor program (ofParams visible params)
      (paramReports program.table names params)
  | [] => nil
  | ⟨name, none⟩ :: params => param (agree.insert name.name) params
  | ⟨name, some default⟩ :: params =>
    (expr (agree.insert name.name) default).append (param (agree.insert name.name) params)
termination_by structural params => params

theorem range {names : List String} {visible : Finset String} (agree : Agree names visible) :
    ∀ range : Range, CallFor program (ofRange visible range)
      (rangeReports program.table names range)
  | .elements values => exprs agree values
  | .value operand => expr agree operand
  | .span first last => (expr agree first).append (expr agree last)
termination_by structural range => range

theorem stmt {names : List String} {visible : Finset String} (agree : Agree names visible) :
    ∀ statement : Stmt, CallFor program (ofStmt visible statement)
      (stmtReports program.table names statement)
  | .expr _ value | .put _ value | .ret _ (some value) => expr agree value
  | .assign position target (some index) _ value =>
    (expr agree index).append ((expr agree value).append (readVariable agree position target))
  | .assign position target none operator value => by
    refine (expr agree value).append ?_
    split
    · exact readVariable agree position target
    · exact nil
  | .ifElse _ conditions thenBody elseBody =>
    (exprs agree conditions).append ((body agree thenBody).append (body agree elseBody))
  | .ret _ none => nil
  | .push _ target value => (expr agree target).append (expr agree value)
  | .loop _ statements => body agree statements
  | .forEach _ iterator values statements =>
    (range agree values).append (body (agree.insert iterator) statements)
  | .breakWhen _ conditions | .nextWhen _ conditions => exprs agree conditions
termination_by structural statement => statement

theorem body {names : List String} {visible : Finset String} (agree : Agree names visible) :
    ∀ statements : List Stmt, CallFor program (ofBody visible statements)
      (bodyReports program.table names statements)
  | [] => nil
  | statement :: statements =>
    (stmt agree statement).append (body (agree.afterStmt statement) statements)
termination_by structural statements => statements

end

theorem pattern (pattern : Pattern) :
    CallFor program (ofPattern pattern) (patternReports program.table pattern) :=
  (exprs (.singleton _) pattern.conditions).append (exprs (.singleton _) pattern.returns)

/-- Reports that places call for are about single places. -/
theorem filter_ofPlace {places : List Place} {reports : List Diagnostic}
    (calls : CallFor program places reports) : reports.filter (·.problem.ofPlace) = reports := by
  rw [List.filter_eq_self]
  intro report member
  rw [← calls] at member
  obtain ⟨place, _, reported⟩ := List.mem_filterMap.mp member
  exact ofPlace_of_report? reported

/-- Of the reports on a function those about its parameters' names come on top. -/
theorem function (function : Function) :
    CallFor program (ofFunction function)
      ((functionReports program.table function).filter (·.problem.ofPlace)) := by
  have places : CallFor program (ofFunction function)
      (paramReports program.table [] function.params ++
        bodyReports program.table (Param.visibleAfter [] function.params) function.body) :=
    (param .empty function.params).append (body (Agree.empty.afterParams _) function.body)
  have names : (function.params.flatMap fun param =>
      missing (param.name.name != function.name.baseName)
        (.parameterNamedAsFunction param.name.name) function.position).filter
          (·.problem.ofPlace) = [] := by
    rw [List.filter_eq_nil_iff]
    intro report member
    obtain ⟨param, _, named⟩ := List.mem_flatMap.mp member
    grind [missing, Problem.ofPlace]
  rw [functionReports, List.filter_append, names, List.nil_append, places.filter_ofPlace]
  exact places

end CallFor

/-- What lexical scoping finds in the bodies, as far as it is about single places. -/
theorem filter_programReports (program : Program) :
    (programReports program.table program).filter (·.problem.ofPlace) =
      scopingReports program := by
  have patterns : CallFor program _ _ := .flatMap CallFor.pattern program.patterns
  have main : CallFor program _ _ := .body .empty program.main.body
  rw [programReports, List.filter_append, List.filter_append, List.filter_flatMap,
    patterns.filter_ofPlace, main.filter_ofPlace]
  have functions : CallFor program _ _ := .flatMap CallFor.function program.functions
  exact (functions.append (patterns.append main)).symm

end Place

end Resolution

namespace Program

open Resolution

theorem ofPlace_of_mem_redefinitions {program : Program} {report : Diagnostic}
    (member : report ∈ program.redefinitions) : report.problem.ofPlace = false := by
  rcases List.mem_append.mp member with first | second
  · obtain ⟨function, rfl⟩ := functionNaming.redefined_of_mem_recover first
    rfl
  · obtain ⟨pattern, rfl⟩ := patternNaming.redefined_of_mem_recover second
    rfl

/-- Resolution makes the same reports in the same order whatever the sink does with them.  Apart
from clashes of declarations, and of a parameter with its function, they are those that the places
of the renamed program call for. -/
theorem resolution_is_lexical (program : Program) :
    let resolved := (program.resolve .plain).1
    let attempts := (program.resolve .plain).2.recorded
    attempts.filter (·.problem.ofPlace) = scopingReports resolved ∧
      ∀ sink, program.resolve sink = (resolved, sink.reportAll attempts) := by
  intro resolved attempts
  have clashes : program.redefinitions.filter (·.problem.ofPlace) = [] := by
    rw [List.filter_eq_nil_iff]
    intro report member
    rw [ofPlace_of_mem_redefinitions member]
    decide
  have all : attempts = program.redefinitions ++
      Lexical.programReports program.recovered.table program.recovered := by
    simp only [attempts, program.resolve_eq .plain, Sink.reportAll_plain]
  have renamed : resolved = program.recovered := congrArg Prod.fst (program.resolve_eq .plain)
  rw [all, renamed]
  constructor
  · rw [List.filter_append, clashes, List.nil_append, Place.filter_programReports]
  · exact program.resolve_eq

end Program

end CallSite
