import CallSite.Syntax.References

/-!
# The parts of a declaration

The parts of an expression are the expressions that occur in it, itself included, at any depth and
inside lambdas as well.  A function refers to another one exactly where one of its parts is a call
by that name or a pointer to it.
-/

namespace CallSite

mutual

/-- The expressions that occur in an expression, in reading order. -/
def Expr.parts : Expr → List Expr
  | .var position name => [.var position name]
  | .int position value => [.int position value]
  | .float position value => [.float position value]
  | .bool position value => [.bool position value]
  | .string position value => [.string position value]
  | .pointer position function => [.pointer position function]
  | .list position elements => .list position elements :: Expr.partsOfAll elements
  | .binary position operator left right =>
    .binary position operator left right :: (left.parts ++ right.parts)
  | .unary position operator operand => .unary position operator operand :: operand.parts
  | .call position callee arguments =>
    .call position callee arguments :: (callee.parts ++ Expr.partsOfAll arguments)
  | .index position target indices =>
    .index position target indices :: (target.parts ++ Expr.partsOfAll indices)
  | .lambda position params body =>
    .lambda position params body :: (Param.parts params ++ Stmt.partsOfAll body)
  | .append position target values =>
    .append position target values :: (target.parts ++ Expr.partsOfAll values)
  | .len position operand => .len position operand :: operand.parts
  | .chop position operand => .chop position operand :: operand.parts
  | .chomp position operand => .chomp position operand :: operand.parts
  | .matching position pattern argument => .matching position pattern argument :: argument.parts
termination_by structural expression => expression

def Expr.partsOfAll : List Expr → List Expr
  | [] => []
  | expression :: expressions => expression.parts ++ Expr.partsOfAll expressions
termination_by structural expressions => expressions

/-- The expressions that occur in the defaults of parameters. -/
def Param.parts : List Param → List Expr
  | [] => []
  | ⟨_, some default⟩ :: params => default.parts ++ Param.parts params
  | ⟨_, none⟩ :: params => Param.parts params
termination_by structural params => params

def Range.parts : Range → List Expr
  | .elements values => Expr.partsOfAll values
  | .value operand => operand.parts
  | .span first last => first.parts ++ last.parts
termination_by structural range => range

def Stmt.parts : Stmt → List Expr
  | .expr _ value | .put _ value => value.parts
  | .assign _ _ (some index) _ value => index.parts ++ value.parts
  | .assign _ _ none _ value => value.parts
  | .ifElse _ conditions thenBody elseBody =>
    Expr.partsOfAll conditions ++ Stmt.partsOfAll thenBody ++ Stmt.partsOfAll elseBody
  | .ret _ (some value) => value.parts
  | .ret _ none => []
  | .push _ target value => target.parts ++ value.parts
  | .loop _ body => Stmt.partsOfAll body
  | .forEach _ _ range body => range.parts ++ Stmt.partsOfAll body
  | .breakWhen _ conditions | .nextWhen _ conditions => Expr.partsOfAll conditions
termination_by structural statement => statement

def Stmt.partsOfAll : List Stmt → List Expr
  | [] => []
  | statement :: statements => statement.parts ++ Stmt.partsOfAll statements
termination_by structural statements => statements

end

/-- The expressions that occur in a function: in its defaults, in its body and in lambdas there. -/
def Function.parts (function : Function) : List Expr :=
  Param.parts function.params ++ Stmt.partsOfAll function.body

def Pattern.parts (pattern : Pattern) : List Expr :=
  Expr.partsOfAll pattern.conditions ++ Expr.partsOfAll pattern.returns

def Program.parts (program : Program) : List Expr :=
  program.functions.flatMap Function.parts ++ program.patterns.flatMap Pattern.parts ++
    Stmt.partsOfAll program.main.body

/-! ## References -/

/-- The function that an expression itself calls by name or points to. -/
def Expr.target? : Expr → Option String
  | .pointer _ function => some function
  | .call _ (.var _ name) _ => some name
  | _ => none

mutual

theorem Expr.references_eq : ∀ expression : Expr,
    expression.references = expression.parts.filterMap Expr.target?
  | .var _ _ | .int _ _ | .float _ _ | .bool _ _ | .string _ _ | .pointer _ _ => rfl
  | .list _ elements => Expr.referencesOfAll_eq elements
  | .binary _ _ left right => by
    rw [Expr.references, Expr.parts, left.references_eq, right.references_eq]
    exact List.filterMap_append.symm
  | .unary _ _ operand | .len _ operand | .chop _ operand | .chomp _ operand
  | .matching _ _ operand => operand.references_eq
  | .call _ callee arguments => by
    have inArguments := Expr.referencesOfAll_eq arguments
    have inCallee := callee.references_eq
    cases callee with
    | var place name => exact congrArg (name :: ·) inArguments
    | _ =>
      rw [Expr.references, inCallee, inArguments]
      · exact List.filterMap_append.symm
      · intro place name same
        cases same
  | .index _ target indices => by
    rw [Expr.references, Expr.parts, target.references_eq, Expr.referencesOfAll_eq indices]
    exact List.filterMap_append.symm
  | .lambda _ params body => by
    rw [Expr.references, Expr.parts, Param.references_eq params, Stmt.referencesOfAll_eq body]
    exact List.filterMap_append.symm
  | .append _ target values => by
    rw [Expr.references, Expr.parts, target.references_eq, Expr.referencesOfAll_eq values]
    exact List.filterMap_append.symm
termination_by structural expression => expression

theorem Expr.referencesOfAll_eq : ∀ expressions : List Expr,
    Expr.referencesOfAll expressions = (Expr.partsOfAll expressions).filterMap Expr.target?
  | [] => rfl
  | expression :: expressions => by
    rw [Expr.referencesOfAll, Expr.partsOfAll, expression.references_eq,
      Expr.referencesOfAll_eq expressions, List.filterMap_append]
termination_by structural expressions => expressions

theorem Param.references_eq : ∀ params : List Param,
    Param.references params = (Param.parts params).filterMap Expr.target?
  | [] => rfl
  | ⟨_, some default⟩ :: params => by
    rw [Param.references, Param.parts, default.references_eq, Param.references_eq params,
      List.filterMap_append]
  | ⟨_, none⟩ :: params => Param.references_eq params
termination_by structural params => params

theorem Range.references_eq : ∀ range : Range,
    range.references = range.parts.filterMap Expr.target?
  | .elements values => Expr.referencesOfAll_eq values
  | .value operand => operand.references_eq
  | .span first last => by
    rw [Range.references, Range.parts, first.references_eq, last.references_eq,
      List.filterMap_append]
termination_by structural range => range

theorem Stmt.references_eq : ∀ statement : Stmt,
    statement.references = statement.parts.filterMap Expr.target?
  | .expr _ value | .put _ value | .assign _ _ none _ value | .ret _ (some value) =>
    value.references_eq
  | .assign _ _ (some index) _ value => by
    rw [Stmt.references, Stmt.parts, index.references_eq, value.references_eq,
      List.filterMap_append]
  | .ifElse _ conditions thenBody elseBody => by
    rw [Stmt.references, Stmt.parts, Expr.referencesOfAll_eq conditions,
      Stmt.referencesOfAll_eq thenBody, Stmt.referencesOfAll_eq elseBody, List.filterMap_append,
      List.filterMap_append]
  | .ret _ none => rfl
  | .push _ target value => by
    rw [Stmt.references, Stmt.parts, target.references_eq, value.references_eq,
      List.filterMap_append]
  | .loop _ body => Stmt.referencesOfAll_eq body
  | .forEach _ _ range body => by
    rw [Stmt.references, Stmt.parts, range.references_eq, Stmt.referencesOfAll_eq body,
      List.filterMap_append]
  | .breakWhen _ conditions | .nextWhen _ conditions => Expr.referencesOfAll_eq conditions
termination_by structural statement => statement

theorem Stmt.referencesOfAll_eq : ∀ statements : List Stmt,
    Stmt.referencesOfAll statements = (Stmt.partsOfAll statements).filterMap Expr.target?
  | [] => rfl
  | statement :: statements => by
    rw [Stmt.referencesOfAll, Stmt.partsOfAll, statement.references_eq,
      Stmt.referencesOfAll_eq statements, List.filterMap_append]
termination_by structural statements => statements

end

theorem Function.mem_references_iff (function : Function) (name : String) :
    name ∈ function.references ↔ ∃ part ∈ function.parts, part.target? = some name := by
  rw [Function.references, Param.references_eq, Stmt.referencesOfAll_eq,
    ← List.filterMap_append, ← Function.parts, List.mem_filterMap]

end CallSite
