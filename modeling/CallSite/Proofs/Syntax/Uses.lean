import CallSite.Syntax.Declaration

/-!
# What code uses

The uses of code are what a check of it asks for: variables that are looked up or assigned,
functions and patterns by name, and lambdas that are called on the spot.  A lambda that is only
written down is not checked, so nothing inside it counts.
-/

namespace CallSite

inductive Use where
  /-- A variable is looked up or assigned. -/
  | var (name : String)
  /-- A function is called by name or pointed to. -/
  | function (name : String)
  | pattern (name : String)
  /-- A lambda is called where it is written. -/
  | lambda
deriving DecidableEq, Repr

section

variable (functions : String → Bool)

mutual

/-- The uses of an expression, where the given names are those of functions. -/
def Expr.uses : Expr → List Use
  | .var _ name => [.var name]
  | .int _ _ | .float _ _ | .bool _ _ | .string _ _ | .lambda _ _ _ => []
  | .list _ elements => Expr.usesOfAll elements
  | .pointer _ function => [.function function]
  | .binary _ _ left right => left.uses ++ right.uses
  | .unary _ _ operand | .len _ operand | .chop _ operand | .chomp _ operand => operand.uses
  | .call _ (.var _ name) arguments =>
    (if functions name then .function name else .var name) :: Expr.usesOfAll arguments
  | .call _ (.lambda _ params body) arguments =>
    .lambda :: (Expr.usesOfAll arguments ++ (Param.uses params ++ Stmt.usesOfAll body))
  | .call _ callee arguments => callee.uses ++ Expr.usesOfAll arguments
  | .index _ target indices => target.uses ++ Expr.usesOfAll indices
  | .append _ target values => target.uses ++ Expr.usesOfAll values
  | .matching _ pattern argument => .pattern pattern :: argument.uses
termination_by structural expression => expression

def Expr.usesOfAll : List Expr → List Use
  | [] => []
  | expression :: expressions => expression.uses ++ Expr.usesOfAll expressions
termination_by structural expressions => expressions

/-- The uses of the defaults of parameters. -/
def Param.uses : List Param → List Use
  | [] => []
  | ⟨_, some default⟩ :: params => default.uses ++ Param.uses params
  | ⟨_, none⟩ :: params => Param.uses params
termination_by structural params => params

def Range.uses : Range → List Use
  | .elements values => Expr.usesOfAll values
  | .value operand => operand.uses
  | .span first last => first.uses ++ last.uses
termination_by structural range => range

def Stmt.uses : Stmt → List Use
  | .expr _ value | .put _ value | .ret _ (some value) => value.uses
  | .assign _ target none _ value => .var target :: value.uses
  | .assign _ target (some index) _ value => .var target :: (value.uses ++ index.uses)
  | .ifElse _ conditions thenBody elseBody =>
    Expr.usesOfAll conditions ++ (Stmt.usesOfAll thenBody ++ Stmt.usesOfAll elseBody)
  | .ret _ none => []
  | .push _ target value => target.uses ++ value.uses
  | .loop _ body => Stmt.usesOfAll body
  | .forEach _ _ range body => range.uses ++ Stmt.usesOfAll body
  | .breakWhen _ conditions | .nextWhen _ conditions => Expr.usesOfAll conditions
termination_by structural statement => statement

def Stmt.usesOfAll : List Stmt → List Use
  | [] => []
  | statement :: statements => statement.uses ++ Stmt.usesOfAll statements
termination_by structural statements => statements

end

def Function.uses (function : Function) : List Use :=
  Param.uses functions function.params ++ Stmt.usesOfAll functions function.body

def Pattern.uses (pattern : Pattern) : List Use :=
  Expr.usesOfAll functions pattern.conditions ++ Expr.usesOfAll functions pattern.returns

end

end CallSite
