import CallSite.Syntax.Declaration

/-!
# References between functions

A function refers to another one where it calls it by name or takes a pointer to it, anywhere in its
body, in the default of a parameter or inside a lambda.
-/

namespace CallSite

mutual

/-- The names called or pointed to, in reading order. -/
def Expr.references : Expr → List String
  | .var _ _ | .int _ _ | .float _ _ | .bool _ _ | .string _ _ => []
  | .list _ elements => Expr.referencesOfAll elements
  | .pointer _ function => [function]
  | .binary _ _ left right => left.references ++ right.references
  | .unary _ _ operand => operand.references
  | .call _ (.var _ name) arguments => name :: Expr.referencesOfAll arguments
  | .call _ callee arguments => callee.references ++ Expr.referencesOfAll arguments
  | .index _ target indices => target.references ++ Expr.referencesOfAll indices
  | .lambda _ params body => Param.references params ++ Stmt.referencesOfAll body
  | .append _ target values => target.references ++ Expr.referencesOfAll values
  | .len _ operand | .chop _ operand | .chomp _ operand => operand.references
  | .matching _ _ argument => argument.references
termination_by structural expression => expression

def Expr.referencesOfAll : List Expr → List String
  | [] => []
  | expression :: expressions => expression.references ++ Expr.referencesOfAll expressions
termination_by structural expressions => expressions

/-- The references in the defaults of parameters. -/
def Param.references : List Param → List String
  | [] => []
  | ⟨_, some default⟩ :: params => default.references ++ Param.references params
  | ⟨_, none⟩ :: params => Param.references params
termination_by structural params => params

def Range.references : Range → List String
  | .elements values => Expr.referencesOfAll values
  | .value operand => operand.references
  | .span first last => first.references ++ last.references
termination_by structural range => range

def Stmt.references : Stmt → List String
  | .expr _ value | .put _ value => value.references
  | .assign _ _ (some index) _ value => index.references ++ value.references
  | .assign _ _ none _ value => value.references
  | .ifElse _ conditions thenBody elseBody =>
    Expr.referencesOfAll conditions ++ Stmt.referencesOfAll thenBody ++
      Stmt.referencesOfAll elseBody
  | .ret _ (some value) => value.references
  | .ret _ none => []
  | .push _ target value => target.references ++ value.references
  | .loop _ body => Stmt.referencesOfAll body
  | .forEach _ _ range body => range.references ++ Stmt.referencesOfAll body
  | .breakWhen _ conditions | .nextWhen _ conditions => Expr.referencesOfAll conditions
termination_by structural statement => statement

def Stmt.referencesOfAll : List Stmt → List String
  | [] => []
  | statement :: statements => statement.references ++ Stmt.referencesOfAll statements
termination_by structural statements => statements

end

/-- What a function refers to: its defaults first, then its body. -/
def Function.references (function : Function) : List String :=
  Param.references function.params ++ Stmt.referencesOfAll function.body

end CallSite
