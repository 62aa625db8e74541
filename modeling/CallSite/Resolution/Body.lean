import CallSite.Resolution.Basic

/-!
# Resolving bodies

Expressions and statements are walked in reading order.  An assignment to a name that is not visible
declares it after its value; the bodies of branches, loops and lambdas have scopes of their own.
-/

namespace CallSite.Resolution

mutual

def resolveExpr : Expr → ResolveM Unit
  | .var position name => useVariable name position
  | .int _ _ | .float _ _ | .bool _ _ | .string _ _ => pure ()
  | .list _ elements => resolveExprs elements
  | .pointer position function => useFunction function position
  | .binary _ _ left right => do
    resolveExpr left
    resolveExpr right
  | .unary _ _ operand => resolveExpr operand
  | .call _ (.var position name) arguments => do
    useCallee name arguments.length position
    resolveExprs arguments
  | .call _ (.lambda position params body) arguments => do
    inScope .branch do
      resolveParams params
      resolveBody body
    requireArity lambdaName params arguments.length position
    resolveExprs arguments
  | .call _ callee arguments => do
    resolveExpr callee
    resolveExprs arguments
  | .index _ target indices => do
    resolveExpr target
    resolveExprs indices
  | .lambda _ params body =>
    inScope .branch do
      resolveParams params
      resolveBody body
  | .append _ target values => do
    resolveExpr target
    resolveExprs values
  | .len _ operand | .chop _ operand | .chomp _ operand => resolveExpr operand
  | .matching position pattern argument => do
    usePattern pattern position
    resolveExpr argument
termination_by structural expression => expression

def resolveExprs : List Expr → ResolveM Unit
  | [] => pure ()
  | expression :: expressions => do
    resolveExpr expression
    resolveExprs expressions
termination_by structural expressions => expressions

/-- Parameters are declared from left to right; a default may mention its own parameter. -/
def resolveParams : List Param → ResolveM Unit
  | [] => pure ()
  | ⟨name, none⟩ :: params => do
    declare name.name
    resolveParams params
  | ⟨name, some default⟩ :: params => do
    declare name.name
    resolveExpr default
    resolveParams params
termination_by structural params => params

def resolveRange : Range → ResolveM Unit
  | .elements values => resolveExprs values
  | .value operand => resolveExpr operand
  | .span first last => do
    resolveExpr first
    resolveExpr last
termination_by structural range => range

def resolveStmt : Stmt → ResolveM Unit
  | .expr _ value | .put _ value => resolveExpr value
  | .assign position target (some index) _ value => do
    resolveExpr index
    resolveExpr value
    useVariable target position
  | .assign position target none operator value => do
    resolveExpr value
    if operator.isCompound then useVariable target position else declareIfAbsent target
  | .ifElse _ conditions thenBody elseBody => do
    resolveExprs conditions
    inScope .branch (resolveBody thenBody)
    inScope .branch (resolveBody elseBody)
  | .ret _ none => pure ()
  | .ret _ (some value) => resolveExpr value
  | .push _ target value => do
    resolveExpr target
    resolveExpr value
  | .loop _ body => inScope .branch (resolveBody body)
  | .forEach _ iterator range body =>
    inScope .branch do
      resolveRange range
      declare iterator
      resolveBody body
  | .breakWhen _ conditions | .nextWhen _ conditions => resolveExprs conditions
termination_by structural statement => statement

def resolveBody : List Stmt → ResolveM Unit
  | [] => pure ()
  | statement :: statements => do
    resolveStmt statement
    resolveBody statements
termination_by structural statements => statements

end

end CallSite.Resolution
