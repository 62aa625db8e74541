import CallSite.Inference.Context
import CallSite.Inference.Effects
import CallSite.Inference.Rules

/-!
# Checking expressions and statements

The types of expressions are inferred from the inside out and from left to right, and each statement
has its effect on the variables in scope.  A body yields the types of its returns, in reading order.
How a call or a match is followed into a declaration is left to the parameter `enter`.
-/

namespace CallSite

/-- The name of an expression that is a mere variable. -/
def Expr.varName? : Expr → Option String
  | .var _ name => some name
  | _ => none

namespace Inference

variable {m : Type → Type} [Monad m] [MonadInfer m]

/-- A value is called through the function it points to. -/
def callPointer (enter : Invocation → m Ty) : Ty → List Ty → m Ty
  | .pointer function, types => enter (.call function types)
  | _, _ => pure .unresolved

/-- Push a value of a known type, refining the type of a pushed-to variable. -/
def pushOnto (position : Position) (target : Expr) (targetType valueType : Ty) : m Unit :=
  match pushRule targetType valueType with
  | .error problem => report problem position
  | .ok none => pure ()
  | .ok (some refined) =>
    match target.varName? with
    | some name => assign name refined
    | none => pure ()

/-- Assign a value of a known type to a whole variable. -/
def assignTo (position : Position) (target : String) (operator : AssignOp) (valueType : Ty) :
    m Unit := do
  if operator.isCompound then
    let targetType ← typeOf target
    reportAny position (compoundRule operator targetType)
  else assign target valueType

variable (context : Context) (enter : Invocation → m Ty)

mutual

def checkExpr : Expr → m Ty
  | .var _ name => typeOf name
  | .int _ _ => pure .int
  | .float _ _ => pure .float
  | .bool _ _ => pure .bool
  | .string _ _ => pure .string
  | .list position elements => do
    let types ← checkExprs elements
    settle position (listRule types)
  | .pointer _ function => pure (.pointer function)
  | .binary position operator left right => do
    let leftType ← checkExpr left
    let rightType ← checkExpr right
    settle position (binaryRule operator leftType rightType)
  | .unary position operator operand => do
    let type ← checkExpr operand
    settle position (unaryRule operator type)
  | .call _ (.var _ name) arguments => do
    let types ← checkExprs arguments
    if context.hasFunction name then enter (.call name types)
    else
      let callee ← typeOf name
      callPointer enter callee types
  | .call _ (.lambda position params body) arguments => do
    let types ← checkExprs arguments
    let returns ← inBranch do
      let _ ← bindParams params types
      checkBody body
    settle position (returnRule (.functionReturnsDiffer lambdaName) returns)
  | .call _ callee arguments => do
    let types ← checkExprs arguments
    let calleeType ← checkExpr callee
    callPointer enter calleeType types
  | .index position target indices => do
    let type ← checkExpr target
    checkIndices position type indices
  | .lambda _ _ _ => pure .unresolved
  | .append position target values => do
    let type ← checkExpr target
    let _ ← checkExprs values
    settle position (appendRule type)
  | .len position operand => do
    let type ← checkExpr operand
    settle position (lenRule type)
  | .chop _ operand => do
    let _ ← checkExpr operand
    pure .string
  | .chomp position operand => do
    let type ← checkExpr operand
    settle position (chompRule type)
  | .matching _ pattern argument => do
    let type ← checkExpr argument
    enter (.matching pattern type)
termination_by structural expression => expression

def checkExprs : List Expr → m (List Ty)
  | [] => pure []
  | expression :: expressions => do
    let type ← checkExpr expression
    let types ← checkExprs expressions
    pure (type :: types)
termination_by structural expressions => expressions

/-- Apply indices one after the other to a value of type `current`.  An index that is no whole
number ends the row. -/
def checkIndices (position : Position) (current : Ty) : List Expr → m Ty
  | [] => pure current
  | index :: indices => do
    let indexType ← checkExpr index
    let next ← settle position (indexRule current)
    if indexType.mayBeInt then checkIndices position next indices
    else
      report .indexNotInt index.position
      pure .unresolved
termination_by structural indices => indices

/-- Declare parameters from left to right and return their types.  A parameter without an argument
has the type of its default, which is checked before the parameter itself is declared. -/
def bindParams : List Param → List Ty → m (List Ty)
  | [], _ => pure []
  | ⟨name, _⟩ :: params, type :: types => do
    declare name.name type
    let rest ← bindParams params types
    pure (type :: rest)
  | ⟨name, some default⟩ :: params, [] => do
    let type ← checkExpr default
    declare name.name type
    let rest ← bindParams params []
    pure (type :: rest)
  | ⟨name, none⟩ :: params, [] => do
    declare name.name .unresolved
    let rest ← bindParams params []
    pure (.unresolved :: rest)
termination_by structural params => params

/-- The type of what a range runs over. -/
def checkRange (position : Position) : Range → m Ty
  | .elements values => do
    let types ← checkExprs values
    let type ← settle position (listRule types)
    pure (type.element?.getD .unresolved)
  | .value operand => do
    let type ← checkExpr operand
    settle position (iterateRule type)
  | .span first last => do
    let firstType ← checkExpr first
    let lastType ← checkExpr last
    settle position (spanRule firstType lastType)
termination_by structural range => range

/-- Each condition is a `bool`. -/
def checkConditions : List Expr → m Unit
  | [] => pure ()
  | condition :: conditions => do
    let type ← checkExpr condition
    reportAny condition.position (conditionRule type)
    checkConditions conditions
termination_by structural conditions => conditions

def checkStmt : Stmt → m (List Ty)
  | .expr _ value | .put _ value => do
    let _ ← checkExpr value
    pure []
  | .assign position target none operator value => do
    let type ← checkExpr value
    assignTo position target operator type
    pure []
  | .assign position target (some index) operator value => do
    let type ← checkExpr value
    let targetType ← typeOf target
    if targetType = .unresolved then
      let _ ← checkExpr index
      pure []
    else if targetType.isIndexable then
      let indexType ← checkExpr index
      reportAny position (storeRule operator targetType indexType type)
      pure []
    else
      report .notIndexable position
      pure []
  | .ifElse _ conditions thenBody elseBody => do
    checkConditions conditions
    let thenReturns ← inBranch (checkBody thenBody)
    let elseReturns ← inBranch (checkBody elseBody)
    pure (thenReturns ++ elseReturns)
  | .ret _ none => pure [.noValue]
  | .ret _ (some value) => do
    let type ← checkExpr value
    pure [type]
  | .push position target value => do
    let targetType ← checkExpr target
    let valueType ← checkExpr value
    pushOnto position target targetType valueType
    pure []
  | .loop _ body => inBranch (checkBody body)
  | .forEach position iterator range body =>
    inBranch do
      let type ← checkRange position range
      rebind iterator type
      checkBody body
  | .breakWhen _ conditions | .nextWhen _ conditions => do
    checkConditions conditions
    pure []
termination_by structural statement => statement

def checkBody : List Stmt → m (List Ty)
  | [] => pure []
  | statement :: statements => do
    let returns ← checkStmt statement
    let rest ← checkBody statements
    pure (returns ++ rest)
termination_by structural statements => statements

end

/-- Check an invoked lambda with the given argument types. -/
def checkLambda (position : Position) (params : List Param) (body : List Stmt)
    (types : List Ty) : m Ty := do
  let returns ← inBranch do
    let _ ← bindParams context enter params types
    checkBody context enter body
  settle position (returnRule (.functionReturnsDiffer lambdaName) returns)

end Inference

end CallSite
