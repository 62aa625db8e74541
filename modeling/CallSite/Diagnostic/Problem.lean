import CallSite.Text.Quoted

/-!
# Problems

What can be wrong with a program.  Each problem has a fixed name, a category, a text for its message
and, for most of them, a suggestion.  Names are quoted in the text and bare in the suggestion.
-/

namespace CallSite

inductive Problem where
  | functionRedefined (function : String)
  | patternRedefined (pattern : String)
  | variableUndeclared (variableName : String)
  | functionUndeclared (function : String)
  | patternUndeclared (pattern : String)
  | parameterNamedAsFunction (parameter : String)
  | arity (callee : String) (least most received : Nat)
  | recursion (cycle : List String)
  | operandsDiffer (operator : String)
  | operandUnsupported (operator : String)
  | functionReturnsDiffer (function : String)
  | patternReturnsDiffer (pattern : String)
  | elementsDiffer
  | conditionNotBool
  | notIndexable
  | indexNotInt
  | pushedValueDiffers
  | notPushable
  | notAppendable
  | lenOfOther
  | chompOfOther
  | notIterable
  | boundNotInt
deriving DecidableEq, Repr

/-- The families that problems fall into. -/
inductive Category where
  | redefinition
  | resolution
  | arity
  | recursion
  | typing
deriving DecidableEq, Repr

namespace Category

def name : Category → String
  | redefinition => "Redefinition"
  | resolution => "Resolution"
  | arity => "Arity"
  | recursion => "CyclicDependency"
  | typing => "TypeMismatch"

end Category

namespace Problem

def name : Problem → String
  | functionRedefined _ => "RedefinitionOfFunction"
  | patternRedefined _ => "RedefinitionOfPattern"
  | variableUndeclared _ => "VariableNotDeclared"
  | functionUndeclared _ => "FunctionNotDeclared"
  | patternUndeclared _ => "PatternNotDeclared"
  | parameterNamedAsFunction _ => "IdenticalArgFunctionName"
  | arity _ _ _ _ => "ArgMisMatch"
  | recursion _ => "CircularDependency"
  | operandsDiffer _ => "NonSameOperands"
  | operandUnsupported _ => "UnsupportedOperandType"
  | functionReturnsDiffer _ => "FunctionIncompatibleReturnTypes"
  | patternReturnsDiffer _ => "PatternIncompatibleReturnTypes"
  | elementsDiffer => "ListElementsTypesMisMatch"
  | conditionNotBool => "ConditionIsNotBool"
  | notIndexable => "IsNotIndexable"
  | indexNotInt => "AccessIndexIsNotInt"
  | pushedValueDiffers => "PushArgumentsTypesMisMatch"
  | notPushable => "IsNotPushedable"
  | notAppendable => "IsNotAppendable"
  | lenOfOther => "LenArgumentTypeMisMatch"
  | chompOfOther => "ChompArgumentTypeMisMatch"
  | notIterable => "IsNotIterable"
  | boundNotInt => "RangeValuesMisMatch"

def category : Problem → Category
  | functionRedefined _ | patternRedefined _ => .redefinition
  | variableUndeclared _ | functionUndeclared _ | patternUndeclared _
  | parameterNamedAsFunction _ => .resolution
  | arity _ _ _ _ => .arity
  | recursion _ => .recursion
  | _ => .typing

open Text in
def text : Problem → String
  | functionRedefined function => "redefinition of function " ++ quoted function
  | patternRedefined pattern => "redefinition of pattern " ++ quoted pattern
  | variableUndeclared variableName => "variable " ++ quoted variableName ++ " not declared"
  | functionUndeclared function => "function " ++ quoted function ++ " not declared"
  | patternUndeclared pattern => "pattern " ++ quoted pattern ++ " not declared"
  | parameterNamedAsFunction parameter =>
    "argument " ++ quoted parameter ++ " has the same name as its function"
  | arity callee least most received =>
    "wrong number of arguments for " ++ quoted callee ++ ": expected " ++ toString least ++ " to " ++
      toString most ++ ", received " ++ toString received
  | recursion cycle => "circular dependency between " ++ quotedList cycle
  | operandsDiffer operator => "operands of " ++ operator ++ " do not have the same type"
  | operandUnsupported operator => "unsupported operand type for " ++ operator
  | functionReturnsDiffer function =>
    "return types of function " ++ quoted function ++ " are incompatible"
  | patternReturnsDiffer pattern =>
    "return types of pattern " ++ quoted pattern ++ " are incompatible"
  | elementsDiffer => "list element types do not match"
  | conditionNotBool => "condition is not of type bool"
  | notIndexable => "expression is not indexable"
  | indexNotInt => "index is not of type int"
  | pushedValueDiffers => "pushed value does not match the pushed-to type"
  | notPushable => "expression does not support push"
  | notAppendable => "expression does not support append"
  | lenOfOther => "len expects a string or a list"
  | chompOfOther => "chomp expects a string"
  | notIterable => "expression is not iterable"
  | boundNotInt => "range bounds must be of type int"

/-- The walk along a call cycle, back to its first function. -/
def cycleWalk (cycle : List String) : String :=
  " -> ".intercalate cycle ++ " -> " ++ cycle.headD ""

def suggestion? : Problem → Option String
  | functionRedefined function =>
    some ("Function `" ++ function ++
      "` is already defined, this one is analysed under a new name")
  | patternRedefined pattern =>
    some ("Pattern `" ++ pattern ++
      "` is already defined, this one is analysed under a new name")
  | variableUndeclared variableName => some ("Variable `" ++ variableName ++ "` not declared")
  | functionUndeclared function => some ("Function `" ++ function ++ "` not declared")
  | patternUndeclared pattern => some ("Pattern `" ++ pattern ++ "` not declared")
  | parameterNamedAsFunction parameter =>
    some ("Rename argument `" ++ parameter ++ "`, it shadows its own function")
  | arity callee least most received =>
    let expected :=
      if least = most then toString most else toString least ++ " to " ++ toString most
    some ("`" ++ callee ++ "` expects " ++ expected ++ " arguments, received " ++
      toString received)
  | recursion cycle => some ("Recursion is not allowed: " ++ cycleWalk cycle)
  | operandsDiffer operator =>
    some ("Both operands of `" ++ operator ++ "` must have the same type")
  | operandUnsupported operator =>
    some ("Operator `" ++ operator ++ "` does not support this operand type")
  | functionReturnsDiffer function =>
    some ("Every return of `" ++ function ++ "` must have the same type")
  | patternReturnsDiffer pattern =>
    some ("Every case of `" ++ pattern ++ "` must return the same type")
  | conditionNotBool => some "Conditions must be of type bool"
  | indexNotInt => some "Indices must be of type int"
  | _ => none

end Problem

end CallSite
