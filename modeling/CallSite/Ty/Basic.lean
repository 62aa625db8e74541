/-!
# Types

The types that inference gives to expressions.  `unresolved` stands for a type that is not known,
either because nothing fixes it yet or because a mistake was already reported; `noValue` is what a
function without a returned value yields.
-/

namespace CallSite

inductive Ty where
  | int
  | float
  | bool
  | string
  | list (element : Ty)
  | pointer (function : String)
  | unresolved
  | noValue
deriving DecidableEq, Repr, Inhabited

namespace Ty

def isNumeric : Ty → Bool
  | int | float => true
  | _ => false

def isIndexable : Ty → Bool
  | string | list _ => true
  | _ => false

/-- No part of the type is unknown. -/
def isResolved : Ty → Bool
  | unresolved => false
  | list element => element.isResolved
  | _ => true

/-- The type of what a list holds. -/
def element? : Ty → Option Ty
  | list element => some element
  | _ => none

/-- The type is `int`, or may still turn out to be. -/
def mayBeInt (type : Ty) : Bool :=
  type == int || type == unresolved

/-- The type is `bool`, or may still turn out to be. -/
def mayBeBool (type : Ty) : Bool :=
  type == bool || type == unresolved

/-- The type is `string`, or may still turn out to be. -/
def mayBeString (type : Ty) : Bool :=
  type == string || type == unresolved

def text : Ty → String
  | int => "int"
  | float => "float"
  | bool => "bool"
  | string => "string"
  | list element => "list(" ++ element.text ++ ")"
  | pointer function => "fptr(" ++ function ++ ")"
  | unresolved => "unresolved"
  | noValue => "void"

end Ty

end CallSite
