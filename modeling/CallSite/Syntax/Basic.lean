import CallSite.Syntax.Operator

/-!
# Expressions and statements

The language has no type annotations.  Every expression and every statement carries the position it
stands at, which is a line of a named file; a parameter may have a default value.
-/

namespace CallSite

/-- A line of a named file. -/
structure Position where
  file : String
  line : Nat
deriving DecidableEq, Repr, Inhabited

namespace Position

/-- The position of a node that stands nowhere. -/
def null : Position := ⟨"<null>", 0⟩

/-- A line of the program's own text. -/
def atLine (line : Nat) : Position := ⟨"<input>", line⟩

/-- A position is written as its file, a colon and its line. -/
def text (position : Position) : String :=
  position.file ++ ":" ++ toString position.line

end Position

/-- A declared name and where it is written. -/
structure Identifier where
  name : String
  position : Position
deriving DecidableEq, Repr

namespace Identifier

/-- The name as it was written: the text before the first `#`, which only renaming adds. -/
def baseName (identifier : Identifier) : String :=
  String.ofList (identifier.name.toList.takeWhile (· != '#'))

end Identifier

/-- A floating-point literal, by the bits of its value. -/
structure FloatLiteral where
  bits : UInt64
deriving DecidableEq, Repr

mutual

inductive Expr where
  | var (position : Position) (name : String)
  | int (position : Position) (value : Int)
  | float (position : Position) (value : FloatLiteral)
  | bool (position : Position) (value : Bool)
  | string (position : Position) (value : String)
  | list (position : Position) (elements : List Expr)
  | pointer (position : Position) (function : String)
  | binary (position : Position) (operator : BinaryOp) (left right : Expr)
  | unary (position : Position) (operator : UnaryOp) (operand : Expr)
  | call (position : Position) (callee : Expr) (arguments : List Expr)
  | index (position : Position) (target : Expr) (indices : List Expr)
  | lambda (position : Position) (params : List Param) (body : List Stmt)
  | append (position : Position) (target : Expr) (values : List Expr)
  | len (position : Position) (operand : Expr)
  | chop (position : Position) (operand : Expr)
  | chomp (position : Position) (operand : Expr)
  | matching (position : Position) (pattern : String) (argument : Expr)

/-- A parameter, with the value it takes when a call supplies none. -/
structure Param where
  name : Identifier
  default : Option Expr

/-- What a `for` statement runs over. -/
inductive Range where
  | elements (values : List Expr)
  | value (operand : Expr)
  | span (first last : Expr)

inductive Stmt where
  | expr (position : Position) (value : Expr)
  | assign (position : Position) (target : String) (index : Option Expr)
      (operator : AssignOp) (value : Expr)
  | ifElse (position : Position) (conditions : List Expr) (thenBody elseBody : List Stmt)
  | ret (position : Position) (value : Option Expr)
  | put (position : Position) (value : Expr)
  | push (position : Position) (target value : Expr)
  | loop (position : Position) (body : List Stmt)
  | forEach (position : Position) (iterator : String) (range : Range) (body : List Stmt)
  | breakWhen (position : Position) (conditions : List Expr)
  | nextWhen (position : Position) (conditions : List Expr)

end

end CallSite
