import CallSite.Syntax.Basic

/-!
# Where nodes stand

A node stands at the position it carries and can be moved to another one.  An expression built
around another one stands where that one stands, and so does a statement that only wraps an
expression.
-/

namespace CallSite

namespace Expr

def position : Expr → Position
  | var position _ | int position _ | float position _ | bool position _ | string position _
  | list position _ | pointer position _ | binary position _ _ _ | unary position _ _
  | call position _ _ | index position _ _ | lambda position _ _ | append position _ _
  | len position _ | chop position _ | chomp position _ | matching position _ _ => position

/-- The same expression at another position; its parts stay where they are. -/
def moveTo (position : Position) : Expr → Expr
  | var _ name => var position name
  | int _ value => int position value
  | float _ value => float position value
  | bool _ value => bool position value
  | string _ value => string position value
  | list _ elements => list position elements
  | pointer _ function => pointer position function
  | binary _ operator left right => binary position operator left right
  | unary _ operator operand => unary position operator operand
  | call _ callee arguments => call position callee arguments
  | index _ target indices => index position target indices
  | lambda _ params body => lambda position params body
  | append _ target values => append position target values
  | len _ operand => len position operand
  | chop _ operand => chop position operand
  | chomp _ operand => chomp position operand
  | matching _ pattern argument => matching position pattern argument

@[simp]
theorem position_moveTo (expression : Expr) (position : Position) :
    (expression.moveTo position).position = position := by
  cases expression <;> rfl

/-! ## Expressions built around another one -/

def binaryOf (operator : BinaryOp) (left right : Expr) : Expr :=
  binary left.position operator left right

def unaryOf (operator : UnaryOp) (operand : Expr) : Expr :=
  unary operand.position operator operand

def callOf (callee : Expr) (arguments : List Expr) : Expr :=
  call callee.position callee arguments

/-- A call by name stands, like the name itself, at the given position. -/
def callNamed (position : Position) (callee : String) (arguments : List Expr) : Expr :=
  callOf (var position callee) arguments

def indexOf (target : Expr) (indices : List Expr) : Expr :=
  index target.position target indices

def appendOf (target : Expr) (values : List Expr) : Expr :=
  append target.position target values

def lenOf (operand : Expr) : Expr := len operand.position operand

def chopOf (operand : Expr) : Expr := chop operand.position operand

def chompOf (operand : Expr) : Expr := chomp operand.position operand

def matchingOf (pattern : String) (argument : Expr) : Expr :=
  matching argument.position pattern argument

end Expr

namespace Stmt

def position : Stmt → Position
  | expr position _ | assign position _ _ _ _ | ifElse position _ _ _ | ret position _
  | put position _ | push position _ _ | loop position _ | forEach position _ _ _
  | breakWhen position _ | nextWhen position _ => position

/-- The same statement at another position; its parts stay where they are. -/
def moveTo (position : Position) : Stmt → Stmt
  | expr _ value => expr position value
  | assign _ target index operator value => assign position target index operator value
  | ifElse _ conditions thenBody elseBody => ifElse position conditions thenBody elseBody
  | ret _ value => ret position value
  | put _ value => put position value
  | push _ target value => push position target value
  | loop _ body => loop position body
  | forEach _ iterator range body => forEach position iterator range body
  | breakWhen _ conditions => breakWhen position conditions
  | nextWhen _ conditions => nextWhen position conditions

@[simp]
theorem position_moveTo (statement : Stmt) (position : Position) :
    (statement.moveTo position).position = position := by
  cases statement <;> rfl

/-! ## Statements around an expression -/

def exprOf (value : Expr) : Stmt := expr value.position value

def putOf (value : Expr) : Stmt := put value.position value

def pushOf (target value : Expr) : Stmt := push target.position target value

end Stmt

end CallSite
