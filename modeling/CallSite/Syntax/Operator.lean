/-!
# Operators

The three families of operators, each with its spelling.  A spelling outside a family is refused
with an error that names the family and the spelling.
-/

namespace CallSite

inductive BinaryOp where
  | add | sub | mul | div | mod
  | eq | ne | lt | gt | le | ge
deriving DecidableEq, Repr

inductive UnaryOp where
  | not | neg | increment | decrement
deriving DecidableEq, Repr

inductive AssignOp where
  | set | add | sub | mul | div | mod
deriving DecidableEq, Repr

/-- A spelling that its family of operators does not have. -/
inductive UnknownOperator where
  | binary (spelling : String)
  | unary (spelling : String)
  | assign (spelling : String)
deriving DecidableEq, Repr

namespace UnknownOperator

def message : UnknownOperator → String
  | binary spelling => "unknown binary operator `" ++ spelling ++ "`"
  | unary spelling => "unknown unary operator `" ++ spelling ++ "`"
  | assign spelling => "unknown assignment operator `" ++ spelling ++ "`"

end UnknownOperator

namespace BinaryOp

def text : BinaryOp → String
  | add => "+"
  | sub => "-"
  | mul => "*"
  | div => "/"
  | mod => "%"
  | eq => "=="
  | ne => "!="
  | lt => "<"
  | gt => ">"
  | le => "<="
  | ge => ">="

def label : BinaryOp → String
  | add => "Plus"
  | sub => "Minus"
  | mul => "Mult"
  | div => "Divide"
  | mod => "Modulo"
  | eq => "Equals"
  | ne => "NotEquals"
  | lt => "Less"
  | gt => "Greater"
  | le => "LessEquals"
  | ge => "GreaterEquals"

def ofText : String → Except UnknownOperator BinaryOp
  | "+" => .ok add
  | "-" => .ok sub
  | "*" => .ok mul
  | "/" => .ok div
  | "%" => .ok mod
  | "==" => .ok eq
  | "!=" => .ok ne
  | "<" => .ok lt
  | ">" => .ok gt
  | "<=" => .ok le
  | ">=" => .ok ge
  | spelling => .error (.binary spelling)

theorem ofText_text (operator : BinaryOp) : ofText operator.text = .ok operator := by
  cases operator <;> rfl

/-- Arithmetic yields a value of its operands' type; the other operators yield a `bool`. -/
def isArithmetic : BinaryOp → Bool
  | add | sub | mul | div | mod => true
  | _ => false

end BinaryOp

namespace UnaryOp

def text : UnaryOp → String
  | not => "!"
  | neg => "-"
  | increment => "++"
  | decrement => "--"

def label : UnaryOp → String
  | not => "Not"
  | neg => "Minus"
  | increment => "Increment"
  | decrement => "Decrement"

def ofText : String → Except UnknownOperator UnaryOp
  | "!" => .ok not
  | "-" => .ok neg
  | "++" => .ok increment
  | "--" => .ok decrement
  | spelling => .error (.unary spelling)

theorem ofText_text (operator : UnaryOp) : ofText operator.text = .ok operator := by
  cases operator <;> rfl

end UnaryOp

namespace AssignOp

def text : AssignOp → String
  | set => "="
  | add => "+="
  | sub => "-="
  | mul => "*="
  | div => "/="
  | mod => "%="

def label : AssignOp → String
  | set => "Assign"
  | add => "PlusAssign"
  | sub => "MinusAssign"
  | mul => "MultAssign"
  | div => "DivideAssign"
  | mod => "ModuloAssign"

def ofText : String → Except UnknownOperator AssignOp
  | "=" => .ok set
  | "+=" => .ok add
  | "-=" => .ok sub
  | "*=" => .ok mul
  | "/=" => .ok div
  | "%=" => .ok mod
  | spelling => .error (.assign spelling)

theorem ofText_text (operator : AssignOp) : ofText operator.text = .ok operator := by
  cases operator <;> rfl

/-- The arithmetic that a compound assignment abbreviates. -/
def arithmetic? : AssignOp → Option BinaryOp
  | set => none
  | add => some .add
  | sub => some .sub
  | mul => some .mul
  | div => some .div
  | mod => some .mod

/-- A compound assignment also reads its target. -/
def isCompound (operator : AssignOp) : Bool :=
  operator.arithmetic?.isSome

end AssignOp

end CallSite
