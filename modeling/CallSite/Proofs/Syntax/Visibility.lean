import CallSite.Syntax.Declaration

/-!
# Visible names

The names that a part of a program sees can be told from the text around it: parameters, iterators
and the targets of plain assignments, from where they stand to the end of their body.  A part
mentions a variable that it looks up and does not bind itself, as a parameter or an iterator.
-/

namespace CallSite

/-- The names that are visible after some parameters. -/
def Param.visibleAfter (visible : List String) : List Param → List String
  | [] => visible
  | param :: params => Param.visibleAfter (param.name.name :: visible) params

/-- The names that are visible after a statement. -/
def Stmt.visibleAfter (visible : List String) : Stmt → List String
  | .assign _ target none operator _ =>
    if operator.isCompound then visible else target :: visible
  | _ => visible

/-- The names that are visible after some statements. -/
def Stmt.visibleAfterAll (visible : List String) : List Stmt → List String
  | [] => visible
  | statement :: statements => Stmt.visibleAfterAll (statement.visibleAfter visible) statements

theorem Param.mem_visibleAfter_iff {visible : List String} {params : List Param} {name : String} :
    name ∈ Param.visibleAfter visible params ↔
      name ∈ visible ∨ ∃ param ∈ params, param.name.name = name := by
  induction params generalizing visible with
  | nil => simp [Param.visibleAfter]
  | cons param params ih =>
    rw [Param.visibleAfter, ih]
    grind

/-! ## Mentioned names

A call by one of the names in `functions` is a call of that function and mentions no variable. -/

section Mentions

variable (functions : List String) (name : String)

mutual

/-- The expression looks up a variable of that name which it does not bind itself. -/
def Expr.mentions : Expr → Bool
  | .var _ other => other == name
  | .int _ _ | .float _ _ | .bool _ _ | .string _ _ | .pointer _ _ => false
  | .list _ elements => Expr.mentionsAny elements
  | .binary _ _ left right => Expr.mentions left || Expr.mentions right
  | .unary _ _ operand | .len _ operand | .chop _ operand | .chomp _ operand
  | .matching _ _ operand => Expr.mentions operand
  | .call _ (.var _ other) arguments =>
    (other == name && !functions.contains other) || Expr.mentionsAny arguments
  | .call _ callee arguments => Expr.mentions callee || Expr.mentionsAny arguments
  | .index _ target indices => Expr.mentions target || Expr.mentionsAny indices
  | .lambda _ params body =>
    Param.mentions params || (params.all (·.name.name != name) && Stmt.mentionsAny body)
  | .append _ target values => Expr.mentions target || Expr.mentionsAny values
termination_by structural expression => expression

def Expr.mentionsAny : List Expr → Bool
  | [] => false
  | expression :: expressions => Expr.mentions expression || Expr.mentionsAny expressions
termination_by structural expressions => expressions

/-- A default sees its own parameter and those before it. -/
def Param.mentions : List Param → Bool
  | [] => false
  | ⟨own, none⟩ :: params => own.name != name && Param.mentions params
  | ⟨own, some default⟩ :: params =>
    own.name != name && (Expr.mentions default || Param.mentions params)
termination_by structural params => params

def Range.mentions : Range → Bool
  | .elements values => Expr.mentionsAny values
  | .value operand => Expr.mentions operand
  | .span first last => Expr.mentions first || Expr.mentions last
termination_by structural range => range

/-- An assignment to a part of a variable, or one that updates it, looks the variable up. -/
def Stmt.mentions : Stmt → Bool
  | .expr _ value | .put _ value | .ret _ (some value) => Expr.mentions value
  | .assign _ target (some index) _ value =>
    target == name || Expr.mentions index || Expr.mentions value
  | .assign _ target none operator value =>
    (operator.isCompound && target == name) || Expr.mentions value
  | .ifElse _ conditions thenBody elseBody =>
    Expr.mentionsAny conditions || Stmt.mentionsAny thenBody || Stmt.mentionsAny elseBody
  | .ret _ none => false
  | .push _ target value => Expr.mentions target || Expr.mentions value
  | .loop _ body => Stmt.mentionsAny body
  | .forEach _ iterator range body =>
    Range.mentions range || (iterator != name && Stmt.mentionsAny body)
  | .breakWhen _ conditions | .nextWhen _ conditions => Expr.mentionsAny conditions
termination_by structural statement => statement

def Stmt.mentionsAny : List Stmt → Bool
  | [] => false
  | statement :: statements => Stmt.mentions statement || Stmt.mentionsAny statements
termination_by structural statements => statements

end

end Mentions

/-- No default mentions its own parameter. -/
def Param.independent (functions : List String) (params : List Param) : Bool :=
  params.all fun param =>
    match param.default with
    | some default => !default.mentions functions param.name.name
    | none => true

/-- No default in a parameter list of the expression's own mentions its own parameter. -/
def Expr.independent (functions : List String) : Expr → Bool
  | .lambda _ params _ => Param.independent functions params
  | _ => true

end CallSite
