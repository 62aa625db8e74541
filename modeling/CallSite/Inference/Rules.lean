import CallSite.Inference.Effects
import CallSite.Syntax.Operator
import CallSite.Ty.Unify

/-!
# Typing rules

What each form of expression and statement asks of the types of its parts.  A rule yields a type or
the problem to report; a rule stays silent about a part whose type is not known.  Every problem that
a rule finds is one of types.
-/

namespace CallSite.Inference

/-- Elements of a list literal agree. -/
def listRule (elements : List Ty) : Except Problem Ty :=
  match Ty.listOf? elements with
  | some type => .ok type
  | none => .error .elementsDiffer

/-- Both operands agree and are numeric. -/
def binaryRule (operator : BinaryOp) (left right : Ty) : Except Problem Ty :=
  if left = .unresolved ∨ right = .unresolved then .ok .unresolved
  else if !left.agrees right then .error (.operandsDiffer operator.text)
  else if !left.isNumeric then .error (.operandUnsupported operator.text)
  else .ok (if operator.isArithmetic then left else .bool)

/-- Negation of truth needs a `bool`, the other operators a number. -/
def unaryRule (operator : UnaryOp) (operand : Ty) : Except Problem Ty :=
  let supported := match operator with
    | .not => operand == .bool
    | .neg | .increment | .decrement => operand.isNumeric
  if supported || operand == .unresolved then .ok operand
  else .error (.operandUnsupported operator.text)

/-- Indexing a string gives a string, indexing a list its element. -/
def indexRule : Ty → Except Problem Ty
  | .unresolved => .ok .unresolved
  | .string => .ok .string
  | .list element => .ok element
  | _ => .error .notIndexable

/-- Appending keeps the type of a list or a string. -/
def appendRule : Ty → Except Problem Ty
  | .list element => .ok (.list element)
  | .string => .ok .string
  | .unresolved => .ok .unresolved
  | _ => .error .notAppendable

def lenRule : Ty → Except Problem Ty
  | .list _ | .string => .ok .int
  | .unresolved => .ok .unresolved
  | _ => .error .lenOfOther

def chompRule : Ty → Except Problem Ty
  | .string => .ok .string
  | .unresolved => .ok .unresolved
  | _ => .error .chompOfOther

/-- Running over a list binds its element. -/
def iterateRule : Ty → Except Problem Ty
  | .list element => .ok element
  | .unresolved => .ok .unresolved
  | _ => .error .notIterable

/-- Both bounds of a span are whole numbers. -/
def spanRule (first last : Ty) : Except Problem Ty :=
  if first.mayBeInt && last.mayBeInt then .ok .int else .error .boundNotInt

/-- The returns of a body agree; `problem` is what to report when they do not. -/
def returnRule (problem : Problem) (returns : List Ty) : Except Problem Ty :=
  match Ty.unifyReturns returns with
  | some type => .ok type
  | none => .error problem

/-- The report that the returns do not agree, where they do not. -/
def disagreement (problem : Problem) (position : Position) (returns : List Ty) :
    List Diagnostic :=
  match Ty.unifyReturns returns with
  | some _ => []
  | none => [⟨problem, position⟩]

theorem returnRule_spec (problem : Problem) (position : Position) (returns : List Ty) :
    (returnRule problem returns).toOption = Ty.unifyReturns returns ∧
      reported position (returnRule problem returns) = disagreement problem position returns := by
  rw [returnRule, disagreement]
  cases Ty.unifyReturns returns with
  | some type => exact ⟨rfl, rfl⟩
  | none => exact ⟨rfl, rfl⟩

/-- A condition is a `bool`. -/
def conditionRule (condition : Ty) : Option Problem :=
  if condition.mayBeBool then none else some .conditionNotBool

/-- A compound assignment needs a numeric target. -/
def compoundRule (operator : AssignOp) (target : Ty) : Option Problem :=
  if target = .unresolved ∨ target.isNumeric then none
  else some (.operandUnsupported operator.text)

/-- What an indexed assignment stores into: the element of a list, a string of a string. -/
def storedElement (target : Ty) : Ty := target.element?.getD .string

/-- An indexed assignment to an indexable target: the index is a whole number, the value agrees with
the element, and a compound assignment needs a list with numeric elements. -/
def storeRule (operator : AssignOp) (target index value : Ty) : Option Problem :=
  let element := storedElement target
  if !index.mayBeInt then some .indexNotInt
  else if !(value == .unresolved || element == .unresolved || value.agrees element) then
    some .elementsDiffer
  else if operator.isCompound &&
      (target == .string || !(element.isNumeric || element == .unresolved)) then
    some (.operandUnsupported operator.text)
  else none

/-- The element of a list after one more value is pushed onto it. -/
def pushedElement (element value : Ty) : Option Ty :=
  if element = .unresolved then some value else element.unify value

/-- Pushing onto a string needs a string, pushing onto a list a value that agrees with its element.
The result is the new type of the list, where the push makes it better known. -/
def pushRule : Ty → Ty → Except Problem (Option Ty)
  | .unresolved, _ => .ok none
  | .string, value => if value.mayBeString then .ok none else .error .pushedValueDiffers
  | .list element, value =>
    if value = .unresolved then .ok none
    else
      match pushedElement element value with
      | none => .error .pushedValueDiffers
      | some refined => .ok (if refined = element then none else some (.list refined))
  | _, _ => .error .notPushable

/-! ## What the rules find -/

/-- Whatever problem the rule finds is one of types. -/
def FindsTyping {α : Type} (rule : Except Problem α) : Prop :=
  ∀ problem, rule = .error problem → problem.category = .typing

theorem findsTyping_ok {α : Type} (value : α) : FindsTyping (.ok value) := by
  intro problem same
  cases same

theorem findsTyping_error {α : Type} {problem : Problem} (typing : problem.category = .typing) :
    FindsTyping (.error problem : Except Problem α) := by
  intro other same
  cases same
  exact typing

theorem findsTyping_if {α : Type} {condition : Prop} [Decidable condition] (value : α)
    {problem : Problem} (typing : problem.category = .typing) :
    FindsTyping (if condition then .ok value else .error problem) := by
  split
  · exact findsTyping_ok value
  · exact findsTyping_error typing

theorem findsTyping_listRule (elements : List Ty) : FindsTyping (listRule elements) := by
  unfold listRule
  split
  · exact findsTyping_ok _
  · exact findsTyping_error rfl

theorem findsTyping_binaryRule (operator : BinaryOp) (left right : Ty) :
    FindsTyping (binaryRule operator left right) := by
  unfold binaryRule
  split
  · exact findsTyping_ok _
  split
  · exact findsTyping_error rfl
  split
  · exact findsTyping_error rfl
  · exact findsTyping_ok _

theorem findsTyping_unaryRule (operator : UnaryOp) (operand : Ty) :
    FindsTyping (unaryRule operator operand) :=
  findsTyping_if operand rfl

theorem findsTyping_indexRule (type : Ty) : FindsTyping (indexRule type) := by
  cases type with
  | list | string | unresolved => exact findsTyping_ok _
  | _ => exact findsTyping_error rfl

theorem findsTyping_appendRule (type : Ty) : FindsTyping (appendRule type) := by
  cases type with
  | list | string | unresolved => exact findsTyping_ok _
  | _ => exact findsTyping_error rfl

theorem findsTyping_lenRule (type : Ty) : FindsTyping (lenRule type) := by
  cases type with
  | list | string | unresolved => exact findsTyping_ok _
  | _ => exact findsTyping_error rfl

theorem findsTyping_chompRule (type : Ty) : FindsTyping (chompRule type) := by
  cases type with
  | string | unresolved => exact findsTyping_ok _
  | _ => exact findsTyping_error rfl

theorem findsTyping_iterateRule (type : Ty) : FindsTyping (iterateRule type) := by
  cases type with
  | list | unresolved => exact findsTyping_ok _
  | _ => exact findsTyping_error rfl

theorem findsTyping_spanRule (first last : Ty) : FindsTyping (spanRule first last) :=
  findsTyping_if Ty.int rfl

theorem findsTyping_returnRule {problem : Problem} (typing : problem.category = .typing)
    (returns : List Ty) : FindsTyping (returnRule problem returns) := by
  unfold returnRule
  split
  · exact findsTyping_ok _
  · exact findsTyping_error typing

theorem findsTyping_pushRule (target value : Ty) : FindsTyping (pushRule target value) := by
  unfold pushRule
  split
  · exact findsTyping_ok none
  · exact findsTyping_if none rfl
  · split
    · exact findsTyping_ok none
    · split
      · exact findsTyping_error rfl
      · exact findsTyping_ok _
  · exact findsTyping_error rfl

theorem typing_of_conditionRule {condition : Ty} {problem : Problem}
    (found : problem ∈ conditionRule condition) : problem.category = .typing := by
  unfold conditionRule at found
  split at found
  · cases found
  · cases found
    rfl

theorem typing_of_compoundRule {operator : AssignOp} {target : Ty} {problem : Problem}
    (found : problem ∈ compoundRule operator target) : problem.category = .typing := by
  unfold compoundRule at found
  split at found
  · cases found
  · cases found
    rfl

theorem typing_of_storeRule {operator : AssignOp} {target index value : Ty} {problem : Problem}
    (found : problem ∈ storeRule operator target index value) :
    problem.category = .typing := by
  dsimp only [storeRule] at found
  split at found
  · cases found
    rfl
  split at found
  · cases found
    rfl
  split at found
  · cases found
    rfl
  · cases found

end CallSite.Inference
