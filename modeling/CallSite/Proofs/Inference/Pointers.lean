import CallSite.Inference.Rules

/-!
# What types point to

A type points within a set of functions when every pointer in it is one to a function of the set.
The typing rules make no pointers: whatever they yield points within any set that their operands
point within.
-/

namespace CallSite

namespace Ty

/-- Every pointer in the type leads to an allowed function. -/
def PointsWithin (allowed : String → Prop) : Ty → Prop
  | list element => element.PointsWithin allowed
  | pointer function => allowed function
  | _ => True

variable {allowed : String → Prop}

@[simp]
theorem pointsWithin_unresolved : unresolved.PointsWithin allowed := trivial

theorem PointsWithin.unify {left right unified : Ty} (inLeft : left.PointsWithin allowed)
    (inRight : right.PointsWithin allowed) (joined : left.unify right = some unified) :
    unified.PointsWithin allowed := by
  fun_induction Ty.unify left right generalizing unified with
  | case1 right =>
    cases joined
    exact inRight
  | case2 left _ =>
    cases joined
    exact inLeft
  | case3 left right _ _ ih =>
    obtain ⟨element, inner, rfl⟩ := Option.map_eq_some_iff.mp joined
    have within : element.PointsWithin allowed := ih inLeft inRight inner
    exact within
  | case4 type _ =>
    cases joined
    exact inLeft
  | case5 => cases joined

theorem pointsWithin_unifyFrom {index : Nat} {running : Ty} {types : List Ty} {unified : Ty}
    (start : running.PointsWithin allowed) (all : ∀ type ∈ types, type.PointsWithin allowed)
    (joined : unifyFrom index running types = .ok unified) : unified.PointsWithin allowed := by
  fun_induction unifyFrom index running types with
  | case1 index running =>
    cases joined
    exact start
  | case2 index running type types next step ih =>
    have head := start.unify (all type List.mem_cons_self) step
    exact ih head (fun other member => all other (List.mem_cons_of_mem type member)) joined
  | case3 => cases joined

/-- The type that a list of types is unified to. -/
theorem pointsWithin_unifyAll {types : List Ty} {unified : Option Ty}
    (all : ∀ type ∈ types, type.PointsWithin allowed) (joined : unifyAll types = .ok unified) :
    (unified.getD .unresolved).PointsWithin allowed := by
  cases types with
  | nil =>
    cases joined
    exact pointsWithin_unresolved
  | cons type types =>
    have start := all type List.mem_cons_self
    have rest := fun other member => all other (List.mem_cons_of_mem type member)
    rw [unifyAll] at joined
    cases result : unifyFrom 1 type types with
    | error index =>
      rw [result] at joined
      cases joined
    | ok final =>
      rw [result] at joined
      cases joined
      exact pointsWithin_unifyFrom start rest result

theorem mem_of_mem_known {types : List Ty} {type : Ty} (member : type ∈ known types) :
    type ∈ types :=
  (List.mem_filter.mp member).1

theorem pointsWithin_listOf? {elements : List Ty} {type : Ty}
    (all : ∀ element ∈ elements, element.PointsWithin allowed)
    (typed : listOf? elements = some type) : type.PointsWithin allowed := by
  unfold listOf? at typed
  split at typed
  · next element joined =>
    cases typed
    exact pointsWithin_unifyAll (fun other member => all other (mem_of_mem_known member)) joined
  · cases typed

theorem pointsWithin_unifyReturns {returns : List Ty} {type : Ty}
    (all : ∀ returned ∈ returns, returned.PointsWithin allowed)
    (agreed : unifyReturns returns = some type) : type.PointsWithin allowed := by
  unfold unifyReturns at agreed
  split at agreed
  · cases agreed
    trivial
  · split at agreed
    · next unified joined =>
      cases agreed
      exact pointsWithin_unifyAll (fun other member => all other (mem_of_mem_known member)) joined
    · cases agreed

end Ty

namespace Inference

open Ty

variable {allowed : String → Prop}

/-- Whatever type the rule yields points within the set. -/
def Yields (allowed : String → Prop) (rule : Except Problem Ty) : Prop :=
  ∀ type, rule = .ok type → type.PointsWithin allowed

theorem yields_error (problem : Problem) : Yields allowed (.error problem) := by
  intro type same
  cases same

theorem yields_ok {type : Ty} (within : type.PointsWithin allowed) :
    Yields allowed (.ok type) := by
  intro other same
  cases same
  exact within

theorem yields_if {condition : Prop} [Decidable condition] {type : Ty} (problem : Problem)
    (within : type.PointsWithin allowed) :
    Yields allowed (if condition then .ok type else .error problem) := by
  split
  · exact yields_ok within
  · exact yields_error problem

theorem yields_listRule {elements : List Ty}
    (all : ∀ element ∈ elements, element.PointsWithin allowed) :
    Yields allowed (listRule elements) := by
  unfold listRule
  split
  · next type typed => exact yields_ok (pointsWithin_listOf? all typed)
  · exact yields_error _

theorem yields_binaryRule (operator : BinaryOp) {left : Ty} (right : Ty)
    (within : left.PointsWithin allowed) : Yields allowed (binaryRule operator left right) := by
  unfold binaryRule
  split
  · exact yields_ok pointsWithin_unresolved
  split
  · exact yields_error _
  split
  · exact yields_error _
  · refine yields_ok ?_
    split
    · exact within
    · trivial

theorem yields_unaryRule (operator : UnaryOp) {operand : Ty}
    (within : operand.PointsWithin allowed) : Yields allowed (unaryRule operator operand) := by
  cases operator with
  | not | neg | increment | decrement => exact yields_if _ within

theorem yields_indexRule {type : Ty} (within : type.PointsWithin allowed) :
    Yields allowed (indexRule type) := by
  cases type with
  | list element => exact yields_ok within
  | string => exact yields_ok trivial
  | unresolved => exact yields_ok trivial
  | _ => exact yields_error _

theorem yields_appendRule {type : Ty} (within : type.PointsWithin allowed) :
    Yields allowed (appendRule type) := by
  cases type with
  | list element => exact yields_ok within
  | string => exact yields_ok trivial
  | unresolved => exact yields_ok trivial
  | _ => exact yields_error _

theorem yields_lenRule (type : Ty) : Yields allowed (lenRule type) := by
  unfold lenRule
  split
  · exact yields_ok trivial
  · exact yields_ok trivial
  · exact yields_ok trivial
  · exact yields_error _

theorem yields_chompRule (type : Ty) : Yields allowed (chompRule type) := by
  unfold chompRule
  split
  · exact yields_ok trivial
  · exact yields_ok trivial
  · exact yields_error _

theorem yields_iterateRule {type : Ty} (within : type.PointsWithin allowed) :
    Yields allowed (iterateRule type) := by
  cases type with
  | list element => exact yields_ok within
  | unresolved => exact yields_ok trivial
  | _ => exact yields_error _

theorem yields_spanRule (first last : Ty) : Yields allowed (spanRule first last) :=
  yields_if _ trivial

theorem yields_returnRule (problem : Problem) {returns : List Ty}
    (all : ∀ returned ∈ returns, returned.PointsWithin allowed) :
    Yields allowed (returnRule problem returns) := by
  unfold returnRule
  split
  · next type agreed => exact yields_ok (pointsWithin_unifyReturns all agreed)
  · exact yields_error _

theorem pointsWithin_pushedElement {element value refined : Ty}
    (inElement : element.PointsWithin allowed) (inValue : value.PointsWithin allowed)
    (pushed : pushedElement element value = some refined) : refined.PointsWithin allowed := by
  unfold pushedElement at pushed
  split at pushed
  · cases pushed
    exact inValue
  · exact inElement.unify inValue pushed

/-- The type that a push refines a variable to. -/
theorem pointsWithin_pushRule {target value refined : Ty} (inTarget : target.PointsWithin allowed)
    (inValue : value.PointsWithin allowed) (pushed : pushRule target value = .ok (some refined)) :
    refined.PointsWithin allowed := by
  cases target with
  | list element =>
    rw [pushRule] at pushed
    split at pushed
    · cases pushed
    split at pushed
    · cases pushed
    · next joined found =>
      split at pushed
      · cases pushed
      · cases pushed
        have inElement : element.PointsWithin allowed := inTarget
        have within := pointsWithin_pushedElement inElement inValue found
        exact within
  | string =>
    rw [pushRule] at pushed
    split at pushed <;> cases pushed
  | _ => cases pushed

theorem pointsWithin_element? {type : Ty} (within : type.PointsWithin allowed) :
    (type.element?.getD .unresolved).PointsWithin allowed := by
  cases type with
  | list element => exact within
  | _ => trivial

end Inference

end CallSite
