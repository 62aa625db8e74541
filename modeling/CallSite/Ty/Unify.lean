import CallSite.Ty.Basic

/-!
# Unification of types

Two types agree when they are equal up to unknown list elements.  Two types that agree have a
unified type, which keeps the better known of the two at each unknown list element.
-/

namespace CallSite.Ty

/-- Equality up to unknown list elements.  An unknown type outside a list agrees only with itself. -/
def agrees : Ty → Ty → Bool
  | list left, list right =>
    left == unresolved || right == unresolved || left.agrees right
  | left, right => left == right

/-- The type that two agreeing types describe together. -/
def unify : Ty → Ty → Option Ty
  | list left, list right =>
    if left = unresolved then some (list right)
    else if right = unresolved then some (list left)
    else (left.unify right).map list
  | left, right => if left = right then some left else none

/-- Two types have a unified type exactly when they agree. -/
theorem isSome_unify (left right : Ty) : (left.unify right).isSome = left.agrees right := by
  fun_induction unify left right with
  | case1 right => simp [agrees]
  | case2 left _ => simp [agrees]
  | case3 left right leftKnown rightKnown ih => simp [agrees, leftKnown, rightKnown, ih]
  | case4 type _ => cases type <;> simp_all [agrees]
  | case5 left right notLists different =>
    cases left <;> cases right <;> simp_all [agrees]

@[simp]
theorem unify_self (type : Ty) : type.unify type = some type := by
  induction type with
  | list element ih => by_cases unknown : element = unresolved <;> simp [unify, unknown, ih]
  | _ => simp [unify]

/-- Unify a running type with further types, counting positions from `index`. -/
def unifyFrom (index : Nat) (running : Ty) : List Ty → Except Nat Ty
  | [] => .ok running
  | type :: types =>
    match running.unify type with
    | some unified => unifyFrom (index + 1) unified types
    | none => .error index

/-- Unify a list of types from left to right.  A failure names the first position whose type does
not agree with what stands before it; the empty list has no type. -/
def unifyAll : List Ty → Except Nat (Option Ty)
  | [] => .ok none
  | type :: types => (unifyFrom 1 type types).map some

/-- The types that are known at their outermost level. -/
def known (types : List Ty) : List Ty :=
  types.filter (· != unresolved)

/-- The type of a list literal whose elements have the given types. -/
def listOf? (elements : List Ty) : Option Ty :=
  match unifyAll (known elements) with
  | .ok element => some (list (element.getD unresolved))
  | .error _ => none

/-- The type that a body's returns agree on: `noValue` without any return, `unresolved` when none of
them is known. -/
def unifyReturns : List Ty → Option Ty
  | [] => some noValue
  | returns =>
    match unifyAll (known returns) with
    | .ok unified => some (unified.getD unresolved)
    | .error _ => none

end CallSite.Ty
