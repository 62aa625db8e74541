import CallSite.Ty.Basic

/-!
# Variables and their locations

A declared variable lives at a location of a store.  Whoever knows the location sees the type last
written there, so two copies of a scope share the variables that both of them bind.
-/

namespace CallSite

/-- A declared variable: its name, its current type and the scope that declared it. -/
structure Variable where
  name : String
  type : Ty
  scopeId : Nat
deriving DecidableEq, Repr

abbrev Location := Nat

/-- The variables declared so far, by location. -/
structure Store where
  cells : Array Variable := #[]
deriving Repr

namespace Store

def size (store : Store) : Nat := store.cells.size

def get? (store : Store) (location : Location) : Option Variable :=
  store.cells[location]?

def typeAt? (store : Store) (location : Location) : Option Ty :=
  (store.get? location).map (·.type)

/-- Add a variable at the next free location, which is the store's size. -/
def add (store : Store) (declared : Variable) : Store :=
  ⟨store.cells.push declared⟩

/-- Give the variable at a location another type. -/
def retype (store : Store) (location : Location) (type : Ty) : Store :=
  match store.get? location with
  | some declared => ⟨store.cells.setIfInBounds location { declared with type := type }⟩
  | none => store

@[simp]
theorem size_add (store : Store) (declared : Variable) :
    (store.add declared).size = store.size + 1 := by
  simp [add, size]

theorem get?_add (store : Store) (declared : Variable) (location : Location) :
    (store.add declared).get? location =
      if location = store.size then some declared else store.get? location := by
  by_cases last : location = store.cells.size <;>
    simp [add, get?, size, Array.getElem?_push, last]

@[simp]
theorem size_retype (store : Store) (location : Location) (type : Ty) :
    (store.retype location type).size = store.size := by
  unfold retype
  split <;> simp [size]

theorem get?_retype (store : Store) (location other : Location) (type : Ty) :
    (store.retype location type).get? other =
      if other = location then
        (store.get? other).map fun declared => { declared with type := type }
      else store.get? other := by
  unfold retype
  split
  next declared found =>
    by_cases same : other = location
    · subst same
      have bound : other < store.cells.size := by
        simp only [get?] at found
        exact (Array.getElem?_eq_some_iff.mp found).1
      simp [get?, bound] at found ⊢
      simp [found]
    · simp [get?, same, Ne.symm same]
  next missing =>
    by_cases same : other = location
    · subst same
      simp [missing]
    · simp [same]

end Store

end CallSite
