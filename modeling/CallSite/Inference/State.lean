import CallSite.Inference.Effects
import CallSite.SymbolTable.Environment

/-!
# The state of inference

Inference runs on an environment, the names of the declarations it has entered and a sink for its
reports.  The names form a finite set, kept in ascending order of code points and without
repetition.
-/

namespace CallSite

/-! ## Sets of names -/

namespace NameSet

/-- Insert a name into an ascending list at its place. -/
def insertInto (name : String) : List String → List String
  | [] => [name]
  | first :: rest =>
    if name = first then first :: rest
    else if name < first then name :: first :: rest
    else first :: insertInto name rest

theorem mem_insertInto (name other : String) (names : List String) :
    other ∈ insertInto name names ↔ other = name ∨ other ∈ names := by
  fun_induction insertInto name names with
  | case1 => simp
  | case2 rest => simp
  | case3 => simp
  | case4 first rest _ _ ih => simp [ih, or_left_comm]

/-- Insertion keeps a list ascending. -/
theorem pairwise_insertInto (name : String) (names : List String)
    (ascending : names.Pairwise (· < ·)) : (insertInto name names).Pairwise (· < ·) := by
  fun_induction insertInto name names with
  | case1 => simp
  | case2 rest => exact ascending
  | case3 first rest _ below =>
    refine List.pairwise_cons.mpr ⟨?_, ascending⟩
    intro other member
    rcases List.mem_cons.mp member with rfl | later
    · exact below
    · exact String.lt_trans below ((List.pairwise_cons.mp ascending).1 other later)
  | case4 first rest different notBelow ih =>
    obtain ⟨firstBelow, restAscending⟩ := List.pairwise_cons.mp ascending
    refine List.pairwise_cons.mpr ⟨?_, ih restAscending⟩
    intro other member
    rcases (mem_insertInto name other rest).mp member with rfl | later
    · exact String.not_le.mp fun le => different (String.le_antisymm le (String.not_lt.mp notBelow))
    · exact firstBelow other later

end NameSet

structure NameSet where
  names : List String
  ascending : names.Pairwise (· < ·)
deriving DecidableEq, Repr

namespace NameSet

def empty : NameSet := ⟨[], .nil⟩

def insert (set : NameSet) (name : String) : NameSet where
  names := insertInto name set.names
  ascending := pairwise_insertInto name set.names set.ascending

theorem mem_insert (set : NameSet) (name other : String) :
    other ∈ (set.insert name).names ↔ other = name ∨ other ∈ set.names :=
  mem_insertInto name other set.names

theorem mem_foldl_insert (names : List String) (set : NameSet) (name : String) :
    name ∈ (names.foldl NameSet.insert set).names ↔ name ∈ names ∨ name ∈ set.names := by
  induction names generalizing set with
  | nil => simp
  | cons first rest ih =>
    rw [List.foldl_cons, ih, mem_insert, List.mem_cons, or_left_comm, or_assoc]

end NameSet

namespace Inference

/-! ## States -/

structure State where
  env : Environment := {}
  visited : NameSet := .empty
  sink : Sink

namespace State

def report (state : State) (problem : Problem) (position : Position) : State :=
  { state with sink := state.sink.report ⟨problem, position⟩ }

def openScope (state : State) (kind : ScopeKind) : State :=
  { state with env.table := state.env.table.openScope kind }

def closeScope (state : State) : State :=
  { state with env.table := state.env.table.close }

/-- The innermost open scope. -/
def scope? (state : State) : Option Scope := state.env.table.current?

/-- Note that a declaration was entered. -/
def visit (state : State) (name : String) : State :=
  { state with visited := state.visited.insert name }

/-- Keep the outcome of a call in the function's entry. -/
def recordCall (state : State) (function : String) (types : List Ty) (returns : Ty)
    (scope : Option Scope) : State :=
  { state with
    env.table := state.env.table.updateFunction function (·.record types returns scope) }

/-- Keep the outcome of a match in the pattern's entry. -/
def recordMatch (state : State) (pattern : String) (type value : Ty)
    (scope : Option Scope) : State :=
  { state with
    env.table := state.env.table.updatePattern pattern (·.record type value scope) }

/-- Keep the scope of the main body. -/
def recordMain (state : State) (scope : Option Scope) : State :=
  { state with env.table.mainScope := scope }

end State

abbrev CheckM := StateM State

namespace CheckM

/-- Run an action between the opening and the closing of a scope, and return what that scope held
when it was closed. -/
def inScope {α : Type} (kind : ScopeKind) (action : CheckM α) : CheckM (α × Option Scope) := do
  modify (·.openScope kind)
  let result ← action
  let scope ← modifyGet fun state => (state.scope?, state.closeScope)
  pure (result, scope)

end CheckM

instance : MonadInfer CheckM where
  report problem position := modify (·.report problem position)
  typeOf name := do
    let state ← get
    pure ((state.env.typeOf? name).getD .unresolved)
  declare name type := modify fun state => { state with env := state.env.declared name type }
  assign name type := modify fun state => { state with env := state.env.assigned name type }
  rebind name type := modify fun state => { state with env := state.env.rebind name type }
  inBranch action := do
    let (result, _) ← CheckM.inScope .branch action
    pure result
  inCall function action := do
    modify (·.visit function)
    let ((types, returns), scope) ← CheckM.inScope .body action
    modify (·.recordCall function types returns scope)
    pure returns
  inMatch pattern type action := do
    modify (·.visit pattern)
    let (value, scope) ← CheckM.inScope .body action
    modify (·.recordMatch pattern type value scope)
    pure value
  inMain action := do
    let (_, scope) ← CheckM.inScope .body action
    modify (·.recordMain scope)

/-- A rule is settled to the type that it yields. -/
theorem run_settle (position : Position) (rule : Except Problem Ty) (state : State) :
    (settle position rule : CheckM Ty).run state =
      (rule.toOption.getD .unresolved,
        { state with sink := state.sink.reportAll (reported position rule) }) := by
  cases rule <;> rfl

end Inference

end CallSite
