import CallSite.Proofs.Scope.Growth

/-!
# The stack of open scopes

An open scope is seen as its id, its kind and its variables.  A stack whose scopes and variables are
not touched is the same stack.  While an environment grows, a scope below the nearest body only
changes in variables that a name stands for, and it has one of those only if it shares it with a
scope above.
-/

namespace CallSite

/-- What can be read off an open scope. -/
structure OpenScope where
  id : Nat
  kind : ScopeKind
  content : Frame
deriving DecidableEq, Repr

namespace OpenScope

/-- The scopes below the nearest body, in a stack that starts with the innermost scope. -/
def belowBody : List OpenScope → List OpenScope
  | [] => []
  | scope :: outer =>
    match scope.kind with
    | .body => outer
    | .branch => belowBody outer

end OpenScope

namespace Scope

def view (store : Store) (scope : Scope) : OpenScope := ⟨scope.id, scope.kind, scope.frame store⟩

theorem belowBody_map_view (store : Store) (scopes : List Scope) :
    OpenScope.belowBody (scopes.map (view store)) = (hidden scopes).map (view store) := by
  induction scopes with
  | nil => rfl
  | cons scope outer ih =>
    cases kind : scope.kind <;> simp [OpenScope.belowBody, hidden, view, kind, ih]

theorem map_view_congr {store other : Store} {scopes : List Scope}
    (same : frames other scopes = frames store scopes) :
    scopes.map (view other) = scopes.map (view store) := by
  refine List.map_congr_left fun scope member => ?_
  rw [view, view, List.map_inj_left.mp same scope member]

theorem Extends.hidden_eq {size : Nat} {before after : List Scope}
    (extends_ : Extends size before after) : hidden after = hidden before := by
  cases extends_ with
  | nil => rfl
  | cons scope outer added fresh => rfl

end Scope

namespace Environment

/-- The open scopes, the innermost one first. -/
def stack (env : Environment) : List OpenScope := env.table.scopes.map (Scope.view env.store)

/-- The variables of the scopes below the nearest body. -/
def hiddenLocations (env : Environment) : List Location :=
  (Scope.hidden env.table.scopes).flatMap Scope.locations

/-- Every variable that an open scope binds is in the store. -/
def Grounded (env : Environment) : Prop :=
  ∀ location ∈ env.table.scopes.flatMap Scope.locations, location < env.store.size

instance (env : Environment) : Decidable env.Grounded :=
  inferInstanceAs (Decidable (∀ location ∈ _, location < _))

namespace Grounded

variable {env : Environment}

theorem opened (grounded : env.Grounded) (kind : ScopeKind) : (env.opened kind).Grounded :=
  grounded

theorem close (grounded : env.Grounded) : env.close.Grounded := by
  intro location member
  obtain ⟨scope, inner, bound⟩ := List.mem_flatMap.mp member
  exact grounded location (List.mem_flatMap.mpr ⟨scope, List.mem_of_mem_tail inner, bound⟩)

theorem retype (grounded : env.Grounded) (location : Location) (type : Ty) :
    (env.retype location type).Grounded := by
  intro other member
  rw [Environment.retype, Store.size_retype]
  exact grounded other member

theorem extend (grounded : env.Grounded) (name : String) (type : Ty) :
    (env.extend name type).Grounded := by
  unfold Environment.extend
  cases open_ : env.table.scopes with
  | nil => exact grounded
  | cons scope outer =>
    rw [Grounded, open_, List.flatMap_cons] at grounded
    intro location member
    rw [Store.size_add]
    rcases List.mem_append.mp member with here | further
    · rw [Scope.locations_bind, List.mem_append] at here
      rcases here with old | new
      · exact Nat.lt_succ_of_lt (grounded location (List.mem_append_left _ old))
      · exact Nat.lt_succ_of_le (Nat.le_of_eq (List.mem_singleton.mp new))
    · exact Nat.lt_succ_of_lt (grounded location (List.mem_append_right _ further))

theorem declared (grounded : env.Grounded) (name : String) (type : Ty) :
    (env.declared name type).Grounded := by
  unfold Environment.declared
  split
  · exact grounded
  · exact grounded.extend name type

theorem assigned (grounded : env.Grounded) (name : String) (type : Ty) :
    (env.assigned name type).Grounded := by
  unfold Environment.assigned
  split
  · exact grounded.retype _ type
  · exact grounded.declared name type

theorem rebind (grounded : env.Grounded) (name : String) (type : Ty) :
    (env.rebind name type).Grounded := by
  unfold Environment.rebind
  split
  · exact grounded.extend name type
  · split
    · exact grounded.retype _ type
    · exact grounded

theorem of_hidden (grounded : env.Grounded) {location : Location}
    (member : location ∈ env.hiddenLocations) : location < env.store.size := by
  refine grounded location ?_
  rw [← Scope.visible_append_hidden env.table.scopes, List.flatMap_append]
  exact List.mem_append_right _ member

end Grounded

section

variable {before after : Environment}

theorem Untouched.grounded (untouched : before.Untouched after) (grounded : before.Grounded) :
    after.Grounded := by
  rw [Grounded, untouched.scopes]
  exact fun location member => Nat.lt_of_lt_of_le (grounded location member) untouched.size_le

theorem Untouched.stack_eq (untouched : before.Untouched after) (grounded : before.Grounded) :
    after.stack = before.stack := by
  rw [stack, stack, untouched.scopes]
  exact Scope.map_view_congr (Scope.frames_congr fun location member =>
    untouched.cells location (grounded location member))

end

/-- Below the nearest body only those variables may have another type that a name stands for, and
where there are none of them, every scope there is as it was. -/
structure KeepsHidden (before after : Environment) : Prop where
  cells : ∀ location ∈ before.hiddenLocations, ¬ before.Exposes location →
    after.store.get? location = before.store.get? location
  stack : (∀ location ∈ before.hiddenLocations, ¬ before.Exposes location) →
    OpenScope.belowBody after.stack = OpenScope.belowBody before.stack

theorem Grows.keepsHidden {before after : Environment} (grows : before.Grows after)
    (grounded : before.Grounded) : before.KeepsHidden after := by
  have kept : ∀ location ∈ before.hiddenLocations, ¬ before.Exposes location →
      after.store.get? location = before.store.get? location :=
    fun location member => grows.cells location (grounded.of_hidden member)
  refine ⟨kept, fun unseen => ?_⟩
  rw [stack, stack, Scope.belowBody_map_view, Scope.belowBody_map_view, grows.scopes.hidden_eq]
  exact Scope.map_view_congr (Scope.frames_congr fun location member =>
    kept location member (unseen location member))

end Environment

end CallSite
