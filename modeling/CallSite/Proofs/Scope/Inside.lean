import CallSite.Proofs.Scope.Growth

/-!
# Environments inside other scopes

More scopes may be open around those of an environment.  They are of no consequence to what is done
with the inner ones, as long as it keeps to names that are not visible further out.
-/

namespace CallSite

namespace Scope

/-- Where only the given scopes are open, no variable of that name is visible. -/
def Unseen (scopes : List Scope) (name : String) : Prop :=
  (visible scopes).findSome? (·.location? name) = none

theorem unseen_of_not_hasVariable {table : SymbolTable} {name : String}
    (missing : table.hasVariable name = false) : Unseen table.scopes name := by
  rw [SymbolTable.hasVariable, Option.isSome_eq_false_iff, Option.isNone_iff_eq_none] at missing
  exact missing

/-- A name that is not visible further out is looked up in the inner scopes alone. -/
theorem Unseen.findSome?_append {outer : List Scope} {name : String} (unseen : Unseen outer name)
    (inner : List Scope) :
    (visible (inner ++ outer)).findSome? (·.location? name) =
      (visible inner).findSome? (·.location? name) := by
  induction inner with
  | nil => exact unseen
  | cons scope rest ih =>
    rw [List.cons_append, visible_cons, visible_cons, List.findSome?_cons, List.findSome?_cons]
    cases scope.location? name with
    | some location => rfl
    | none =>
      cases scope.kind with
      | body => rfl
      | branch => exact ih

end Scope

namespace Environment

/-- The environment with more scopes open around its own. -/
def inside (env : Environment) (outer : List Scope) : Environment :=
  { env with table.scopes := env.table.scopes ++ outer }

variable {env : Environment} {outer : List Scope} {name : String}

theorem locate?_inside (unseen : Scope.Unseen outer name) :
    (env.inside outer).table.locate? name = env.table.locate? name :=
  unseen.findSome?_append env.table.scopes

theorem typeOf?_inside (unseen : Scope.Unseen outer name) :
    (env.inside outer).typeOf? name = env.typeOf? name := by
  rw [typeOf?, typeOf?, lookup?, lookup?, locate?_inside unseen]
  rfl

section Open

variable (open_ : env.table.scopes ≠ [])

include open_

theorem close_inside : (env.inside outer).close = env.close.inside outer := by
  obtain ⟨scope, rest, scopes⟩ := List.exists_cons_of_ne_nil open_
  simp only [close, inside, SymbolTable.close, scopes, List.cons_append, List.tail_cons]

theorem refusal?_inside (name : String) :
    (env.inside outer).refusal? name = env.refusal? name := by
  obtain ⟨scope, rest, scopes⟩ := List.exists_cons_of_ne_nil open_
  simp only [refusal?, inside, scopes, List.cons_append]

theorem extend_inside (name : String) (type : Ty) :
    (env.inside outer).extend name type = (env.extend name type).inside outer := by
  obtain ⟨scope, rest, scopes⟩ := List.exists_cons_of_ne_nil open_
  simp only [extend, inside, scopes, List.cons_append]

theorem declared_inside (name : String) (type : Ty) :
    (env.inside outer).declared name type = (env.declared name type).inside outer := by
  unfold declared
  rw [refusal?_inside open_, extend_inside open_]
  cases env.refusal? name <;> rfl

theorem assigned_inside (unseen : Scope.Unseen outer name) (type : Ty) :
    (env.inside outer).assigned name type = (env.assigned name type).inside outer := by
  unfold assigned
  rw [locate?_inside unseen, declared_inside open_]
  cases env.table.locate? name <;> rfl

/-- Where a name cannot be declared again, the innermost scope binds it. -/
theorem locate?_inside_of_refused {error : TableError} (refused : env.refusal? name = some error) :
    (env.inside outer).table.locate? name = env.table.locate? name := by
  obtain ⟨scope, rest, scopes⟩ := List.exists_cons_of_ne_nil open_
  rw [refusal?, scopes] at refused
  have bound : scope.binds name = true := by
    by_contra free
    simp [free] at refused
  obtain ⟨location, found⟩ := Option.isSome_iff_exists.mp bound
  rw [SymbolTable.locate?, SymbolTable.locate?, inside, scopes, List.cons_append,
    Scope.visible_cons, Scope.visible_cons, List.findSome?_cons, List.findSome?_cons, found]

theorem rebind_inside (name : String) (type : Ty) :
    (env.inside outer).rebind name type = (env.rebind name type).inside outer := by
  unfold rebind
  rw [refusal?_inside open_, extend_inside open_]
  cases refused : env.refusal? name with
  | none => rfl
  | some error =>
    rw [locate?_inside_of_refused open_ refused]
    cases env.table.locate? name <;> rfl

end Open

end Environment

end CallSite
