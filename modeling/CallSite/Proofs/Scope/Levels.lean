import CallSite.Proofs.Scope.Growth

/-!
# Levels

A name is looked up from the innermost open scope outwards, and the level at which it is found is
the number of scopes that were passed.  Levels depend on names alone.
-/

namespace CallSite

namespace Scope

/-! ## The level of a name -/

/-- How many scopes lie between the innermost one and the one that binds the visible variable. -/
def level? (scopes : List Scope) (name : String) : Option Nat :=
  (visible scopes).findIdx? (·.binds name)

theorem isSome_level? (table : SymbolTable) (name : String) :
    (level? table.scopes name).isSome = table.hasVariable name := by
  rw [level?, SymbolTable.hasVariable, SymbolTable.locate?]
  induction visible table.scopes with
  | nil => rfl
  | cons scope outer ih =>
    rw [List.findIdx?_cons, List.findSome?_cons, binds]
    cases scope.location? name with
    | some location => rfl
    | none => simpa using ih

theorem level?_cons (scope : Scope) (outer : List Scope) (name : String) :
    level? (scope :: outer) name =
      if scope.binds name then some 0
      else
        match scope.kind with
        | .body => none
        | .branch => (level? outer name).map (· + 1) := by
  rw [level?, visible_cons, List.findIdx?_cons]
  cases scope.kind <;> rfl

/-- The scopes bind the same names, level by level. -/
def SameNames : List Scope → List Scope → Prop :=
  List.Forall₂ fun left right => ∀ name, left.binds name = right.binds name

theorem SameNames.level?_eq {left right : List Scope}
    (same : SameNames (visible left) (visible right)) (name : String) :
    level? left name = level? right name := by
  rw [level?, level?]
  generalize visible left = first at same ⊢
  generalize visible right = second at same ⊢
  induction same with
  | nil => rfl
  | cons here _ ih => rw [List.findIdx?_cons, List.findIdx?_cons, here name, ih]

/-! ## The innermost scope -/

/-- The innermost scope is of the given kind and binds the given names; the scopes around it are the
given ones. -/
def Tops (kind : ScopeKind) (names : List String) (outer scopes : List Scope) : Prop :=
  ∃ scope, scopes = scope :: outer ∧ scope.kind = kind ∧
    ∀ name, scope.binds name = true ↔ name ∈ names

theorem Tops.level? {kind : ScopeKind} {names : List String} {outer scopes : List Scope}
    (tops : Tops kind names outer scopes) (name : String) :
    level? scopes name =
      if name ∈ names then some 0
      else
        match kind with
        | .body => none
        | .branch => (Scope.level? outer name).map (· + 1) := by
  obtain ⟨scope, rfl, rfl, binds⟩ := tops
  simp only [level?_cons, binds name]

end Scope

namespace Environment

theorem tops_opened (env : Environment) (kind : ScopeKind) :
    Scope.Tops kind [] env.table.scopes (env.opened kind).table.scopes :=
  ⟨⟨env.table.nextScopeId, kind, []⟩, rfl, rfl, fun _ => iff_of_false nofun List.not_mem_nil⟩

theorem tops_declared {env : Environment} {kind : ScopeKind} {names : List String}
    {outer : List Scope} (tops : Scope.Tops kind names outer env.table.scopes) (name : String)
    (type : Ty) :
    Scope.Tops kind (names ++ [name]) outer (env.declared name type).table.scopes := by
  obtain ⟨scope, open_, kind_eq, binds⟩ := tops
  unfold declared refusal? extend
  rw [open_]
  cases bound : scope.binds name with
  | true =>
    refine ⟨scope, by simpa [bound] using open_, kind_eq, fun other => ?_⟩
    rw [List.mem_append, List.mem_singleton, ← binds other]
    constructor
    · exact .inl
    · rintro (here | rfl)
      · exact here
      · exact bound
  | false =>
    refine ⟨scope.bind name env.store.size, by simp [bound], kind_eq, fun other => ?_⟩
    rw [List.mem_append, List.mem_singleton, ← binds other, Scope.binds, Scope.location?_bind,
      Option.isSome_or, Bool.or_eq_true, ← Scope.binds]
    by_cases same : other = name <;> simp [same]

end Environment

end CallSite
