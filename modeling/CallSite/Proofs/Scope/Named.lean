import CallSite.Proofs.Scope.Growth

/-!
# Named environments

Every name that an open scope binds leads to a variable of that name.  Two scopes may share a
variable, but two names never do.  So an assignment changes the type of one name only, wherever its
variable lives.
-/

namespace CallSite.Environment

/-- What an open scope binds a name to is a variable of that name. -/
def Named (env : Environment) : Prop :=
  ∀ scope ∈ env.table.scopes, ∀ binding ∈ scope.bindings,
    ∃ declared, env.store.get? binding.2 = some declared ∧ declared.name = binding.1

theorem named_of_no_scopes {env : Environment} (closed : env.table.scopes = []) : env.Named := by
  intro scope member
  rw [closed] at member
  cases member

theorem lt_size_of_get? {store : Store} {location : Location} {declared : Variable}
    (there : store.get? location = some declared) : location < store.size :=
  (Array.getElem?_eq_some_iff.mp there).1

/-- A variable that was not visible is declared at the next free location. -/
theorem locate?_extend {env : Environment} {name : String} (open_ : env.table.scopes ≠ [])
    (missing : env.table.locate? name = none) (type : Ty) (other : String) :
    (env.extend name type).table.locate? other =
      if other = name then some env.store.size else env.table.locate? other := by
  unfold extend
  rw [SymbolTable.locate?] at missing
  rw [SymbolTable.locate?, SymbolTable.locate?]
  cases scopes : env.table.scopes with
  | nil => exact absurd scopes open_
  | cons scope outer =>
    rw [scopes, Scope.visible_cons, List.findSome?_cons] at missing
    simp only [Scope.visible_cons, List.findSome?_cons, Scope.location?_bind]
    by_cases same : other = name
    · subst same
      cases here : scope.location? other with
      | some location => simp [here] at missing
      | none => simp
    · cases scope.location? other <;> simp [same, Scope.bind]

namespace Named

variable {env after : Environment} {name other : String}

theorem exists_get? (named : env.Named) {location : Location}
    (found : env.table.locate? name = some location) :
    ∃ declared, env.store.get? location = some declared ∧ declared.name = name := by
  obtain ⟨scope, member, bound⟩ := List.exists_of_findSome?_eq_some found
  have inOpen : scope ∈ env.table.scopes := by
    rw [← Scope.visible_append_hidden env.table.scopes]
    exact List.mem_append_left _ member
  obtain ⟨before, later, split, _⟩ := List.lookup_eq_some_iff.mp bound
  exact named scope inOpen (name, location) (by simp [split])

/-- Different names are at different locations. -/
theorem eq_of_locate? (named : env.Named) {location : Location}
    (found : env.table.locate? name = some location)
    (again : env.table.locate? other = some location) : name = other := by
  obtain ⟨declared, there, rfl⟩ := named.exists_get? found
  obtain ⟨same, alsoThere, rfl⟩ := named.exists_get? again
  rw [there] at alsoThere
  cases alsoThere
  rfl

theorem opened (named : env.Named) (kind : ScopeKind) : (env.opened kind).Named := by
  intro scope member binding bound
  rcases List.mem_cons.mp member with rfl | outer
  · cases bound
  · exact named scope outer binding bound

theorem close (named : env.Named) : env.close.Named := by
  intro scope member
  rw [scopes_close] at member
  exact named scope (List.mem_of_mem_tail member)

/-! ## Untouched variables -/

theorem untouched (named : env.Named) (untouched : env.Untouched after) : after.Named := by
  intro scope member binding bound
  rw [untouched.scopes] at member
  obtain ⟨declared, there, same⟩ := named scope member binding bound
  exact ⟨declared, (untouched.cells _ (lt_size_of_get? there)).trans there, same⟩

theorem typeOf?_untouched (named : env.Named) (untouched : env.Untouched after) (name : String) :
    after.typeOf? name = env.typeOf? name := by
  have located : after.table.locate? name = env.table.locate? name := by
    rw [SymbolTable.locate?, SymbolTable.locate?, untouched.scopes]
  rw [typeOf?, typeOf?, lookup?, lookup?, located]
  cases found : env.table.locate? name with
  | none => rfl
  | some location =>
    obtain ⟨declared, there, _⟩ := named.exists_get? found
    rw [Option.bind_some, Option.bind_some, untouched.cells _ (lt_size_of_get? there)]

/-! ## Assignments -/

theorem retype (named : env.Named) (location : Location) (type : Ty) :
    (env.retype location type).Named := by
  intro scope member binding bound
  obtain ⟨declared, there, same⟩ := named scope member binding bound
  rw [Environment.retype, Store.get?_retype, there]
  split
  · exact ⟨_, rfl, same⟩
  · exact ⟨declared, rfl, same⟩

theorem extend (named : env.Named) (name : String) (type : Ty) : (env.extend name type).Named := by
  unfold Environment.extend
  cases open_ : env.table.scopes with
  | nil => exact named
  | cons scope outer =>
    have kept : ∀ inner ∈ scope :: outer, ∀ binding ∈ inner.bindings, ∃ declared,
        (env.store.add ⟨name, type, scope.id⟩).get? binding.2 = some declared ∧
          declared.name = binding.1 := by
      intro inner member binding bound
      obtain ⟨declared, there, same⟩ := named inner (open_ ▸ member) binding bound
      have old := lt_size_of_get? there
      rw [Store.get?_add, if_neg (Nat.ne_of_lt old)]
      exact ⟨declared, there, same⟩
    intro inner member binding bound
    rcases List.mem_cons.mp member with rfl | further
    · rcases List.mem_append.mp bound with here | added
      · exact kept scope List.mem_cons_self binding here
      · rw [List.mem_singleton.mp added, Store.get?_add, if_pos rfl]
        exact ⟨_, rfl, rfl⟩
    · exact kept inner (List.mem_cons_of_mem scope further) binding bound

theorem declared (named : env.Named) (name : String) (type : Ty) :
    (env.declared name type).Named := by
  unfold Environment.declared
  split
  · exact named
  · exact named.extend name type

theorem rebind (named : env.Named) (name : String) (type : Ty) : (env.rebind name type).Named := by
  unfold Environment.rebind
  split
  · exact named.extend name type
  · split
    · exact named.retype _ type
    · exact named

theorem assigned (named : env.Named) (name : String) (type : Ty) :
    (env.assigned name type).Named := by
  unfold Environment.assigned
  split
  · exact named.retype _ type
  · exact named.declared name type

theorem assigned_open (open_ : env.table.scopes ≠ []) (name : String) (type : Ty) :
    (env.assigned name type).table.scopes ≠ [] := by
  obtain ⟨scope, outer, scopes⟩ := List.exists_cons_of_ne_nil open_
  unfold Environment.assigned
  split
  · exact open_
  · next missing =>
    rw [declared_of_not_located missing, Environment.extend, scopes]
    exact List.cons_ne_nil _ _

theorem typeOf?_retype (named : env.Named) {location : Location}
    (found : env.table.locate? name = some location) (type : Ty) (other : String) :
    (env.retype location type).typeOf? other =
      if other = name then some type else env.typeOf? other := by
  change ((env.table.locate? other).bind (env.store.retype location type).get?).map _ = _
  by_cases same : other = name
  · subst same
    obtain ⟨declared, there, _⟩ := named.exists_get? found
    rw [if_pos rfl, found, Option.bind_some, Store.get?_retype, if_pos rfl, there]
    rfl
  · rw [if_neg same, typeOf?, lookup?]
    cases otherFound : env.table.locate? other with
    | none => rfl
    | some place =>
      have apart : place ≠ location := by
        rintro rfl
        exact same (named.eq_of_locate? otherFound found)
      rw [Option.bind_some, Option.bind_some, Store.get?_retype, if_neg apart]

theorem typeOf?_extend (named : env.Named) (open_ : env.table.scopes ≠ [])
    (missing : env.table.locate? name = none) (type : Ty) (other : String) :
    (env.extend name type).typeOf? other =
      if other = name then some type else env.typeOf? other := by
  obtain ⟨scope, outer, scopes⟩ := List.exists_cons_of_ne_nil open_
  have store : (env.extend name type).store = env.store.add ⟨name, type, scope.id⟩ := by
    rw [Environment.extend, scopes]
  rw [typeOf?, lookup?, locate?_extend open_ missing, store]
  by_cases same : other = name
  · rw [if_pos same, if_pos same, Option.bind_some, Store.get?_add, if_pos rfl]
    rfl
  · rw [if_neg same, if_neg same, typeOf?, lookup?]
    cases found : env.table.locate? other with
    | none => rfl
    | some location =>
      obtain ⟨declared, there, _⟩ := named.exists_get? found
      have old := Nat.ne_of_lt (lt_size_of_get? there)
      rw [Option.bind_some, Option.bind_some, Store.get?_add, if_neg old]

/-- An assignment gives its own variable the type, and leaves the types of all others. -/
theorem typeOf?_assigned (named : env.Named) (open_ : env.table.scopes ≠ []) (name : String)
    (type : Ty) (other : String) :
    (env.assigned name type).typeOf? other =
      if other = name then some type else env.typeOf? other := by
  unfold Environment.assigned
  split
  · next location found => exact named.typeOf?_retype found type other
  · next missing =>
    rw [declared_of_not_located missing]
    exact named.typeOf?_extend open_ missing type other

end Named

end CallSite.Environment
