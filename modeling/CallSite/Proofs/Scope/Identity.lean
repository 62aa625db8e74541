import CallSite.Proofs.Scope.Levels
import Mathlib.Data.List.Perm.Subperm

/-!
# The identity of scopes

A table holds the open scopes and those that it keeps for its entries and for the main body.  No two
of them have the same number, each variable carries the number of the scope that holds it, and a
scope has no name twice.  Opening and closing a scope, binding a variable and keeping a scope that
was closed all preserve this: only opening makes a scope, and its number is a new one.  That it is
new rests on the count of the scopes having no bound, as the table has it.
-/

namespace CallSite

/-! ## Variables keep their names -/

namespace Store

/-- Every variable is still there, with its name and the number of its scope. -/
def Remembers (before after : Store) : Prop :=
  ∀ location declared, before.get? location = some declared → ∃ later,
    after.get? location = some later ∧ later.name = declared.name ∧
      later.scopeId = declared.scopeId

theorem remembers_add (store : Store) (declared : Variable) :
    store.Remembers (store.add declared) := by
  intro location earlier there
  have within : location < store.size := (Array.getElem?_eq_some_iff.mp there).1
  rw [get?_add, if_neg (Nat.ne_of_lt within)]
  exact ⟨earlier, there, rfl, rfl⟩

theorem remembers_retype (store : Store) (location : Location) (type : Ty) :
    store.Remembers (store.retype location type) := by
  intro other earlier there
  rw [get?_retype, there]
  split
  · exact ⟨_, rfl, rfl, rfl⟩
  · exact ⟨earlier, rfl, rfl, rfl⟩

end Store

namespace Scope

theorem binds_iff_mem_names (scope : Scope) (name : String) :
    scope.binds name = true ↔ name ∈ scope.names := by
  rw [binds, location?, List.lookup_isSome_iff, names, List.mem_map]
  simp

/-- The scope has no name twice, and each leads to a variable of that name that carries the number
of the scope. -/
structure Owns (scope : Scope) (store : Store) : Prop where
  distinct : scope.names.Nodup
  carried : ∀ binding ∈ scope.bindings, ∃ declared, store.get? binding.2 = some declared ∧
    declared.name = binding.1 ∧ declared.scopeId = scope.id

namespace Owns

variable {scope : Scope} {store : Store}

theorem remembers (owns : scope.Owns store) {later : Store} (kept : store.Remembers later) :
    scope.Owns later := by
  refine ⟨owns.distinct, fun binding bound => ?_⟩
  obtain ⟨declared, there, named, numbered⟩ := owns.carried binding bound
  obtain ⟨after, still, sameName, sameId⟩ := kept _ declared there
  exact ⟨after, still, sameName.trans named, sameId.trans numbered⟩

theorem bind (owns : scope.Owns store) {name : String} (free : scope.binds name = false)
    (type : Ty) : (scope.bind name store.size).Owns (store.add ⟨name, type, scope.id⟩) := by
  have old := owns.remembers (store.remembers_add ⟨name, type, scope.id⟩)
  refine ⟨?_, fun binding bound => ?_⟩
  · rw [names, Scope.bind, List.map_append, List.map_singleton]
    refine List.nodup_append.mpr ⟨owns.distinct, List.pairwise_singleton _ _, ?_⟩
    rintro taken listed _ last rfl
    rw [List.mem_singleton.mp last] at listed
    rw [(scope.binds_iff_mem_names name).mpr listed] at free
    cases free
  · rcases List.mem_append.mp bound with earlier | new
    · exact old.carried binding earlier
    · rw [List.mem_singleton.mp new, Store.get?_add, if_pos rfl]
      exact ⟨_, rfl, rfl, rfl⟩

end Owns

/-- The scopes have different numbers, all of them below `next`, and own their variables. -/
structure Distinguished (next : Nat) (store : Store) (scopes : List Scope) : Prop where
  distinct : (scopes.map (·.id)).Nodup
  below : ∀ scope ∈ scopes, scope.id < next
  owned : ∀ scope ∈ scopes, scope.Owns store

namespace Distinguished

variable {next : Nat} {store : Store} {scope : Scope} {scopes : List Scope}

theorem nil (next : Nat) (store : Store) : Distinguished next store [] :=
  ⟨List.nodup_nil, fun _ member => absurd member List.not_mem_nil,
    fun _ member => absurd member List.not_mem_nil⟩

/-- Fewer scopes, in whatever order, are distinguished too. -/
theorem subperm (distinguished : Distinguished next store scopes) {fewer : List Scope}
    (moved : fewer.Subperm scopes) : Distinguished next store fewer where
  distinct := by
    obtain ⟨others, reordered, included⟩ := moved
    have apart := distinguished.distinct.sublist (included.map (·.id))
    exact (reordered.map (·.id)).nodup_iff.mp apart
  below scope member := distinguished.below scope (moved.subset member)
  owned scope member := distinguished.owned scope (moved.subset member)

theorem remembers (distinguished : Distinguished next store scopes) {later : Store}
    (kept : store.Remembers later) : Distinguished next later scopes :=
  ⟨distinguished.distinct, distinguished.below,
    fun scope member => (distinguished.owned scope member).remembers kept⟩

/-- A new scope gets the next number. -/
theorem opened (distinguished : Distinguished next store scopes) (kind : ScopeKind) :
    Distinguished (next + 1) store (⟨next, kind, []⟩ :: scopes) where
  distinct := by
    refine List.nodup_cons.mpr ⟨fun taken => ?_, distinguished.distinct⟩
    obtain ⟨scope, member, same⟩ := List.mem_map.mp taken
    exact Nat.ne_of_lt (distinguished.below scope member) same
  below scope member := by
    rcases List.mem_cons.mp member with rfl | old
    · exact Nat.lt_succ_self next
    · exact Nat.lt_succ_of_lt (distinguished.below scope old)
  owned scope member := by
    rcases List.mem_cons.mp member with rfl | old
    · exact ⟨List.nodup_nil, fun _ bound => absurd bound List.not_mem_nil⟩
    · exact distinguished.owned scope old

theorem bind (distinguished : Distinguished next store (scope :: scopes)) {name : String}
    (free : scope.binds name = false) (type : Ty) :
    Distinguished next (store.add ⟨name, type, scope.id⟩)
      (scope.bind name store.size :: scopes) where
  distinct := distinguished.distinct
  below := List.forall_mem_cons.mpr (List.forall_mem_cons.mp distinguished.below)
  owned := by
    obtain ⟨here, others⟩ := List.forall_mem_cons.mp distinguished.owned
    refine List.forall_mem_cons.mpr ⟨here.bind free type, fun other member => ?_⟩
    exact (others other member).remembers (store.remembers_add _)

end Distinguished

end Scope

namespace SymbolTable

/-- The scopes that are kept for functions, for patterns and for the main body. -/
def kept (table : SymbolTable) : List Scope :=
  table.functions.filterMap (·.scope) ++
    (table.patterns.filterMap (·.scope) ++ table.mainScope.toList)

/-- The open scopes and the kept ones. -/
def held (table : SymbolTable) : List Scope := table.scopes ++ table.kept

theorem subperm_middle {α : Type} {part added old : List α} (moved : part.Subperm (added ++ old))
    (before after : List α) :
    (before ++ (part ++ after)).Subperm (added ++ (before ++ (old ++ after))) := by
  have inside : (before ++ (part ++ after)).Subperm (before ++ (added ++ old ++ after)) :=
    (List.subperm_append_left _).mpr ((List.subperm_append_right _).mpr moved)
  rw [List.append_assoc] at inside
  exact inside.trans (List.perm_append_comm_assoc _ _ _).subperm

/-- Where no two entries have the same name, keeping a scope for a name puts it in the place of the
one that was kept before. -/
theorem filterMap_change_subperm {α : Type} (nameOf : α → String) (scopeOf : α → Option Scope)
    {entries : List α} (distinct : (entries.map nameOf).Nodup) (name : String) (change : α → α)
    {scope : Option Scope} (stored : ∀ entry, scopeOf (change entry) = scope) :
    ((entries.map fun entry => if nameOf entry == name then change entry else entry).filterMap
      scopeOf).Subperm (scope.toList ++ entries.filterMap scopeOf) := by
  have split : ∀ (entry : α) (rest : List α), (entry :: rest).filterMap scopeOf =
      (scopeOf entry).toList ++ rest.filterMap scopeOf := by
    intro entry rest
    rw [List.filterMap_cons]
    cases scopeOf entry <;> rfl
  induction entries with
  | nil => exact List.nil_subperm
  | cons entry entries ih =>
    obtain ⟨absent, apart⟩ := List.nodup_cons.mp distinct
    rw [List.map_cons, split, split]
    by_cases here : nameOf entry = name
    · have others : entries.map
          (fun other => if nameOf other == name then change other else other) = entries := by
        refine (List.map_congr_left fun other member => if_neg fun same => absent ?_).trans
          (List.map_id' entries)
        rw [here, ← beq_iff_eq.mp same]
        exact List.mem_map_of_mem member
      rw [others, if_pos (beq_iff_eq.mpr here), stored]
      exact (List.subperm_append_left _).mpr (List.sublist_append_right _ _).subperm
    · rw [if_neg (mt beq_iff_eq.mp here)]
      have moved := (List.subperm_append_left (scopeOf entry).toList).mpr (ih apart)
      exact moved.trans (List.perm_append_comm_assoc _ _ _).subperm

theorem nodup_change {α : Type} (nameOf : α → String) {entries : List α}
    (distinct : (entries.map nameOf).Nodup) (name : String) (change : α → α)
    (named : ∀ entry, nameOf (change entry) = nameOf entry) :
    ((entries.map fun entry => if nameOf entry == name then change entry else entry).map
      nameOf).Nodup := by
  have same : (entries.map fun entry => if nameOf entry == name then change entry else entry).map
      nameOf = entries.map nameOf := by
    rw [List.map_map]
    refine List.map_congr_left fun entry _ => ?_
    rw [Function.comp_apply, apply_ite nameOf, named, ite_self]
  rw [same]
  exact distinct

section Keeping

variable {table : SymbolTable} (scope : Option Scope)

theorem held_recordFunction (distinct : (table.functions.map (·.name)).Nodup) (name : String)
    (types : List Ty) (returns : Ty) :
    (table.updateFunction name (·.record types returns scope)).held.Subperm
      (scope.toList ++ table.held) := by
  have changed := filterMap_change_subperm FunctionEntry.name FunctionEntry.scope distinct name
    (·.record types returns scope) fun _ => rfl
  exact subperm_middle changed table.scopes _

theorem held_recordPattern (distinct : (table.patterns.map (·.name)).Nodup) (name : String)
    (type value : Ty) :
    (table.updatePattern name (·.record type value scope)).held.Subperm
      (scope.toList ++ table.held) := by
  have changed := filterMap_change_subperm PatternEntry.name PatternEntry.scope distinct name
    (·.record type value scope) fun _ => rfl
  have moved := subperm_middle changed
    (table.scopes ++ table.functions.filterMap (·.scope)) table.mainScope.toList
  rwa [List.append_assoc, List.append_assoc] at moved

theorem held_recordMain :
    { table with mainScope := scope }.held.Subperm (scope.toList ++ table.held) := by
  have replaced := (List.sublist_append_left scope.toList table.mainScope.toList).subperm
  have moved := subperm_middle replaced (table.scopes ++
    (table.functions.filterMap (·.scope) ++ table.patterns.filterMap (·.scope))) []
  simp only [List.append_nil, List.append_assoc] at moved
  exact moved

end Keeping

end SymbolTable

namespace Environment

/-- The open scopes are numbered in the order in which they were opened, the scopes that the table
holds are distinguished, and no two functions and no two patterns have the same name. -/
structure Identified (env : Environment) : Prop where
  ascending : env.table.scopes.Pairwise fun inner outer => outer.id < inner.id
  held : Scope.Distinguished env.table.nextScopeId env.store env.table.held
  functions : (env.table.functions.map (·.name)).Nodup
  patterns : (env.table.patterns.map (·.name)).Nodup

/-- A closed scope that is distinguished from those that the table holds. -/
def Spares (env : Environment) (scope : Option Scope) : Prop :=
  Scope.Distinguished env.table.nextScopeId env.store (scope.toList ++ env.table.held)

/-- Where every entry is fresh, no scope is held. -/
theorem identified_of_fresh {env : Environment} (closed : env.table.scopes = [])
    (noMain : env.table.mainScope = none)
    (freshFunctions : ∀ entry ∈ env.table.functions, entry.scope = none)
    (freshPatterns : ∀ entry ∈ env.table.patterns, entry.scope = none)
    (functions : (env.table.functions.map (·.name)).Nodup)
    (patterns : (env.table.patterns.map (·.name)).Nodup) : env.Identified := by
  have nothing : env.table.held = [] := by
    rw [SymbolTable.held, SymbolTable.kept, closed, noMain,
      List.filterMap_eq_nil_iff.mpr freshFunctions, List.filterMap_eq_nil_iff.mpr freshPatterns]
    rfl
  refine ⟨?_, ?_, functions, patterns⟩
  · rw [closed]
    exact .nil
  · rw [nothing]
    exact .nil _ _

namespace Identified

variable {env : Environment}

/-! ## Opening and closing -/

theorem opened (identified : env.Identified) (kind : ScopeKind) :
    (env.opened kind).Identified where
  ascending := by
    refine List.pairwise_cons.mpr ⟨fun scope member => ?_, identified.ascending⟩
    exact identified.held.below scope (List.mem_append_left _ member)
  held := identified.held.opened kind
  functions := identified.functions
  patterns := identified.patterns

theorem close (identified : env.Identified) : env.close.Identified where
  ascending := identified.ascending.sublist (List.tail_sublist _)
  held := identified.held.subperm ((List.tail_sublist _).append_right _).subperm
  functions := identified.functions
  patterns := identified.patterns

/-- The scope that is closed may be kept. -/
theorem spares_close (identified : env.Identified) : env.close.Spares env.table.current? := by
  have whole : env.table.current?.toList ++ env.close.table.held = env.table.held := by
    change env.table.scopes.head?.toList ++ (env.table.scopes.tail ++ env.table.kept) =
      env.table.scopes ++ env.table.kept
    cases env.table.scopes <;> rfl
  rw [Spares, whole]
  exact identified.held

/-! ## Binding variables -/

theorem retype (identified : env.Identified) (location : Location) (type : Ty) :
    (env.retype location type).Identified where
  ascending := identified.ascending
  held := identified.held.remembers (env.store.remembers_retype location type)
  functions := identified.functions
  patterns := identified.patterns

theorem extend (identified : env.Identified) {name : String}
    (accepted : env.refusal? name = none) (type : Ty) : (env.extend name type).Identified := by
  obtain ⟨ascending, held, functions, patterns⟩ := identified
  rw [SymbolTable.held] at held
  unfold Environment.extend
  rw [refusal?] at accepted
  cases open_ : env.table.scopes with
  | nil => simp [open_] at accepted
  | cons scope outer =>
    have free : scope.binds name = false := by
      cases bound : scope.binds name with
      | false => rfl
      | true => simp [open_, bound] at accepted
    rw [open_] at ascending held
    exact ⟨List.pairwise_cons.mpr (List.pairwise_cons.mp ascending), held.bind free type,
      functions, patterns⟩

theorem declared (identified : env.Identified) (name : String) (type : Ty) :
    (env.declared name type).Identified := by
  unfold Environment.declared
  split
  · exact identified
  · next accepted => exact identified.extend accepted type

theorem assigned (identified : env.Identified) (name : String) (type : Ty) :
    (env.assigned name type).Identified := by
  unfold Environment.assigned
  split
  · exact identified.retype _ type
  · exact identified.declared name type

theorem rebind (identified : env.Identified) (name : String) (type : Ty) :
    (env.rebind name type).Identified := by
  unfold Environment.rebind
  split
  · next accepted => exact identified.extend accepted type
  · split
    · exact identified.retype _ type
    · exact identified

/-! ## Keeping scopes -/

theorem recordFunction (identified : env.Identified) {scope : Option Scope}
    (spare : env.Spares scope) (name : String) (types : List Ty) (returns : Ty) :
    ({ env with table := env.table.updateFunction name (·.record types returns scope) } :
      Environment).Identified where
  ascending := identified.ascending
  held := spare.subperm
    (SymbolTable.held_recordFunction scope identified.functions name types returns)
  functions := SymbolTable.nodup_change _ identified.functions name _ fun _ => rfl
  patterns := identified.patterns

theorem recordPattern (identified : env.Identified) {scope : Option Scope}
    (spare : env.Spares scope) (name : String) (type value : Ty) :
    ({ env with table := env.table.updatePattern name (·.record type value scope) } :
      Environment).Identified where
  ascending := identified.ascending
  held := spare.subperm (SymbolTable.held_recordPattern scope identified.patterns name type value)
  functions := identified.functions
  patterns := SymbolTable.nodup_change _ identified.patterns name _ fun _ => rfl

theorem recordMain (identified : env.Identified) {scope : Option Scope} (spare : env.Spares scope) :
    ({ env with table.mainScope := scope } : Environment).Identified where
  ascending := identified.ascending
  held := spare.subperm (SymbolTable.held_recordMain scope)
  functions := identified.functions
  patterns := identified.patterns

end Identified

/-- One change of an environment, if any.  A scope is only kept if it is not held already. -/
inductive Effect (env : Environment) : Environment → Prop where
  | nothing : Effect env env
  | opened (kind : ScopeKind) : Effect env (env.opened kind)
  | close : Effect env env.close
  | declared (name : String) (type : Ty) : Effect env (env.declared name type)
  | assigned (name : String) (type : Ty) : Effect env (env.assigned name type)
  | rebind (name : String) (type : Ty) : Effect env (env.rebind name type)
  | recordFunction {scope : Option Scope} (spare : env.Spares scope) (name : String)
      (types : List Ty) (returns : Ty) :
      Effect env { env with table := env.table.updateFunction name (·.record types returns scope) }
  | recordPattern {scope : Option Scope} (spare : env.Spares scope) (name : String)
      (type value : Ty) :
      Effect env { env with table := env.table.updatePattern name (·.record type value scope) }
  | recordMain {scope : Option Scope} (spare : env.Spares scope) :
      Effect env { env with table.mainScope := scope }

theorem Identified.after {env later : Environment} (identified : env.Identified)
    (effect : env.Effect later) : later.Identified := by
  cases effect with
  | nothing => exact identified
  | opened kind => exact identified.opened kind
  | close => exact identified.close
  | declared name type => exact identified.declared name type
  | assigned name type => exact identified.assigned name type
  | rebind name type => exact identified.rebind name type
  | recordFunction spare name types returns =>
    exact identified.recordFunction spare name types returns
  | recordPattern spare name type value => exact identified.recordPattern spare name type value
  | recordMain spare => exact identified.recordMain spare

end Environment

end CallSite
