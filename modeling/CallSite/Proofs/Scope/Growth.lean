import CallSite.Proofs.Scope.Frames

/-!
# Growth of an environment

Whatever is checked between two moments with the same open scopes, the environment only grows: the
innermost scope may have gained variables, and the variables that a name stands for may have other
types.  Other scopes and other variables are as they were.  This holds of every environment.  Where
visible variables have locations of their own, each operation is also described by the frames that
it leads to.
-/

namespace CallSite

namespace Scope

theorem visible_cons (scope : Scope) (outer : List Scope) :
    visible (scope :: outer) =
      scope :: match scope.kind with
        | .body => []
        | .branch => visible outer := by
  rw [visible]
  cases scope.kind <;> rfl

/-- The scopes that no name is looked up in. -/
def hidden : List Scope → List Scope
  | [] => []
  | scope :: outer =>
    match scope.kind with
    | .body => outer
    | .branch => hidden outer

theorem visible_append_hidden (scopes : List Scope) : visible scopes ++ hidden scopes = scopes := by
  induction scopes with
  | nil => rfl
  | cons scope outer ih => cases kind : scope.kind <;> simp [visible, hidden, kind, ih]

/-- Only the innermost scope has gained variables, at locations from `size` on. -/
inductive Extends (size : Nat) : List Scope → List Scope → Prop where
  | nil : Extends size [] []
  | cons (scope : Scope) (outer : List Scope) (added : List (String × Location))
      (fresh : ∀ binding ∈ added, size ≤ binding.2) :
      Extends size (scope :: outer)
        ({ scope with bindings := scope.bindings ++ added } :: outer)

namespace Extends

theorem refl (size : Nat) (scopes : List Scope) : Extends size scopes scopes := by
  cases scopes with
  | nil => exact .nil
  | cons scope outer =>
    have same : Extends size (scope :: outer) _ := .cons scope outer [] (by simp)
    rwa [List.append_nil] at same

theorem trans {size later : Nat} {first second third : List Scope} (grown : size ≤ later)
    (left : Extends size first second) (right : Extends later second third) :
    Extends size first third := by
  cases left with
  | nil => cases right; exact .nil
  | cons scope outer added fresh =>
    cases right with
    | cons _ _ more moreFresh =>
      have allFresh : ∀ binding ∈ added ++ more, size ≤ binding.2 := by
        intro binding member
        rcases List.mem_append.mp member with early | late
        · exact fresh binding early
        · exact Nat.le_trans grown (moreFresh binding late)
      have whole := Extends.cons scope outer (added ++ more) allFresh
      rwa [← List.append_assoc] at whole

theorem mem_visible {size : Nat} {before after : List Scope} (extends_ : Extends size before after)
    {location : Location} (member : location ∈ (visible after).flatMap locations) :
    location ∈ (visible before).flatMap locations ∨ size ≤ location := by
  cases extends_ with
  | nil => exact .inl member
  | cons scope outer added fresh =>
    rw [visible_cons, List.flatMap_cons] at member ⊢
    rcases List.mem_append.mp member with here | further
    · obtain ⟨binding, bound, rfl⟩ := List.mem_map.mp here
      rcases List.mem_append.mp bound with old | new
      · exact .inl (List.mem_append_left _ (List.mem_map.mpr ⟨binding, old, rfl⟩))
      · exact .inr (fresh binding new)
    · exact .inl (List.mem_append_right _ further)

/-- What is found at an older location was found there before. -/
theorem findSome?_visible {size : Nat} {before after : List Scope}
    (extends_ : Extends size before after) {name : String} {location : Location}
    (old : location < size)
    (found : (visible after).findSome? (·.location? name) = some location) :
    (visible before).findSome? (·.location? name) = some location := by
  cases extends_ with
  | nil => exact found
  | cons scope outer added fresh =>
    have bound : ({ scope with bindings := scope.bindings ++ added } : Scope).location? name =
        (scope.location? name).or (added.lookup name) := List.lookup_append
    rw [visible_cons, List.findSome?_cons] at found ⊢
    rw [bound] at found
    cases here : scope.location? name with
    | some place => simpa [here] using found
    | none =>
      cases gained : added.lookup name with
      | none => simpa [here, gained] using found
      | some place =>
        obtain ⟨_, _, split, _⟩ := List.lookup_eq_some_iff.mp gained
        have recent := fresh (name, place) (split ▸ List.mem_append_right _ List.mem_cons_self)
        have same : place = location := by simpa [here, gained] using found
        exact absurd (same ▸ recent) (Nat.not_le.mpr old)

end Extends

/-- The closed scope of a body holds the given variables. -/
structure Holds (scope : Scope) (store : Store) (content : Frame) : Prop where
  kind : scope.kind = .body
  frame : scope.frame store = content
  within : ∀ location ∈ scope.locations, location < store.size

end Scope

theorem SymbolTable.locate?_congr {table other : SymbolTable} (same : table.scopes = other.scopes)
    (name : String) : table.locate? name = other.locate? name := by
  rw [locate?, locate?, same]

namespace Environment

def frames (env : Environment) : Frames :=
  Scope.frames env.store (Scope.visible env.table.scopes)

/-- The locations of the variables that may be seen. -/
def visibleLocations (env : Environment) : List Location :=
  (Scope.visible env.table.scopes).flatMap Scope.locations

/-- Some name stands for the variable at that location. -/
def Exposes (env : Environment) (location : Location) : Prop :=
  ∃ name, env.table.locate? name = some location

theorem Exposes.mem_visibleLocations {env : Environment} {location : Location}
    (exposed : env.Exposes location) : location ∈ env.visibleLocations := by
  obtain ⟨_, found⟩ := exposed
  exact Scope.mem_flatMap_of_findSome? found

/-- Every variable that may be seen has a location of its own. -/
def Sound (env : Environment) : Prop :=
  Scope.Placed env.store (Scope.visible env.table.scopes)

/-- The innermost scope may have gained variables, and variables that a name stands for may have
other types. -/
structure Grows (before after : Environment) : Prop where
  size_le : before.store.size ≤ after.store.size
  scopes : Scope.Extends before.store.size before.table.scopes after.table.scopes
  cells : ∀ location < before.store.size, ¬ before.Exposes location →
    after.store.get? location = before.store.get? location

namespace Grows

theorem refl (env : Environment) : env.Grows env :=
  ⟨Nat.le_refl _, .refl _ _, fun _ _ _ => rfl⟩

theorem of_eq {before after : Environment} (scopes : after.table.scopes = before.table.scopes)
    (store : after.store = before.store) : before.Grows after where
  size_le := Nat.le_of_eq (congrArg Store.size store.symm)
  scopes := scopes ▸ .refl _ _
  cells location _ _ := congrArg (·.get? location) store

theorem trans {first second third : Environment} (left : first.Grows second)
    (right : second.Grows third) : first.Grows third where
  size_le := Nat.le_trans left.size_le right.size_le
  scopes := left.scopes.trans left.size_le right.scopes
  cells location within unseen := by
    have stillUnseen : ¬ second.Exposes location := by
      rintro ⟨name, found⟩
      exact unseen ⟨name, left.scopes.findSome?_visible within found⟩
    rw [right.cells location (Nat.lt_of_lt_of_le within left.size_le) stillUnseen,
      left.cells location within unseen]

end Grows

/-! ## Every operation lets an environment grow -/

theorem grows_retype {env : Environment} {name : String} {location : Location}
    (found : env.table.locate? name = some location) (type : Ty) :
    env.Grows (env.retype location type) where
  size_le := Nat.le_of_eq (env.store.size_retype location type).symm
  scopes := .refl _ _
  cells other _ unseen := by
    have differs : other ≠ location := by
      rintro rfl
      exact unseen ⟨name, found⟩
    rw [retype, Store.get?_retype, if_neg differs]

theorem grows_extend (env : Environment) (name : String) (type : Ty) :
    env.Grows (env.extend name type) := by
  unfold extend
  cases open_ : env.table.scopes with
  | nil => exact .refl env
  | cons scope outer =>
    refine ⟨?_, ?_, fun location placed _ => ?_⟩
    · rw [Store.size_add]
      exact Nat.le_succ _
    · rw [open_]
      exact .cons scope outer [(name, env.store.size)] (by simp)
    · rw [Store.get?_add, if_neg (Nat.ne_of_lt placed)]

theorem grows_declared (env : Environment) (name : String) (type : Ty) :
    env.Grows (env.declared name type) := by
  unfold declared
  split
  · exact .refl env
  · exact env.grows_extend name type

theorem grows_assigned (env : Environment) (name : String) (type : Ty) :
    env.Grows (env.assigned name type) := by
  unfold assigned
  split
  · next found => exact grows_retype found type
  · exact env.grows_declared name type

theorem grows_rebind (env : Environment) (name : String) (type : Ty) :
    env.Grows (env.rebind name type) := by
  unfold rebind
  split
  · exact env.grows_extend name type
  · split
    · next found => exact grows_retype found type
    · exact .refl env

/-- The environment has grown into one that is sound and has the given frames. -/
structure Becomes (before after : Environment) (frames : Frames) : Prop where
  frames_eq : after.frames = frames
  sound : after.Sound
  grows : before.Grows after

theorem Becomes.refl {env : Environment} (sound : env.Sound) : env.Becomes env env.frames :=
  ⟨rfl, sound, .refl env⟩

theorem Becomes.trans {first second third : Environment} {frames later : Frames}
    (left : first.Becomes second frames) (right : second.Becomes third later) :
    first.Becomes third later :=
  ⟨right.frames_eq, right.sound, left.grows.trans right.grows⟩

theorem typeOf?_getD (env : Environment) (name : String) :
    (env.typeOf? name).getD .unresolved = (env.frames.typeOf? name).getD .unresolved := by
  rw [typeOf?, lookup?, frames, Scope.typeOf?_frames, ← SymbolTable.locate?]
  cases env.table.locate? name with
  | none => rfl
  | some location =>
    rw [Option.bind_some, Option.map_some, Option.getD_some, Store.typeAt?]

theorem isSome_typeOf?_frames (env : Environment) (name : String) :
    (env.frames.typeOf? name).isSome = (env.table.locate? name).isSome := by
  rw [frames, Scope.typeOf?_frames, Option.isSome_map, SymbolTable.locate?]

/-! ## Writing and declaring -/

theorem retype_becomes {env : Environment} (sound : env.Sound) {name : String}
    {location : Location} (found : env.table.locate? name = some location) (type : Ty) :
    env.Becomes (env.retype location type) (env.frames.retype name type) where
  frames_eq := Scope.frames_retype sound found type
  sound := by
    refine ⟨sound.distinct, fun other member => ?_⟩
    rw [retype, Store.size_retype]
    exact sound.within other member
  grows := grows_retype found type

theorem frames_cons (store : Store) (scope : Scope) (outer : List Scope) :
    Scope.frames store (Scope.visible (scope :: outer)) =
      scope.frame store :: Scope.frames store (match scope.kind with
        | .body => []
        | .branch => Scope.visible outer) := by
  rw [Scope.visible_cons, Scope.frames, List.map_cons, Scope.frames]

theorem extend_becomes {env : Environment} (sound : env.Sound) (name : String) (type : Ty) :
    env.Becomes (env.extend name type) (env.frames.extend name type) := by
  have grows := env.grows_extend name type
  unfold extend at grows ⊢
  cases open_ : env.table.scopes with
  | nil =>
    have none_ : env.frames = [] := by rw [frames, open_]; rfl
    refine ⟨?_, sound, .refl env⟩
    rw [none_]
    rfl
  | cons scope outer =>
    have within := sound.within
    have distinct := sound.distinct
    rw [open_, Scope.visible_cons] at within distinct
    have unchanged : ∀ location < env.store.size,
        (env.store.add ⟨name, type, scope.id⟩).get? location = env.store.get? location := by
      intro location placed
      rw [Store.get?_add, if_neg (Nat.ne_of_lt placed)]
    rw [open_] at grows
    refine ⟨?_, ⟨?_, ?_⟩, grows⟩
    · rw [frames, frames, open_, frames_cons, frames_cons, Frames.extend]
      congr 1
      · have here : ∀ location ∈ scope.locations, location < env.store.size :=
          fun location member => within location (List.mem_append_left _ member)
        rw [← Scope.frame_congr fun location member => unchanged location (here location member)]
        simp [Scope.frame, Scope.bind, Store.typeAt?, Store.get?_add]
      · refine Scope.frames_congr fun location member => unchanged location ?_
        exact within location (List.mem_append_right _ member)
    · rw [Scope.visible_cons, List.flatMap_cons, Scope.locations_bind, List.append_assoc,
        List.singleton_append]
      refine List.nodup_middle.mpr (List.nodup_cons.mpr ⟨?_, distinct⟩)
      intro member
      exact Nat.lt_irrefl _ (within _ member)
    · intro location member
      rw [Scope.visible_cons, List.flatMap_cons, Scope.locations_bind, List.append_assoc,
        List.singleton_append] at member
      rw [Store.size_add]
      rcases List.mem_append.mp member with here | further
      · exact Nat.lt_succ_of_lt (within location (List.mem_append_left _ here))
      rcases List.mem_cons.mp further with rfl | outside
      · exact Nat.lt_succ_self _
      · exact Nat.lt_succ_of_lt (within location (List.mem_append_right _ outside))

theorem innermostBinds_frames (env : Environment) (name : String) :
    env.frames.innermostBinds name =
      match env.table.scopes with
      | [] => false
      | scope :: _ => scope.binds name := by
  rw [frames]
  cases env.table.scopes with
  | nil => rfl
  | cons scope outer => rw [frames_cons, Frames.innermostBinds, Scope.binds_frame]

theorem declared_becomes {env : Environment} (sound : env.Sound) (name : String) (type : Ty) :
    env.Becomes (env.declared name type) (env.frames.declare name type) := by
  have extended := extend_becomes sound name type
  unfold declared refusal? Frames.declare
  rw [innermostBinds_frames]
  unfold extend at extended ⊢
  cases open_ : env.table.scopes with
  | nil => simpa [open_] using extended
  | cons scope outer =>
    cases bound : scope.binds name with
    | true => simpa [bound] using Becomes.refl sound
    | false => simpa [open_, bound] using extended

theorem declared_of_not_located {env : Environment} {name : String}
    (missing : env.table.locate? name = none) (type : Ty) :
    env.declared name type = env.extend name type := by
  unfold declared refusal? extend
  cases open_ : env.table.scopes with
  | nil => rfl
  | cons scope outer =>
    rw [SymbolTable.locate?, open_, Scope.visible_cons, List.findSome?_cons] at missing
    cases here : scope.location? name with
    | none => simp [Scope.binds, here]
    | some location => simp [here] at missing

theorem scopes_assigned_of_isSome {env : Environment} {name : String}
    (found : (env.table.locate? name).isSome) (type : Ty) :
    (env.assigned name type).table.scopes = env.table.scopes := by
  unfold assigned
  split
  · rfl
  · next missing =>
    rw [missing] at found
    cases found

/-- Assigning leaves the open scopes as they are, or binds a name that was not visible in the
innermost one. -/
theorem scopes_assigned (env : Environment) (name : String) (type : Ty) :
    (env.assigned name type).table.scopes = env.table.scopes ∨
      ∃ scope outer, env.table.locate? name = none ∧ env.table.scopes = scope :: outer ∧
        (env.assigned name type).table.scopes = scope.bind name env.store.size :: outer := by
  cases found : env.table.locate? name with
  | some location => exact .inl (scopes_assigned_of_isSome (by rw [found]; rfl) type)
  | none =>
    rw [assigned, found, declared_of_not_located found, extend]
    cases open_ : env.table.scopes with
    | nil => exact .inl open_
    | cons scope outer => exact .inr ⟨scope, outer, rfl, rfl, rfl⟩

theorem assigned_becomes {env : Environment} (sound : env.Sound) (name : String) (type : Ty) :
    env.Becomes (env.assigned name type) (env.frames.assign name type) := by
  unfold assigned Frames.assign
  rw [isSome_typeOf?_frames]
  cases found : env.table.locate? name with
  | none =>
    simp only [Option.isSome_none, Bool.false_eq_true, ↓reduceIte]
    rw [declared_of_not_located found]
    exact extend_becomes sound name type
  | some location => exact retype_becomes sound found type

theorem rebind_becomes {env : Environment} (sound : env.Sound) (name : String) (type : Ty) :
    env.Becomes (env.rebind name type) (env.frames.rebind name type) := by
  have extended := extend_becomes sound name type
  unfold rebind refusal? Frames.rebind
  rw [innermostBinds_frames]
  cases open_ : env.table.scopes with
  | nil =>
    have missing : env.table.locate? name = none := by rw [SymbolTable.locate?, open_]; rfl
    have unchanged : env.extend name type = env := by rw [extend, open_]
    rw [unchanged] at extended
    simpa [missing] using extended
  | cons scope outer =>
    cases here : scope.location? name with
    | none => simpa [Scope.binds, here] using extended
    | some location =>
      have found : env.table.locate? name = some location := by
        rw [SymbolTable.locate?, open_, Scope.visible_cons, List.findSome?_cons, here]
      simpa [Scope.binds, here, found] using retype_becomes sound found type

/-! ## Opening and closing -/

def opened (env : Environment) (kind : ScopeKind) : Environment :=
  { env with table := env.table.openScope kind }

theorem sound_opened_body (env : Environment) : (env.opened .body).Sound :=
  ⟨List.nodup_nil, fun _ member => absurd member List.not_mem_nil⟩

theorem frames_opened_body (env : Environment) : (env.opened .body).frames = [[]] := rfl

theorem sound_opened_branch {env : Environment} (sound : env.Sound) :
    (env.opened .branch).Sound :=
  ⟨sound.distinct, sound.within⟩

/-- What was opened is still the innermost scope, above the scopes that were open before. -/
theorem Grows.scopes_opened {env inner : Environment} {kind : ScopeKind}
    (grows : (env.opened kind).Grows inner) :
    ∃ added : List (String × Location),
      inner.table.scopes = ⟨env.table.nextScopeId, kind, added⟩ :: env.table.scopes ∧
        ∀ binding ∈ added, env.store.size ≤ binding.2 := by
  have extends_ := grows.scopes
  rw [opened, SymbolTable.openScope] at extends_
  generalize inner.table.scopes = scopes at extends_ ⊢
  cases extends_ with
  | cons _ _ added fresh => exact ⟨added, rfl, fresh⟩

theorem scopes_close (env : Environment) : env.close.table.scopes = env.table.scopes.tail := rfl

/-- Closing what was opened leads back to the scopes from before. -/
theorem Grows.scopes_closed {env inner : Environment} {kind : ScopeKind}
    (grows : (env.opened kind).Grows inner) : inner.close.table.scopes = env.table.scopes := by
  obtain ⟨added, scopes, _⟩ := grows.scopes_opened
  rw [scopes_close, scopes]
  rfl

/-- What is seen from inside a scope that was just opened is seen around it. -/
theorem Exposes.of_opened {env : Environment} {kind : ScopeKind} {location : Location}
    (exposed : (env.opened kind).Exposes location) : env.Exposes location := by
  obtain ⟨name, found⟩ := exposed
  rw [opened, SymbolTable.locate?, SymbolTable.openScope, Scope.visible_cons] at found
  cases kind with
  | body => cases found
  | branch => exact ⟨name, found⟩

/-- A scope that is closed again leaves behind an environment that has grown. -/
theorem Grows.close {env inner : Environment} {kind : ScopeKind}
    (grows : (env.opened kind).Grows inner) : env.Grows inner.close where
  size_le := grows.size_le
  scopes := grows.scopes_closed ▸ .refl _ _
  cells location within unseen :=
    grows.cells location within fun exposed => unseen exposed.of_opened

/-- Whatever is visible around a branch is visible in it. -/
theorem Grows.visible_close {env inner : Environment} (grows : (env.opened .branch).Grows inner)
    {location : Location} (member : location ∈ inner.close.visibleLocations) :
    location ∈ inner.visibleLocations := by
  obtain ⟨added, scopes, _⟩ := grows.scopes_opened
  rw [visibleLocations, scopes_close, scopes] at member
  rw [visibleLocations, scopes, Scope.visible_cons, List.flatMap_cons]
  exact List.mem_append_right _ member

/-- A branch leaves behind what it did to the frames around it. -/
theorem Becomes.close_branch {env inner : Environment} {frames : Frames}
    (becomes : (env.opened .branch).Becomes inner frames) :
    env.Becomes inner.close frames.tail := by
  obtain ⟨added, scopes, _⟩ := becomes.grows.scopes_opened
  have sound := becomes.sound
  rw [Sound, scopes, Scope.visible_cons] at sound
  have closed := becomes.grows.scopes_closed
  refine ⟨?_, ⟨?_, ?_⟩, becomes.grows.close⟩
  · rw [← becomes.frames_eq, Environment.frames, Environment.frames, closed, scopes, frames_cons]
    rfl
  · rw [closed]
    exact (List.nodup_append.mp sound.distinct).2.1
  · rw [closed]
    intro location member
    exact sound.within location (List.mem_append_right _ member)

/-- The open scopes and the variables that there were are as before. -/
structure Untouched (before after : Environment) : Prop where
  scopes : after.table.scopes = before.table.scopes
  size_le : before.store.size ≤ after.store.size
  cells : ∀ location < before.store.size,
    after.store.get? location = before.store.get? location

theorem Untouched.refl (env : Environment) : env.Untouched env :=
  ⟨rfl, Nat.le_refl _, fun _ _ => rfl⟩

theorem Untouched.trans {first second third : Environment} (left : first.Untouched second)
    (right : second.Untouched third) : first.Untouched third where
  scopes := right.scopes.trans left.scopes
  size_le := Nat.le_trans left.size_le right.size_le
  cells location within :=
    (right.cells location (Nat.lt_of_lt_of_le within left.size_le)).trans
      (left.cells location within)

/-- A variable that is visible keeps its type. -/
theorem Untouched.typeOf? {before after : Environment} (untouched : before.Untouched after)
    {name : String} {type : Ty} (found : before.typeOf? name = some type) :
    after.typeOf? name = some type := by
  have located := SymbolTable.locate?_congr untouched.scopes name
  rw [Environment.typeOf?, lookup?] at found ⊢
  rw [located]
  cases place : before.table.locate? name with
  | none =>
    rw [place] at found
    cases found
  | some location =>
    rw [place, Option.bind_some] at found
    obtain ⟨declared, there, _⟩ := Option.map_eq_some_iff.mp found
    have within : location < before.store.size := by
      by_contra beyond
      have missing : before.store.get? location = none :=
        Array.getElem?_eq_none (Nat.le_of_not_lt beyond)
      rw [missing] at there
      cases there
    rw [Option.bind_some, untouched.cells location within]
    exact found

/-- A body leaves behind everything around it as it was. -/
theorem Grows.close_body {env inner : Environment} (grows : (env.opened .body).Grows inner) :
    env.Untouched inner.close := by
  refine ⟨grows.scopes_closed, grows.size_le, fun location within => ?_⟩
  refine grows.cells location within ?_
  rintro ⟨_, found⟩
  cases found

theorem Untouched.grows {env after : Environment} (untouched : env.Untouched after) :
    env.Grows after where
  size_le := untouched.size_le
  scopes := untouched.scopes ▸ .refl _ _
  cells location within _ := untouched.cells location within

theorem Untouched.becomes {env after : Environment} (untouched : env.Untouched after)
    (sound : env.Sound) : env.Becomes after env.frames := by
  refine ⟨?_, ⟨?_, ?_⟩, untouched.grows⟩
  · rw [frames, frames, untouched.scopes]
    exact Scope.frames_congr fun location member =>
      untouched.cells location (sound.within location member)
  · rw [untouched.scopes]
    exact sound.distinct
  · rw [untouched.scopes]
    intro location member
    exact Nat.lt_of_lt_of_le (sound.within location member) untouched.size_le

/-! ## Scopes that are kept -/

/-- No variable of the closed scope may be seen in the open ones. -/
def Detached (env : Environment) (scope : Scope) : Prop :=
  ∀ location ∈ scope.locations, location ∉ env.visibleLocations

theorem Grows.holds {before after : Environment} (grows : before.Grows after) {scope : Scope}
    {content : Frame} (holds : scope.Holds before.store content)
    (detached : before.Detached scope) : scope.Holds after.store content where
  kind := holds.kind
  frame := by
    rw [← holds.frame]
    exact Scope.frame_congr fun location member =>
      grows.cells location (holds.within location member) fun exposed =>
        detached location member exposed.mem_visibleLocations
  within location member := Nat.lt_of_lt_of_le (holds.within location member) grows.size_le

theorem Grows.detached {before after : Environment} (grows : before.Grows after) {scope : Scope}
    (within : ∀ location ∈ scope.locations, location < before.store.size)
    (detached : before.Detached scope) : after.Detached scope := by
  intro location member visible
  rcases grows.scopes.mem_visible visible with old | fresh
  · exact detached location member old
  · exact Nat.lt_irrefl _ (Nat.lt_of_lt_of_le (within location member) fresh)

/-- What a sound environment sees was there before a fresh location was. -/
theorem Untouched.detached {env after : Environment} (untouched : env.Untouched after)
    (sound : env.Sound) {scope : Scope}
    (fresh : ∀ location ∈ scope.locations, env.store.size ≤ location) :
    after.Detached scope := by
  intro location member visible
  rw [visibleLocations, untouched.scopes] at visible
  exact Nat.lt_irrefl _
    (Nat.lt_of_lt_of_le (sound.within location visible) (fresh location member))

/-- The innermost scope of a body that was opened holds the innermost frame. -/
theorem Becomes.holds_body {env inner : Environment} {frames : Frames}
    (becomes : (env.opened .body).Becomes inner frames) :
    ∃ scope content, inner.table.current? = some scope ∧ frames = [content] ∧
      scope.Holds inner.store content ∧
      ∀ location ∈ scope.locations, env.store.size ≤ location := by
  obtain ⟨added, scopes, fresh⟩ := becomes.grows.scopes_opened
  have sound := becomes.sound
  rw [Sound, scopes, Scope.visible_cons] at sound
  refine ⟨⟨env.table.nextScopeId, .body, added⟩, _, ?_, ?_, ⟨rfl, rfl, ?_⟩, ?_⟩
  · rw [SymbolTable.current?, scopes]
    rfl
  · rw [← becomes.frames_eq, Environment.frames, scopes, frames_cons]
    rfl
  · intro location member
    exact sound.within location (List.mem_append_left _ member)
  · intro location member
    obtain ⟨binding, bound, rfl⟩ := List.mem_map.mp member
    exact fresh binding bound

end Environment

end CallSite
