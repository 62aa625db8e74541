import CallSite.SymbolTable.Environment
import Mathlib.Data.List.Nodup

/-!
# Frames

A frame is what can be read off a scope: its names with their types, in the order of declaration.
The frames of an environment are those of the scopes that a name is looked up in.  As long as the
variables of these scopes have locations of their own, each operation on the environment is an
operation on its frames.
-/

namespace CallSite

abbrev Frame := List (String × Ty)

namespace Frame

def binds (frame : Frame) (name : String) : Bool := (frame.lookup name).isSome

theorem binds_eq (frame : Frame) (name : String) :
    frame.binds name = (frame.map (·.1)).contains name := by
  rw [Bool.eq_iff_iff, List.contains_iff_mem, binds, List.lookup_isSome_iff]
  simp

/-- Give the first variable of that name another type. -/
def retype (name : String) (type : Ty) : Frame → Frame
  | [] => []
  | (other, old) :: rest =>
    if other = name then (other, type) :: rest else (other, old) :: retype name type rest

@[simp]
theorem map_fst_retype (name : String) (type : Ty) (frame : Frame) :
    (retype name type frame).map (·.1) = frame.map (·.1) := by
  induction frame with
  | nil => rfl
  | cons head rest ih =>
    obtain ⟨other, old⟩ := head
    by_cases same : other = name <;> simp [retype, same, ih]

theorem retype_append {before after : Frame} {name : String}
    (absent : ∀ entry ∈ before, entry.1 ≠ name) (old type : Ty) :
    retype name type (before ++ (name, old) :: after) = before ++ (name, type) :: after := by
  induction before with
  | nil => simp [retype]
  | cons head rest ih =>
    have differs := absent head List.mem_cons_self
    have inner := ih fun entry member => absent entry (List.mem_cons_of_mem head member)
    simp [retype, differs, inner]

end Frame

/-- The innermost frame comes first. -/
abbrev Frames := List Frame

namespace Frames

def typeOf? (frames : Frames) (name : String) : Option Ty :=
  frames.findSome? (·.lookup name)

/-- The innermost frame has a variable of that name. -/
def innermostBinds : Frames → String → Bool
  | [], _ => false
  | frame :: _, name => frame.binds name

/-- Give the visible variable of that name another type. -/
def retype (name : String) (type : Ty) : Frames → Frames
  | [] => []
  | frame :: outer =>
    if frame.binds name then frame.retype name type :: outer
    else frame :: retype name type outer

/-- Add a variable to the innermost frame. -/
def extend (name : String) (type : Ty) : Frames → Frames
  | [] => []
  | frame :: outer => (frame ++ [(name, type)]) :: outer

def declare (frames : Frames) (name : String) (type : Ty) : Frames :=
  if frames.innermostBinds name then frames else frames.extend name type

def assign (frames : Frames) (name : String) (type : Ty) : Frames :=
  if (frames.typeOf? name).isSome then frames.retype name type else frames.extend name type

def rebind (frames : Frames) (name : String) (type : Ty) : Frames :=
  if frames.innermostBinds name then frames.retype name type else frames.extend name type

/-- The names in each frame. -/
def names (frames : Frames) : List (List String) := frames.map (·.map (·.1))

/-- Add names to the innermost of several lists. -/
def addNames (added : List String) : List (List String) → List (List String)
  | [] => []
  | innermost :: outer => (innermost ++ added) :: outer

@[simp]
theorem addNames_nil (lists : List (List String)) : addNames [] lists = lists := by
  cases lists <;> simp [addNames]

theorem addNames_addNames (first second : List String) (lists : List (List String)) :
    addNames second (addNames first lists) = addNames (first ++ second) lists := by
  cases lists <;> simp [addNames]

@[simp]
theorem names_retype (name : String) (type : Ty) (frames : Frames) :
    (retype name type frames).names = frames.names := by
  induction frames with
  | nil => rfl
  | cons frame outer ih =>
    unfold names at ih ⊢
    by_cases bound : frame.binds name <;> simp [retype, bound, ih]

theorem names_extend (name : String) (type : Ty) (frames : Frames) :
    (extend name type frames).names = addNames [name] frames.names := by
  cases frames <;> simp [names, extend, addNames]

/-- Whether a name is visible depends on names only. -/
theorem isSome_typeOf? (frames : Frames) (name : String) :
    (frames.typeOf? name).isSome = frames.names.any (·.contains name) := by
  induction frames with
  | nil => rfl
  | cons frame outer ih =>
    unfold typeOf? names at ih ⊢
    rw [List.findSome?_cons, List.map_cons, List.any_cons, ← frame.binds_eq, ← ih, Frame.binds]
    cases frame.lookup name <;> rfl

end Frames

namespace Store

theorem typeAt?_retype (store : Store) (location other : Location) (type : Ty) :
    (store.retype location type).typeAt? other =
      if other = location then (store.typeAt? other).map fun _ => type
      else store.typeAt? other := by
  rw [typeAt?, get?_retype]
  by_cases same : other = location
  · rw [if_pos same, if_pos same, typeAt?, Option.map_map, Option.map_map]
    rfl
  · rw [if_neg same, if_neg same, typeAt?]

theorem get?_isSome (store : Store) {location : Location} (placed : location < store.size) :
    (store.get? location).isSome := by
  simpa [get?, size] using placed

end Store

namespace Scope

def locations (scope : Scope) : List Location := scope.bindings.map (·.2)

/-- The names of a scope with the types that the store has for them. -/
def frame (store : Store) (scope : Scope) : Frame :=
  scope.bindings.map fun binding => (binding.1, (store.typeAt? binding.2).getD .unresolved)

@[simp]
theorem map_fst_frame (store : Store) (scope : Scope) :
    (scope.frame store).map (·.1) = scope.names := by
  simp [frame, names]

theorem lookup_frame (store : Store) (scope : Scope) (name : String) :
    (scope.frame store).lookup name =
      (scope.location? name).map fun location => (store.typeAt? location).getD .unresolved := by
  unfold frame location?
  induction scope.bindings with
  | nil => rfl
  | cons binding rest ih =>
    obtain ⟨other, location⟩ := binding
    by_cases same : name = other
    · simp [same]
    · have differs : (name == other) = false := by simp [same]
      simpa [List.lookup_cons, differs] using ih

@[simp]
theorem binds_frame (store : Store) (scope : Scope) (name : String) :
    (scope.frame store).binds name = scope.binds name := by
  rw [Frame.binds, lookup_frame, Option.isSome_map, binds]

theorem mem_locations_of_location? {scope : Scope} {name : String} {location : Location}
    (found : scope.location? name = some location) : location ∈ scope.locations := by
  obtain ⟨before, after, split, _⟩ := List.lookup_eq_some_iff.mp found
  refine List.mem_map.mpr ⟨(name, location), ?_, rfl⟩
  rw [split]
  exact List.mem_append_right _ List.mem_cons_self

theorem locations_bind (scope : Scope) (name : String) (location : Location) :
    (scope.bind name location).locations = scope.locations ++ [location] :=
  List.map_append

theorem frame_congr {store other : Store} {scope : Scope}
    (same : ∀ location ∈ scope.locations, other.get? location = store.get? location) :
    scope.frame other = scope.frame store := by
  refine List.map_congr_left fun binding member => ?_
  have unchanged := same binding.2 (List.mem_map.mpr ⟨binding, member, rfl⟩)
  rw [Store.typeAt?, unchanged, Store.typeAt?]

theorem frame_retype_of_not_mem (store : Store) (scope : Scope) {location : Location}
    (apart : location ∉ scope.locations) (type : Ty) :
    scope.frame (store.retype location type) = scope.frame store := by
  refine frame_congr fun other member => ?_
  have differs : other ≠ location := by
    rintro rfl
    exact apart member
  rw [Store.get?_retype, if_neg differs]

theorem frame_retype {store : Store} {scope : Scope} {name : String} {location : Location}
    (distinct : scope.locations.Nodup) (found : scope.location? name = some location)
    (placed : location < store.size) (type : Ty) :
    scope.frame (store.retype location type) = (scope.frame store).retype name type := by
  obtain ⟨before, after, split, absent⟩ := List.lookup_eq_some_iff.mp found
  rw [locations, split, List.map_append, List.map_cons] at distinct
  have apart := List.nodup_middle.mp distinct
  have unchanged : ∀ binding ∈ before ++ after,
      (store.retype location type).typeAt? binding.2 = store.typeAt? binding.2 := by
    intro binding member
    have differs : binding.2 ≠ location := by
      intro same
      refine (List.nodup_cons.mp apart).1 ?_
      rw [← same, ← List.map_append]
      exact List.mem_map.mpr ⟨binding, member, rfl⟩
    rw [Store.typeAt?_retype, if_neg differs]
  have written : ((store.retype location type).typeAt? location).getD .unresolved = type := by
    obtain ⟨declared, stored⟩ := Option.isSome_iff_exists.mp (store.get?_isSome placed)
    rw [Store.typeAt?_retype, if_pos rfl, Store.typeAt?, stored]
    rfl
  rw [frame, frame, split, List.map_append, List.map_append, List.map_cons, List.map_cons,
    Frame.retype_append, written]
  · congr 1
    · refine List.map_congr_left fun binding member => ?_
      rw [unchanged binding (List.mem_append_left _ member)]
    · congr 1
      refine List.map_congr_left fun binding member => ?_
      rw [unchanged binding (List.mem_append_right _ member)]
  · intro entry member
    obtain ⟨binding, earlier, rfl⟩ := List.mem_map.mp member
    have differs := absent binding earlier
    rw [bne_iff_ne] at differs
    exact differs.symm

/-- Every variable of the scopes has a location of its own. -/
structure Placed (store : Store) (scopes : List Scope) : Prop where
  distinct : (scopes.flatMap locations).Nodup
  within : ∀ location ∈ scopes.flatMap locations, location < store.size

def frames (store : Store) (scopes : List Scope) : Frames := scopes.map (frame store)

theorem mem_flatMap_of_findSome? {scopes : List Scope} {name : String} {location : Location}
    (found : scopes.findSome? (·.location? name) = some location) :
    location ∈ scopes.flatMap locations := by
  obtain ⟨scope, member, here⟩ := List.exists_of_findSome?_eq_some found
  exact List.mem_flatMap.mpr ⟨scope, member, mem_locations_of_location? here⟩

theorem typeOf?_frames (store : Store) (scopes : List Scope) (name : String) :
    (frames store scopes).typeOf? name = (scopes.findSome? (·.location? name)).map
      fun location => (store.typeAt? location).getD .unresolved := by
  induction scopes with
  | nil => rfl
  | cons scope outer ih =>
    simp only [frames, List.map_cons, Frames.typeOf?, List.findSome?_cons, lookup_frame]
    cases scope.location? name with
    | none => exact ih
    | some location => rfl

theorem frames_congr {store other : Store} {scopes : List Scope}
    (same : ∀ location ∈ scopes.flatMap locations, other.get? location = store.get? location) :
    frames other scopes = frames store scopes := by
  refine List.map_congr_left fun scope member => frame_congr fun location inside => ?_
  exact same location (List.mem_flatMap.mpr ⟨scope, member, inside⟩)

/-- Writing to the variable that a name is found at changes the visible one and nothing else. -/
theorem frames_retype {store : Store} {scopes : List Scope} (placed : Placed store scopes)
    {name : String} {location : Location}
    (found : scopes.findSome? (·.location? name) = some location) (type : Ty) :
    frames (store.retype location type) scopes = (frames store scopes).retype name type := by
  have within := placed.within location (mem_flatMap_of_findSome? found)
  have distinct := placed.distinct
  clear placed
  induction scopes with
  | nil => simp at found
  | cons scope outer ih =>
    rw [List.flatMap_cons, List.nodup_append] at distinct
    obtain ⟨inner, outerDistinct, apart⟩ := distinct
    rw [List.findSome?_cons] at found
    simp only [frames, List.map_cons, Frames.retype, binds_frame, binds]
    cases here : scope.location? name with
    | none =>
      simp only [here] at found
      have elsewhere : location ∉ scope.locations := fun member =>
        apart location member location (mem_flatMap_of_findSome? found) rfl
      simp only [Option.isSome_none, Bool.false_eq_true, ↓reduceIte]
      rw [frame_retype_of_not_mem store scope elsewhere]
      exact congrArg _ (ih found outerDistinct)
    | some first =>
      simp only [here, Option.some.injEq] at found
      subst found
      simp only [Option.isSome_some, ↓reduceIte]
      rw [frame_retype inner here within]
      congr 1
      refine frames_congr fun other member => ?_
      have differs : other ≠ first := fun same =>
        apart first (mem_locations_of_location? here) other member same.symm
      rw [Store.get?_retype, if_neg differs]

end Scope

end CallSite
