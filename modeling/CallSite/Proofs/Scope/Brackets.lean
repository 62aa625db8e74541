import CallSite.Proofs.Scope.OpenScopes

/-!
# Brackets

A bracket opens a scope, runs balanced steps and closes the scope again.  It leaves the open scopes
with the variables they had.  The bracket of a body also leaves all types.  The bracket of a branch
may have changed the types of variables that could be seen where it was opened, and each of them has
the type that was last assigned to it.
-/

namespace CallSite

/-- A step on the open scopes of an environment. -/
inductive ScopeStep where
  | opening (kind : ScopeKind)
  | closing
  | declaring (name : String) (type : Ty)
  | assigning (name : String) (type : Ty)
deriving DecidableEq, Repr

namespace ScopeStep

/-- How many of the scopes opened so far are open after the step, if it closes none of those from
before. -/
def levelAfter? (level : Nat) : ScopeStep → Option Nat
  | opening _ => some (level + 1)
  | closing => if level = 0 then none else some (level - 1)
  | declaring _ _ | assigning _ _ => some level

/-- The steps close the scopes that they open, and no other. -/
def Balanced (steps : List ScopeStep) : Prop := steps.foldlM levelAfter? 0 = some 0

instance (steps : List ScopeStep) : Decidable (Balanced steps) :=
  inferInstanceAs (Decidable (_ = _))

end ScopeStep

/-- The variable with the type written to it, if any was. -/
def Variable.retyped (declared : Variable) (written : Option Ty) : Variable :=
  { declared with type := written.getD declared.type }

theorem Variable.retyped_retyped (declared : Variable) (first second : Option Ty) :
    (declared.retyped first).retyped second = declared.retyped (second.or first) := by
  cases second <;> rfl

namespace SymbolTable

/-- A name stands for what the innermost scope that declares it binds it to.  Scopes are passed as
long as they are branches, so the nearest body is the last one that is searched. -/
theorem locate_eq_ok_iff (table : SymbolTable) (name : String) (location : Location) :
    table.locate name = .ok location ↔
      ∃ inner scope outer, table.scopes = inner ++ scope :: outer ∧
        (∀ passed ∈ inner, passed.kind = .branch ∧ passed.location? name = none) ∧
        scope.location? name = some location := by
  have located : table.locate name = .ok location ↔ table.locate? name = some location := by
    rw [locate]
    cases table.locate? name <;> simp
  rw [located, locate?]
  induction table.scopes with
  | nil => simp [Scope.visible]
  | cons first scopes ih =>
    rw [Scope.visible_cons, List.findSome?_cons]
    constructor
    · intro found
      cases here : first.location? name with
      | some place =>
        rw [here] at found
        exact ⟨[], first, scopes, rfl, by simp, here.trans found⟩
      | none =>
        cases kind : first.kind with
        | body => simp [here, kind] at found
        | branch =>
          simp only [here, kind] at found
          obtain ⟨inner, scope, outer, rfl, passed, bound⟩ := ih.mp found
          exact ⟨first :: inner, scope, outer, rfl, List.forall_mem_cons.mpr
            ⟨⟨kind, here⟩, passed⟩, bound⟩
    · rintro ⟨inner, scope, outer, split, passed, bound⟩
      cases inner with
      | nil =>
        obtain ⟨rfl, rfl⟩ := List.cons.inj split
        simp [bound]
      | cons top inner =>
        obtain ⟨rfl, rfl⟩ := List.cons.inj split
        obtain ⟨⟨kind, absent⟩, further⟩ := List.forall_mem_cons.mp passed
        simp only [absent, kind]
        exact ih.mpr ⟨inner, scope, outer, rfl, further, bound⟩

end SymbolTable

namespace Environment

def apply (env : Environment) : ScopeStep → Environment
  | .opening .body => env.openBody
  | .opening .branch => env.openBranch
  | .closing => env.close
  | .declaring name type => env.declared name type
  | .assigning name type => env.assigned name type

def run (env : Environment) (steps : List ScopeStep) : Environment := steps.foldl apply env

/-- The environment with a scope opened that was open before. -/
def reopened (env : Environment) (scope : Scope) : Environment :=
  { env with table := env.table.reopen scope }

/-- The type that a step assigns to the variable at a location, which is the visible one for the
name it assigns to. -/
def written? (env : Environment) (location : Location) : ScopeStep → Option Ty
  | .assigning name type => if env.table.locate? name = some location then some type else none
  | _ => none

/-- The type that was last assigned to the variable at a location, at a moment when it was the
visible one for its name. -/
def lastWritten? (env : Environment) (location : Location) : List ScopeStep → Option Ty
  | [] => none
  | step :: steps => ((env.apply step).lastWritten? location steps).or (env.written? location step)

@[simp]
theorem apply_opening (env : Environment) (kind : ScopeKind) :
    env.apply (.opening kind) = env.opened kind := by
  cases kind <;> rfl

@[simp]
theorem run_cons (env : Environment) (step : ScopeStep) (steps : List ScopeStep) :
    env.run (step :: steps) = (env.apply step).run steps := rfl

theorem run_append (env : Environment) (first second : List ScopeStep) :
    env.run (first ++ second) = (env.run first).run second :=
  List.foldl_append

/-- A declaration fails where no scope is open or the innermost one declares the name. -/
theorem declare_error_iff (env : Environment) (name : String) (type : Ty) :
    (∃ error, env.declare name type = .error error) ↔
      ∀ scope ∈ env.table.current?, scope.binds name = true := by
  rw [declare, refusal?, SymbolTable.current?]
  cases env.table.scopes with
  | nil => simp
  | cons scope outer => cases bound : scope.binds name <;> simp [bound]

theorem declared_of_error {env : Environment} {name : String} {type : Ty} {error : TableError}
    (failed : env.declare name type = .error error) : env.declared name type = env := by
  rw [declared_eq, failed]
  rfl

/-! ## Variables that were there -/

/-- The store is the same, or it holds one more variable. -/
def KeepsStore (before after : Environment) : Prop :=
  after.store = before.store ∨ ∃ declared, after.store = before.store.add declared

theorem keepsStore_declared (env : Environment) (name : String) (type : Ty) :
    env.KeepsStore (env.declared name type) := by
  unfold declared extend
  split
  · exact .inl rfl
  · cases env.table.scopes with
    | nil => exact .inl rfl
    | cons scope outer => exact .inr ⟨_, rfl⟩

/-- What a step does to the store: it writes to a variable, or it keeps those that there are. -/
theorem apply_cases (env : Environment) (step : ScopeStep) :
    (env.KeepsStore (env.apply step) ∧ ∀ location, env.written? location step = none) ∨
    ∃ name type location, step = .assigning name type ∧
      env.table.locate? name = some location ∧
      (env.apply step).store = env.store.retype location type := by
  cases step with
  | opening kind =>
    rw [apply_opening]
    exact .inl ⟨.inl rfl, fun _ => rfl⟩
  | closing => exact .inl ⟨.inl rfl, fun _ => rfl⟩
  | declaring name type => exact .inl ⟨env.keepsStore_declared name type, fun _ => rfl⟩
  | assigning name type =>
    rw [apply, assigned]
    cases found : env.table.locate? name with
    | some location => exact .inr ⟨name, type, location, rfl, found, rfl⟩
    | none => exact .inl ⟨env.keepsStore_declared name type, fun _ => by simp [written?, found]⟩

theorem size_le_apply (env : Environment) (step : ScopeStep) :
    env.store.size ≤ (env.apply step).store.size := by
  rcases env.apply_cases step with ⟨same | ⟨declared, added⟩, _⟩ | ⟨_, _, _, _, _, written⟩
  · exact Nat.le_of_eq (by rw [same])
  · rw [added, Store.size_add]
    exact Nat.le_succ _
  · exact Nat.le_of_eq (by rw [written, Store.size_retype])

theorem size_le_run (env : Environment) (steps : List ScopeStep) :
    env.store.size ≤ (env.run steps).store.size := by
  induction steps generalizing env with
  | nil => exact Nat.le_refl _
  | cons step steps ih => exact Nat.le_trans (env.size_le_apply step) (ih (env.apply step))

/-- A variable stays in its place, with the type that the step assigns to it. -/
theorem get?_apply {env : Environment} {location : Location} (within : location < env.store.size)
    (step : ScopeStep) :
    (env.apply step).store.get? location =
      (env.store.get? location).map (·.retyped (env.written? location step)) := by
  have kept : env.store.get? location = (env.store.get? location).map (·.retyped none) :=
    Option.map_id'.symm
  rcases env.apply_cases step with
    ⟨same | ⟨declared, added⟩, unwritten⟩ | ⟨name, type, place, rfl, found, written⟩
  · rw [same, unwritten]
    exact kept
  · rw [added, unwritten, Store.get?_add, if_neg (Nat.ne_of_lt within)]
    exact kept
  · rw [written, Store.get?_retype, written?, found]
    by_cases here : location = place
    · subst here
      rw [if_pos rfl, if_pos rfl]
      rfl
    · rw [if_neg here, if_neg fun same => here (Option.some.inj same).symm]
      exact kept

/-- A variable stays in its place, with the type that was last assigned to it. -/
theorem get?_run {env : Environment} {location : Location} (within : location < env.store.size)
    (steps : List ScopeStep) :
    (env.run steps).store.get? location =
      (env.store.get? location).map (·.retyped (env.lastWritten? location steps)) := by
  induction steps generalizing env with
  | nil => exact Option.map_id'.symm
  | cons step steps ih =>
    rw [run_cons, ih (Nat.lt_of_lt_of_le within (env.size_le_apply step)), get?_apply within,
      Option.map_map, lastWritten?]
    simp only [Function.comp_def, Variable.retyped_retyped]

/-! ## Inside a bracket -/

/-- Above the scopes `base` are a scope of the given kind and `level` more.  Their variables have
locations from `size` on. -/
inductive Above (size : Nat) (base : List Scope) (kind : ScopeKind) : Nat → List Scope → Prop where
  | opened {scope : Scope} (is : scope.kind = kind)
      (fresh : ∀ location ∈ scope.locations, size ≤ location) :
      Above size base kind 0 (scope :: base)
  | nested {level : Nat} {scope : Scope} {scopes : List Scope}
      (fresh : ∀ location ∈ scope.locations, size ≤ location)
      (inner : Above size base kind level scopes) :
      Above size base kind (level + 1) (scope :: scopes)

namespace Above

variable {size level : Nat} {base scopes : List Scope} {kind : ScopeKind}

/-- A search that ends at an older location has passed a scope that binds none, and that scope is a
branch. -/
theorem visible_outer {scope : Scope} {outer : List Scope}
    (fresh : ∀ place ∈ scope.locations, size ≤ place) {name : String} {location : Location}
    (old : location < size)
    (found : (Scope.visible (scope :: outer)).findSome? (·.location? name) = some location) :
    scope.kind = .branch ∧
      (Scope.visible outer).findSome? (·.location? name) = some location := by
  rw [Scope.visible_cons, List.findSome?_cons] at found
  cases here : scope.location? name with
  | some place =>
    have same : place = location := by simpa [here] using found
    have recent := fresh place (Scope.mem_locations_of_location? here)
    exact absurd (same ▸ recent) (Nat.not_le.mpr old)
  | none => cases is : scope.kind <;> simp_all

/-- What is found at an older location is visible around the bracket, which is that of a branch. -/
theorem visible_base (above : Above size base kind level scopes) {name : String}
    {location : Location} (old : location < size)
    (found : (Scope.visible scopes).findSome? (·.location? name) = some location) :
    kind = .branch ∧ (Scope.visible base).findSome? (·.location? name) = some location := by
  induction above with
  | opened is fresh => exact (visible_outer fresh old found).imp_left is.symm.trans
  | nested fresh _ ih => exact ih (visible_outer fresh old found).2

/-- Of the open scopes only the innermost one changes, and it gains a variable at a new location. -/
theorem bind (above : Above size base kind level scopes) {scope : Scope} {outer : List Scope}
    (split : scopes = scope :: outer) (name : String) {location : Location}
    (new : size ≤ location) :
    Above size base kind level (scope.bind name location :: outer) := by
  have grown : (∀ place ∈ scope.locations, size ≤ place) →
      ∀ place ∈ (scope.bind name location).locations, size ≤ place := by
    intro fresh place member
    rw [Scope.locations_bind, List.mem_append] at member
    rcases member with old | last
    · exact fresh place old
    · rw [List.mem_singleton.mp last]
      exact new
  cases above with
  | opened is fresh =>
    obtain ⟨rfl, rfl⟩ := List.cons.inj split
    exact .opened is (grown fresh)
  | nested fresh inner =>
    obtain ⟨rfl, rfl⟩ := List.cons.inj split
    exact .nested (grown fresh) inner

end Above

/-- The environment is inside a bracket of the given kind around `base`, and `level` more scopes are
open in it. -/
structure InBracket (base : Environment) (kind : ScopeKind) (level : Nat) (env : Environment) :
    Prop where
  above : Above base.store.size base.table.scopes kind level env.table.scopes
  size_le : base.store.size ≤ env.store.size

theorem inBracket_opened (env : Environment) (kind : ScopeKind) :
    env.InBracket kind 0 (env.opened kind) :=
  ⟨.opened rfl fun _ member => absurd member List.not_mem_nil, Nat.le_refl _⟩

namespace InBracket

variable {base env : Environment} {kind : ScopeKind} {level : Nat}

theorem declared (inside : base.InBracket kind level env) (name : String) (type : Ty) :
    Above base.store.size base.table.scopes kind level (env.declared name type).table.scopes := by
  unfold Environment.declared extend
  split
  · exact inside.above
  · cases open_ : env.table.scopes with
    | nil =>
      simpa [open_] using inside.above
    | cons scope outer => exact inside.above.bind open_ name inside.size_le

/-- A step that closes no scope from before the bracket stays inside it. -/
theorem apply (inside : base.InBracket kind level env) {step : ScopeStep} {later : Nat}
    (next : step.levelAfter? level = some later) : base.InBracket kind later (env.apply step) := by
  refine ⟨?_, Nat.le_trans inside.size_le (env.size_le_apply step)⟩
  cases step with
  | opening opened =>
    cases next
    rw [apply_opening]
    exact .nested (fun _ member => absurd member List.not_mem_nil) inside.above
  | closing =>
    have above := inside.above
    rw [Environment.apply, scopes_close]
    cases level with
    | zero => cases next
    | succ level =>
      cases next
      generalize env.table.scopes = scopes at above ⊢
      cases above with
      | nested fresh inner => exact inner
  | declaring name type =>
    cases next
    exact inside.declared name type
  | assigning name type =>
    cases next
    rw [Environment.apply, assigned]
    split
    · exact inside.above
    · exact inside.declared name type

theorem run (inside : base.InBracket kind level env) {steps : List ScopeStep} {later : Nat}
    (levels : steps.foldlM ScopeStep.levelAfter? level = some later) :
    base.InBracket kind later (env.run steps) := by
  induction steps generalizing env level with
  | nil =>
    cases levels
    exact inside
  | cons step steps ih =>
    rw [List.foldlM_cons] at levels
    obtain ⟨middle, next, rest⟩ := Option.bind_eq_some_iff.mp levels
    exact ih (inside.apply next) rest

/-- Whatever is assigned to an older variable, it was the visible one where the bracket begins. -/
theorem visible_of_written (inside : base.InBracket kind level env) {location : Location}
    (old : location < base.store.size) {step : ScopeStep}
    (written : (env.written? location step).isSome) :
    kind = .branch ∧ ∃ name, base.table.locate? name = some location := by
  cases step with
  | assigning name type =>
    rw [written?] at written
    split at written
    · next found => exact (inside.above.visible_base old found).imp_right fun there => ⟨name, there⟩
    · cases written
  | _ => cases written

theorem visible_of_lastWritten (inside : base.InBracket kind level env) {location : Location}
    (old : location < base.store.size) {steps : List ScopeStep} {later : Nat}
    (levels : steps.foldlM ScopeStep.levelAfter? level = some later)
    (written : (env.lastWritten? location steps).isSome) :
    kind = .branch ∧ ∃ name, base.table.locate? name = some location := by
  induction steps generalizing env level with
  | nil => cases written
  | cons step steps ih =>
    rw [List.foldlM_cons] at levels
    obtain ⟨middle, next, rest⟩ := Option.bind_eq_some_iff.mp levels
    rw [lastWritten?, Option.isSome_or, Bool.or_eq_true] at written
    rcases written with afterwards | now
    · exact ih (inside.apply next) rest afterwards
    · exact inside.visible_of_written old now

end InBracket

/-! ## Around a bracket -/

namespace Grounded

variable {env : Environment}

theorem apply (grounded : env.Grounded) (step : ScopeStep) : (env.apply step).Grounded := by
  cases step with
  | opening kind =>
    rw [apply_opening]
    exact grounded.opened kind
  | closing => exact grounded.close
  | declaring name type => exact grounded.declared name type
  | assigning name type => exact grounded.assigned name type

theorem run (grounded : env.Grounded) (steps : List ScopeStep) : (env.run steps).Grounded := by
  induction steps generalizing env with
  | nil => exact grounded
  | cons step steps ih => exact ih (grounded.apply step)

/-- A scope that was open at some moment may be opened again at a later one. -/
theorem reopened (grounded : env.Grounded) {scope : Scope} (member : scope ∈ env.table.scopes)
    (steps : List ScopeStep) : ((env.run steps).reopened scope).Grounded := by
  intro location bound
  rcases List.mem_append.mp bound with here | further
  · have old := grounded location (List.mem_flatMap.mpr ⟨scope, member, here⟩)
    exact Nat.lt_of_lt_of_le old (env.size_le_run steps)
  · exact grounded.run steps location further

end Grounded

/-- Open a scope, run the steps and close the scope again. -/
def bracket (env : Environment) (kind : ScopeKind) (steps : List ScopeStep) : Environment :=
  env.run (.opening kind :: steps ++ [.closing])

section Bracket

variable (env : Environment) {steps : List ScopeStep} (balanced : ScopeStep.Balanced steps)
  (kind : ScopeKind)

theorem bracket_eq_close (steps : List ScopeStep) :
    env.bracket kind steps = ((env.opened kind).run steps).close := by
  simp only [bracket, run_cons, run_append, apply_opening]
  rfl

theorem get?_bracket {location : Location} (within : location < env.store.size)
    (steps : List ScopeStep) :
    (env.bracket kind steps).store.get? location = (env.store.get? location).map
      (·.retyped ((env.opened kind).lastWritten? location steps)) := by
  have opened : location < (env.opened kind).store.size := within
  rw [bracket_eq_close]
  exact get?_run opened steps

include balanced

/-- The scopes that were open before are open again, with the variables they had. -/
theorem scopes_bracket : (env.bracket kind steps).table.scopes = env.table.scopes := by
  have above := ((env.inBracket_opened kind).run balanced).above
  rw [bracket_eq_close, scopes_close]
  generalize ((env.opened kind).run steps).table.scopes = scopes at above ⊢
  cases above with
  | opened is fresh => rfl

/-- A variable is as it was, unless it was visible and the bracket is that of a branch. -/
theorem get?_bracket_of_not_visible {location : Location} (within : location < env.store.size)
    (apart : ¬ (kind = .branch ∧ ∃ name, env.table.locate? name = some location)) :
    (env.bracket kind steps).store.get? location = env.store.get? location := by
  have visible := (env.inBracket_opened kind).visible_of_lastWritten within balanced
  have never := Option.not_isSome_iff_eq_none.mp (mt visible apart)
  rw [get?_bracket env kind within, never]
  exact Option.map_id'

end Bracket

/-- A bracket restores the open scopes.  Whatever balanced steps are run in it, afterwards the same
scopes are open, and they bind the same names to the same variables.  Each variable has the type
that was last assigned to it while it was the visible one for its name, and this only happens in the
bracket of a branch, to variables that were visible where it began.  So the bracket of a body
restores all types, and that of a branch restores those of every hidden scope that has no variable
in common with the visible ones.  At every moment a name stands for what the innermost scope that
declares it binds it to, up to the nearest body, and a declaration that fails changes nothing.  No
step leads to an open scope with a variable that is not in the store, and neither does opening a
scope once more. -/
theorem bracket_restores_scopes {env : Environment} (grounded : env.Grounded)
    {steps : List ScopeStep} (balanced : ScopeStep.Balanced steps) (kind : ScopeKind) :
    let after := env.bracket kind steps
    after.table.scopes = env.table.scopes ∧
    (kind = .body → after.stack = env.stack) ∧
    (∀ location ∈ env.table.scopes.flatMap Scope.locations,
      let last := (env.opened kind).lastWritten? location steps
      after.store.get? location = (env.store.get? location).map (·.retyped last) ∧
      (last.isSome → kind = .branch ∧ ∃ name, env.table.locate? name = some location)) ∧
    (∀ scope ∈ Scope.hidden env.table.scopes,
      (∀ location ∈ scope.locations, location ∉ env.visibleLocations) →
      scope.view after.store = scope.view env.store) ∧
    (∀ (moment : Environment) (name : String) (location : Location),
      moment.table.locate name = .ok location ↔
        ∃ inner scope outer, moment.table.scopes = inner ++ scope :: outer ∧
          (∀ passed ∈ inner, passed.kind = .branch ∧ passed.location? name = none) ∧
          scope.location? name = some location) ∧
    (∀ (moment : Environment) (name : String) (type : Ty),
      ((∃ error, moment.declare name type = .error error) ↔
        ∀ scope ∈ moment.table.current?, scope.binds name = true) ∧
      ∀ error, moment.declare name type = .error error →
        moment.apply (.declaring name type) = moment) ∧
    ∀ others later : List ScopeStep, (env.run others).Grounded ∧
      ∀ scope ∈ (env.run others).table.scopes,
        (((env.run others).run later).reopened scope).Grounded := by
  intro after
  have scopes := env.scopes_bracket balanced kind
  refine ⟨scopes, ?_, ?_, ?_, ?_, ?_, ?_⟩
  · rintro rfl
    rw [stack, stack, scopes]
    refine Scope.map_view_congr (Scope.frames_congr fun location member => ?_)
    refine env.get?_bracket_of_not_visible balanced .body (grounded location member) ?_
    rintro ⟨⟨⟩, _⟩
  · intro location member
    have within := grounded location member
    exact ⟨env.get?_bracket kind within steps,
      (env.inBracket_opened kind).visible_of_lastWritten within balanced⟩
  · intro scope member apart
    have frame : scope.frame after.store = scope.frame env.store := by
      refine Scope.frame_congr fun location bound => ?_
      have open_ : location ∈ env.table.scopes.flatMap Scope.locations := by
        rw [← Scope.visible_append_hidden env.table.scopes, List.flatMap_append]
        exact List.mem_append_right _ (List.mem_flatMap.mpr ⟨scope, member, bound⟩)
      refine env.get?_bracket_of_not_visible balanced kind (grounded location open_) ?_
      rintro ⟨_, name, found⟩
      exact apart location bound (Scope.mem_flatMap_of_findSome? found)
    rw [Scope.view, Scope.view, frame]
  · exact fun moment name location => moment.table.locate_eq_ok_iff name location
  · exact fun moment name type =>
      ⟨moment.declare_error_iff name type, fun error failed => declared_of_error failed⟩
  · exact fun others later =>
      ⟨grounded.run others, fun scope member => (grounded.run others).reopened member later⟩

/-- In a branch, an assignment falls through an inner branch to the variable outside, one in a
shadowing scope does not, and one in a body declares a variable of its own. -/
theorem nested_bracket_restores :
    let env := (({} : Environment).run [.opening .body, .declaring "x" .int, .opening .body,
      .declaring "x" .int, .declaring "y" .int, .opening .branch])
    let steps : List ScopeStep := [.opening .branch, .assigning "x" .string, .opening .branch,
      .declaring "y" .float, .assigning "y" .bool, .closing, .closing, .opening .body,
      .assigning "x" .bool, .closing]
    env.Grounded ∧ ScopeStep.Balanced steps ∧
      (env.bracket .branch steps).table.scopes = env.table.scopes ∧
      (env.bracket .branch steps).stack = [⟨2, .branch, []⟩,
        ⟨1, .body, [("x", .string), ("y", .int)]⟩, ⟨0, .body, [("x", .int)]⟩] := by
  intro env steps
  have empty : ({} : Environment).Grounded := by decide
  have grounded : env.Grounded := empty.run _
  have balanced : ScopeStep.Balanced steps := by decide
  exact ⟨grounded, balanced, (bracket_restores_scopes grounded balanced .branch).1, by decide⟩

/-- The scope of a body was closed, and two copies of it were opened again. -/
def reopenedTwice : Environment :=
  let declared := ({} : Environment).run [.opening .body, .declaring "x" .int]
  let kept : Scope := ⟨0, .body, [("x", 0)]⟩
  (declared.close.reopened kept).reopened kept

/-- Copies of a scope have their variables in common, so an assignment in a branch may change a type
in a hidden scope. -/
theorem hidden_copy_not_restored :
    ¬ ∀ (env : Environment) (steps : List ScopeStep), env.Grounded → ScopeStep.Balanced steps →
      OpenScope.belowBody (env.bracket .branch steps).stack = OpenScope.belowBody env.stack := by
  intro restored
  have same := restored reopenedTwice [.assigning "x" .string] (by decide) (by decide)
  exact absurd same (by decide)

end Environment

end CallSite
