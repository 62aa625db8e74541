import CallSite.Analysis
import CallSite.Proofs.Inference.Local
import CallSite.Proofs.Resolution.Registration

/-!
# Running inference realizes its local reading

Where every visible variable has a location of its own, a run of inference gives the value of its
local reading, leads to the frames it leads to, and leaves its events in the state.  What is entered
by a call or a match needs no such assumption, since nothing around a body is seen from inside.
-/

namespace CallSite.Inference

/-! ## What events leave in a state -/

/-- What a run leaves in the record of an owner.  A record that was written has its last types and
its last scope, whose variables are new; `apart` is what else is known of that scope. -/
def Kept (apart : Scope → Prop) (events : List Event) (before after : Environment)
    (owner : Owner) : Prop :=
  match lastContent owner events with
  | none => after.table.record? owner = before.table.record? owner
  | some content => ∃ scope,
    after.table.record? owner = (before.table.record? owner).map
      (fun record => (written owner events record).keep (some scope)) ∧
    scope.Holds after.store content ∧
    (∀ location ∈ scope.locations, before.store.size ≤ location) ∧ apart scope

/-- The state after a run with the given events. -/
structure Leaves (apart : Scope → Prop) (events : List Event) (before after : State) : Prop where
  sink : after.sink = before.sink.reportAll (reports events)
  visited : after.visited = (entered events).foldl NameSet.insert before.visited
  functions : after.env.table.functions.map (·.declaration) =
    before.env.table.functions.map (·.declaration)
  patterns : after.env.table.patterns.map (·.declaration) =
    before.env.table.patterns.map (·.declaration)
  records : ∀ owner, Kept apart events before.env after.env owner

theorem Kept.imp {apart other : Scope → Prop} {events : List Event} {before after : Environment}
    {owner : Owner} (kept : Kept apart events before after owner)
    (weaker : ∀ scope, (∀ location ∈ scope.locations, before.store.size ≤ location) →
      apart scope → other scope) : Kept other events before after owner := by
  unfold Kept at kept ⊢
  cases last : lastContent owner events with
  | none => simpa only [last] using kept
  | some content =>
    simp only [last] at kept ⊢
    obtain ⟨scope, record, holds, fresh, away⟩ := kept
    exact ⟨scope, record, holds, fresh, weaker scope fresh away⟩

theorem Leaves.imp {apart other : Scope → Prop} {events : List Event} {before after : State}
    (leaves : Leaves apart events before after)
    (weaker : ∀ scope, (∀ location ∈ scope.locations, before.env.store.size ≤ location) →
      apart scope → other scope) : Leaves other events before after :=
  ⟨leaves.sink, leaves.visited, leaves.functions, leaves.patterns,
    fun owner => (leaves.records owner).imp weaker⟩

/-- Two runs in a row leave the events of both.  A scope kept by the first run is not touched by the
second, because none of its variables is visible there. -/
theorem Kept.append {first second : List Event} {before middle after : Environment} {owner : Owner}
    (early : Kept middle.Detached first before middle owner)
    (late : Kept after.Detached second middle after owner)
    (size_le : before.store.size ≤ middle.store.size) (grows : middle.Grows after) :
    Kept after.Detached (first ++ second) before after owner := by
  unfold Kept at early late ⊢
  rw [lastContent_append]
  cases lastLate : lastContent owner second with
  | some content =>
    simp only [lastLate, Option.some_or] at late ⊢
    obtain ⟨scope, record, holds, fresh, apart⟩ := late
    refine ⟨scope, ?_, holds, fun location member =>
      Nat.le_trans size_le (fresh location member), apart⟩
    rw [record]
    cases lastEarly : lastContent owner first with
    | none =>
      simp only [lastEarly] at early
      rw [early]
      refine congrArg (Option.map · _) (funext fun record => ?_)
      rw [written_append, written_of_lastContent_eq_none lastEarly]
    | some earlier =>
      simp only [lastEarly] at early
      obtain ⟨oldScope, oldRecord, _⟩ := early
      rw [oldRecord, Option.map_map]
      refine congrArg (Option.map · _) (funext fun record => ?_)
      rw [Function.comp_apply, written_keep, Record.keep_keep, written_append]
  | none =>
    simp only [lastLate, Option.none_or] at late ⊢
    cases lastEarly : lastContent owner first with
    | none =>
      simp only [lastEarly] at early ⊢
      rw [late, early]
    | some content =>
      simp only [lastEarly] at early ⊢
      obtain ⟨scope, record, holds, fresh, apart⟩ := early
      refine ⟨scope, ?_, grows.holds holds apart, fresh, grows.detached holds.within apart⟩
      rw [late, record]
      refine congrArg (Option.map · _) (funext fun record => ?_)
      rw [written_append, written_of_lastContent_eq_none lastLate]

theorem Leaves.append {first second : List Event} {before middle after : State}
    (early : Leaves middle.env.Detached first before middle)
    (late : Leaves after.env.Detached second middle after)
    (size_le : before.env.store.size ≤ middle.env.store.size)
    (grows : middle.env.Grows after.env) :
    Leaves after.env.Detached (first ++ second) before after where
  sink := by
    rw [late.sink, early.sink, reports, reports, reports, List.filterMap_append,
      Sink.reportAll_append]
  visited := by
    rw [late.visited, early.visited, entered, entered, entered, List.filterMap_append,
      List.foldl_append]
  functions := late.functions.trans early.functions
  patterns := late.patterns.trans early.patterns
  records owner := (early.records owner).append (late.records owner) size_le grows

/-- Work on the open scopes alone leaves no events. -/
theorem Leaves.silent {apart : Scope → Prop} {before after : State}
    (same : before.env.table.SameGlobals after.env.table) (sink : after.sink = before.sink)
    (visited : after.visited = before.visited) : Leaves apart [] before after :=
  ⟨sink, visited, congrArg _ same.functions, congrArg _ same.patterns, fun owner =>
    same.record? owner⟩

/-- Opening a scope before a run and closing it afterwards leaves no more events. -/
theorem Leaves.bracket {apart : Scope → Prop} {events : List Event} {kind : ScopeKind}
    {before after : State} (leaves : Leaves apart events (before.openScope kind) after) :
    Leaves apart events before after.closeScope where
  sink := leaves.sink
  visited := leaves.visited
  functions := leaves.functions
  patterns := leaves.patterns
  records owner := by
    have kept := leaves.records owner
    cases owner <;> exact kept

/-- Noting that a declaration was entered. -/
theorem Leaves.visit {apart : Scope → Prop} {events : List Event} {name : String}
    {before after : State} (leaves : Leaves apart events (before.visit name) after) :
    Leaves apart (.enter name :: events) before after where
  sink := leaves.sink
  visited := leaves.visited
  functions := leaves.functions
  patterns := leaves.patterns
  records owner := by
    have kept := leaves.records owner
    unfold Kept at kept ⊢
    have same : lastContent owner (.enter name :: events) = lastContent owner events := by
      change (lastContent owner events).or none = lastContent owner events
      exact Option.or_none
    rw [same]
    exact kept

/-- Keeping the outcome of a check in the record of its owner, on top of what the run kept there
before. -/
theorem Leaves.keep {events : List Event} {before after : State}
    (leaves : Leaves (fun _ => True) events before after) {owner : Owner} {types : List Ty}
    {result : Ty} {scope : Scope} {content : Frame} (holds : scope.Holds after.env.store content)
    (fresh : ∀ location ∈ scope.locations, before.env.store.size ≤ location)
    {table : SymbolTable}
    (record? : ∀ other, table.record? other =
      if other = owner then
        (after.env.table.record? other).map fun record =>
          (record.fill types result).keep (some scope)
      else after.env.table.record? other)
    (functions : table.functions.map (·.declaration) =
      after.env.table.functions.map (·.declaration))
    (patterns : table.patterns.map (·.declaration) =
      after.env.table.patterns.map (·.declaration)) :
    Leaves (fun _ => True) (events ++ [.keep owner types result content]) before
      { after with env.table := table } where
  sink := by
    have none_ : reports (events ++ [.keep owner types result content]) = reports events := by
      simp [reports, Event.diagnostic?]
    rw [none_]
    exact leaves.sink
  visited := by
    have none_ : entered (events ++ [.keep owner types result content]) = entered events := by
      simp [entered, Event.entered?]
    rw [none_]
    exact leaves.visited
  functions := functions.trans leaves.functions
  patterns := patterns.trans leaves.patterns
  records other := by
    have kept := leaves.records other
    unfold Kept at kept ⊢
    rw [lastContent_append, lastContent, lastContent, Option.none_or, Event.content?]
    by_cases same : owner = other
    · subst same
      simp only [↓reduceIte, Option.some_or]
      refine ⟨scope, ?_, holds, fresh, trivial⟩
      rw [record? owner, if_pos rfl]
      cases last : lastContent owner events with
      | none =>
        simp only [last] at kept
        rw [kept]
        refine congrArg (Option.map · _) (funext fun record => ?_)
        rw [written_append, written_of_lastContent_eq_none last]
        simp [written, Event.write]
      | some earlier =>
        simp only [last] at kept
        obtain ⟨oldScope, oldRecord, _⟩ := kept
        rw [oldRecord, Option.map_map]
        refine congrArg (Option.map · _) (funext fun record => ?_)
        rw [Function.comp_apply, Record.fill_keep, Record.keep_keep, written_append]
        simp [written, Event.write]
    · have unwritten : ∀ record, written other (events ++ [.keep owner types result content])
          record = written other events record := by
        intro record
        rw [written_append]
        simp [written, Event.write, same]
      simp only [same, ↓reduceIte, Option.none_or, unwritten]
      have away : other ≠ owner := fun equal => same equal.symm
      rw [record? other, if_neg away]
      exact kept

/-! ## Realization -/

structure Realizes {α : Type} (outcome : Outcome α) (before : State) (result : α × State) :
    Prop where
  value : result.1 = outcome.value
  becomes : before.env.Becomes result.2.env outcome.frames
  leaves : Leaves result.2.env.Detached outcome.events before result.2

/-- A run that works in a body of its own: the open scopes around it are as they were. -/
structure Enters {α : Type} (outcome : Outcome α) (before : State) (result : α × State) :
    Prop where
  value : result.1 = outcome.value
  untouched : before.env.Untouched result.2.env
  leaves : Leaves (fun _ => True) outcome.events before result.2

theorem Enters.realizes {α : Type} {outcome : Outcome α} {before : State} {result : α × State}
    (enters : Enters outcome before result) (sound : before.env.Sound)
    (same : outcome.frames = before.env.frames) : Realizes outcome before result where
  value := enters.value
  becomes := same ▸ enters.untouched.becomes sound
  leaves := enters.leaves.imp fun _ fresh _ => enters.untouched.detached sound fresh

/-- The action runs as it is read. -/
def Reads {α : Type} (left : LocalM α) (right : CheckM α) : Prop :=
  ∀ state : State, state.env.Sound → Realizes (left state.env.frames) state (right.run state)

namespace Reads

theorem pure {α : Type} (value : α) : Reads (Pure.pure value) (Pure.pure value) := by
  intro state sound
  exact ⟨rfl, .refl sound, .silent ⟨rfl, rfl, rfl⟩ rfl rfl⟩

theorem bind {α β : Type} {left : LocalM α} {right : CheckM α} {leftNext : α → LocalM β}
    {rightNext : α → CheckM β} (first : Reads left right)
    (second : ∀ value, Reads (leftNext value) (rightNext value)) :
    Reads (left >>= leftNext) (right >>= rightNext) := by
  intro state sound
  have early := first state sound
  have late := second (right.run state).1 (right.run state).2 early.becomes.sound
  rw [early.becomes.frames_eq, early.value] at late
  have ran : (right >>= rightNext).run state =
      (rightNext (left state.env.frames).value).run (right.run state).2 := by
    rw [← early.value]
    rfl
  rw [ran]
  exact ⟨late.value, early.becomes.trans late.becomes,
    early.leaves.append late.leaves early.becomes.grows.size_le late.becomes.grows⟩

/-- Work on the visible variables, described by what it does to their frames. -/
theorem change {update : Frames → Frames} {step : Environment → Environment}
    (becomes : ∀ env : Environment, env.Sound → env.Becomes (step env) (update env.frames))
    (same : ∀ env : Environment, env.table.SameGlobals (step env).table) :
    Reads (LocalM.change update)
      (modify fun state => { state with env := step state.env } : CheckM Unit) := by
  intro state sound
  exact ⟨rfl, becomes state.env sound, .silent (same state.env) rfl rfl⟩

theorem report (problem : Problem) (position : Position) :
    Reads (Inference.report problem position) (Inference.report problem position) := by
  intro state sound
  exact ⟨rfl, .refl sound, rfl, rfl, rfl, rfl, fun _ => rfl⟩

theorem typeOf (name : String) : Reads (Inference.typeOf name) (Inference.typeOf name) := by
  intro state sound
  exact ⟨state.env.typeOf?_getD name, .refl sound, .silent ⟨rfl, rfl, rfl⟩ rfl rfl⟩

theorem inBranch {α : Type} {left : LocalM α} {right : CheckM α} (inner : Reads left right) :
    Reads (Inference.inBranch left) (Inference.inBranch right) := by
  intro state sound
  have ran := inner (state.openScope .branch) (Environment.sound_opened_branch sound)
  refine ⟨ran.value, ran.becomes.close_branch, (ran.leaves.imp ?_).bracket⟩
  intro scope _ apart location member visible
  exact apart location member (ran.becomes.grows.visible_close visible)

/-- An action that is read from one empty frame runs in a body scope of its own, from any state. -/
theorem inBody {α : Type} {left : LocalM α} {right : CheckM α} (inner : Reads left right)
    (state : State) (frames : Frames) :
    ∃ scope, Enters
      ⟨((LocalM.inBody left frames).value.1, some scope), frames,
        (LocalM.inBody left frames).events⟩ state ((CheckM.inScope .body right).run state) ∧
      scope.Holds ((CheckM.inScope .body right).run state).2.env.store
        (LocalM.inBody left frames).value.2 ∧
      ∀ location ∈ scope.locations, state.env.store.size ≤ location := by
  have ran := inner (state.openScope .body) (Environment.sound_opened_body state.env)
  obtain ⟨scope, content, current, only, holds, fresh⟩ := ran.becomes.holds_body
  refine ⟨scope, ⟨?_, ran.becomes.grows.close_body, ?_⟩, ?_, fresh⟩
  · exact Prod.ext ran.value current
  · exact (ran.leaves.imp fun _ _ _ => trivial).bracket
  · have read : (LocalM.inBody left frames).value.2 = content := by
      change (left [[]]).frames.headD [] = content
      rw [← Environment.frames_opened_body state.env]
      exact congrArg (List.headD · []) only
    rw [read]
    exact holds

theorem inCall (function : String) {left : LocalM (List Ty × Ty)} {right : CheckM (List Ty × Ty)}
    (inner : Reads left right) (state : State) (frames : Frames) :
    Enters ((Inference.inCall function left : LocalM Ty) frames) state
      ((Inference.inCall function right : CheckM Ty).run state) := by
  obtain ⟨scope, ran, holds, fresh⟩ := inner.inBody (state.visit function) frames
  generalize body : (CheckM.inScope .body right).run (state.visit function) = result at ran holds
  have whole : (Inference.inCall function right : CheckM Ty).run state =
      (result.1.1.2, result.2.recordCall function result.1.1.1 result.1.1.2 result.1.2) := by
    rw [← body]
    rfl
  have kept := ran.leaves.keep holds fresh
    (result.2.env.table.record?_recordFunction function (left [[]]).value.1
      (left [[]]).value.2 (some scope))
    (result.2.env.table.declarations_recordFunction function _ _ (some scope)) rfl
  rw [whole, ran.value]
  exact ⟨rfl, ⟨ran.untouched.scopes, ran.untouched.size_le, ran.untouched.cells⟩, kept.visit⟩

theorem inMatch (pattern : String) (type : Ty) {left : LocalM Ty} {right : CheckM Ty}
    (inner : Reads left right) (state : State) (frames : Frames) :
    Enters ((Inference.inMatch pattern type left : LocalM Ty) frames) state
      ((Inference.inMatch pattern type right : CheckM Ty).run state) := by
  obtain ⟨scope, ran, holds, fresh⟩ := inner.inBody (state.visit pattern) frames
  generalize body : (CheckM.inScope .body right).run (state.visit pattern) = result at ran holds
  have whole : (Inference.inMatch pattern type right : CheckM Ty).run state =
      (result.1.1, result.2.recordMatch pattern type result.1.1 result.1.2) := by
    rw [← body]
    rfl
  have kept := ran.leaves.keep holds fresh
    (result.2.env.table.record?_recordPattern pattern type (left [[]]).value (some scope)) rfl
    (result.2.env.table.declarations_recordPattern pattern type _ (some scope))
  rw [whole, ran.value]
  exact ⟨rfl, ⟨ran.untouched.scopes, ran.untouched.size_le, ran.untouched.cells⟩, kept.visit⟩

theorem inMain {left : LocalM Unit} {right : CheckM Unit} (inner : Reads left right)
    (state : State) (frames : Frames) :
    Enters ((Inference.inMain left : LocalM Unit) frames) state
      ((Inference.inMain right : CheckM Unit).run state) := by
  obtain ⟨scope, ran, holds, fresh⟩ := inner.inBody state frames
  generalize body : (CheckM.inScope .body right).run state = result at ran holds
  have whole : (Inference.inMain right : CheckM Unit).run state =
      ((), result.2.recordMain result.1.2) := by
    rw [← body]
    rfl
  have kept := ran.leaves.keep holds fresh
    (result.2.env.table.record?_recordMain (some scope)) rfl rfl
  rw [whole, ran.value]
  exact ⟨rfl, ⟨ran.untouched.scopes, ran.untouched.size_le, ran.untouched.cells⟩, kept⟩

end Reads

/-- Every check runs as it is read. -/
def reading : Simulation LocalM CheckM where
  rel := Reads
  rel_pure := Reads.pure
  rel_bind := Reads.bind
  rel_report problem position _ := Reads.report problem position
  rel_typeOf := Reads.typeOf
  rel_declare name type := Reads.change
    (fun _ sound => Environment.declared_becomes sound name type)
    (fun env => env.sameGlobals_declared name type)
  rel_assign name type := Reads.change
    (fun _ sound => Environment.assigned_becomes sound name type)
    (fun env => env.sameGlobals_assigned name type)
  rel_rebind name type := Reads.change
    (fun _ sound => Environment.rebind_becomes sound name type)
    (fun env => env.sameGlobals_rebind name type)
  rel_inBranch := Reads.inBranch
  rel_inCall function _ _ inner state sound :=
    (inner.inCall function state state.env.frames).realizes sound rfl
  rel_inMatch pattern type _ _ inner state sound :=
    (inner.inMatch pattern type state state.env.frames).realizes sound rfl
  rel_inMain inner state sound := (inner.inMain state state.env.frames).realizes sound rfl

/-- Following an invocation needs nothing of the state: what is entered starts from an empty body,
and a refused or undeclared name has no effect at all. -/
theorem enters_infer (context : Context) (active : List String) (invocation : Invocation)
    (state : State) (frames : Frames) :
    Enters ((infer context active invocation : LocalM Ty) frames) state
      ((infer context active invocation : CheckM Ty).run state) := by
  have unresolved : Enters ((pure Ty.unresolved : LocalM Ty) frames) state
      ((pure Ty.unresolved : CheckM Ty).run state) :=
    ⟨rfl, ⟨rfl, Nat.le_refl _, fun _ _ => rfl⟩, .silent ⟨rfl, rfl, rfl⟩ rfl rfl⟩
  have known : ∀ name, context.hasFunction name = context.hasFunction name := fun _ => rfl
  have nested := fun name => reading.rel_infer context (name :: active)
  rw [infer_eq_follow, infer_eq_follow]
  unfold follow
  cases refused : context.refuses active invocation.name with
  | true => exact unresolved
  | false =>
    cases invocation with
    | call name types =>
      cases found : context.function? name with
      | none => simpa [found] using unresolved
      | some function =>
        have inner := reading.rel_checkFunction known (nested name) function types
        simpa [found, enterFunction] using inner.inCall function.name.name state frames
    | matching name type =>
      cases found : context.pattern? name with
      | none => simpa [found] using unresolved
      | some pattern =>
        have inner := reading.rel_checkPattern known (nested name) pattern type
        simpa [found, enterPattern] using inner.inMatch pattern.name.name type state frames

/-- The events of the check of a main body. -/
def mainEvents (context : Context) (body : List Stmt) : List Event :=
  ((checkMain context (infer context []) body : LocalM Unit) []).events

end CallSite.Inference

namespace CallSite

open Inference

theorem Checker.leaves_checkProgram (checker : Checker) (program : Program) :
    Leaves (fun _ => True) (mainEvents (checker.register program).context program.main.body)
      (checker.register program).state (checker.checkProgram program).state := by
  have known : ∀ name, (checker.register program).context.hasFunction name =
      (checker.register program).context.hasFunction name := fun _ => rfl
  have body := reading.rel_bind
    (reading.rel_checkBody known (reading.rel_infer (checker.register program).context [])
      program.main.body)
    fun _ => reading.rel_pure ()
  exact (Reads.inMain body (checker.register program).state []).leaves

theorem Program.leaves_inferTypes (program : Program) (config : Config)
    (cycles : List (List String)) (sink : Sink) :
    Leaves (fun _ => True)
      (mainEvents (.ofTable program.table cycles.flatten config.infersCyclic) program.main.body)
      { env := { table := program.table }, sink := sink }
      (program.inferTypes config cycles sink).state := by
  let checker : Checker :=
    Checker.block { state := { sink := sink }, infersCyclic := config.infersCyclic } cycles
  have registered : (checker.register program).context =
      .ofTable program.table cycles.flatten config.infersCyclic := rfl
  rw [← registered]
  exact checker.leaves_checkProgram program

end CallSite
