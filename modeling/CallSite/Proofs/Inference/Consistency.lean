import CallSite.Proofs.CallGraph.Bound
import CallSite.Proofs.Inference.Realization

/-!
# Entries are consistent

What a function's entry keeps comes from one check of the function, made with whatever functions
were being checked around it.  As long as no call is refused, the functions around it make no
difference: the entry is the outcome of a check that starts with none.  So it is in every analysis
of a program without pointers, matches and call cycles, for all functions that were reached.
-/

namespace CallSite

theorem Slot.map_type_fill {slots : List Slot} {types : List Ty}
    (same : slots.length = types.length) : (fill slots types).map (·.type) = types := by
  induction slots generalizing types with
  | nil =>
    cases types with
    | nil => rfl
    | cons type types => cases same
  | cons slot slots ih =>
    cases types with
    | nil => cases same
    | cons type types => exact congrArg (type :: ·) (ih (Nat.succ.inj same))

theorem SymbolTable.function?_record (table : SymbolTable) (name : String) (types : List Ty)
    (returns : Ty) (scope : Option Scope) (other : String) :
    (table.updateFunction name (·.record types returns scope)).function? other =
      if other = name then (table.function? other).map (·.record types returns scope)
      else table.function? other :=
  table.function?_updateFunction name other (·.record types returns scope) fun _ => rfl

namespace Inference

/-- A call that is followed.  Variables may be looked up freely, and there are no matches. -/
def Demand.Granted : Demand → Prop
  | .lookup _ _ => True
  | .invoke _ (.call _ _) refused => refused = false
  | .invoke _ (.matching _ _) _ => False

/-! ## Entries -/

/-- The table has the functions of the context, with a slot for each parameter. -/
structure Registers (context : Context) (table : SymbolTable) : Prop where
  declared : ∀ name, (table.function? name).map (·.declaration) = context.function? name
  slots : ∀ name entry, table.function? name = some entry →
    entry.params.map (·.name) = entry.declaration.params.map (·.name.name)

/-- The entry of a function is the outcome of one check of it, with nothing being checked around
it. -/
def Checked (context : Context) (table : SymbolTable) (name : String) : Prop :=
  ∃ entry types, table.function? name = some entry ∧
    ((checkFunction context (infer context []) entry.declaration types :
      LocalM (List Ty × Ty)) [[]]).value = (entry.params.map (·.type), entry.returns)

/-- A function that was reached by the run is checked by now, or its entry is as it was. -/
def Advances (context : Context) (before after : State) : Prop :=
  ∀ name ∈ after.visited.names, Checked context after.env.table name ∨
    name ∈ before.visited.names ∧
      after.env.table.function? name = before.env.table.function? name

theorem Checked.congr {context : Context} {table other : SymbolTable} {name : String}
    (checked : Checked context table name) (same : other.function? name = table.function? name) :
    Checked context other name := by
  obtain ⟨entry, types, found, outcome⟩ := checked
  exact ⟨entry, types, same.trans found, outcome⟩

theorem Registers.congr {context : Context} {table other : SymbolTable}
    (registers : Registers context table) (same : other.functions = table.functions) :
    Registers context other := by
  refine ⟨fun name => ?_, fun name entry => ?_⟩
  · rw [SymbolTable.function?, same]
    exact registers.declared name
  · rw [SymbolTable.function?, same]
    exact registers.slots name entry

/-- To keep the outcome of a call changes no slot's name. -/
theorem Registers.record {context : Context} {table : SymbolTable}
    (registers : Registers context table) (function : String) (types : List Ty) (returns : Ty)
    (scope : Option Scope) :
    Registers context (table.updateFunction function (·.record types returns scope)) := by
  constructor
  · intro name
    rw [table.function?_record, ← registers.declared name]
    split
    · exact Option.map_map _ _ _
    · rfl
  · intro name entry found
    rw [table.function?_record] at found
    split at found
    · obtain ⟨old, stored, rfl⟩ := Option.map_eq_some_iff.mp found
      exact (Slot.map_name_fill _ _).trans (registers.slots name old stored)
    · exact registers.slots name entry found

theorem Advances.refl (context : Context) (state : State) : Advances context state state :=
  fun _ member => .inr ⟨member, rfl⟩

theorem Advances.trans {context : Context} {first second third : State}
    (left : Advances context first second) (right : Advances context second third) :
    Advances context first third := by
  intro name member
  rcases right name member with checked | ⟨earlier, same⟩
  · exact .inl checked
  · rcases left name earlier with checked | ⟨earliest, unchanged⟩
    · exact .inl (checked.congr same)
    · exact .inr ⟨earliest, same.trans unchanged⟩

/-- Work on the open scopes alone leaves all entries. -/
theorem Advances.of_same {context : Context} {before after : State}
    (same : after.env.table.functions = before.env.table.functions)
    (visited : after.visited = before.visited) : Advances context before after := by
  intro name member
  rw [visited] at member
  refine .inr ⟨member, ?_⟩
  rw [SymbolTable.function?, same, SymbolTable.function?]

/-! ## Runs without refusals -/

/-- The run has the value of the local reading, leads to its frames and keeps the entries
consistent. -/
structure Agrees {α : Type} (context : Context) (outcome : Outcome α) (before : State)
    (result : α × Traced) : Prop where
  value : result.1 = outcome.value
  becomes : before.env.Becomes result.2.state.env outcome.frames
  registers : Registers context result.2.state.env.table
  advances : Advances context before result.2.state

/-- As long as every call is followed, the traced run goes as the other action is read. -/
structure Tracks {α : Type} (context : Context) (left : LocalM α) (right : TraceM α) : Prop where
  lengthens : Lengthens right
  agrees : ∀ traced : Traced, traced.state.env.Sound → Registers context traced.state.env.table →
    (∀ demand ∈ (right.run traced).2.demands, demand.Granted) →
    Agrees context (left traced.state.env.frames) traced.state (right.run traced)

namespace Tracks

variable {α β : Type} {context : Context}

theorem pure (value : α) : Tracks context (Pure.pure value) (Pure.pure value) :=
  ⟨.pure value, fun _ sound registers _ => ⟨rfl, .refl sound, registers, .refl _ _⟩⟩

theorem bind {left : LocalM α} {right : TraceM α} {leftNext : α → LocalM β}
    {rightNext : α → TraceM β} (first : Tracks context left right)
    (second : ∀ value, Tracks context (leftNext value) (rightNext value)) :
    Tracks context (left >>= leftNext) (right >>= rightNext) := by
  refine ⟨first.lengthens.bind fun value => (second value).lengthens, ?_⟩
  intro traced sound registers granted
  have grantedFirst : ∀ demand ∈ (right.run traced).2.demands, demand.Granted :=
    fun demand member => granted demand (((second _).lengthens _).subset member)
  have early := first.agrees traced sound registers grantedFirst
  have late := (second (right.run traced).1).agrees (right.run traced).2 early.becomes.sound
    early.registers granted
  rw [early.becomes.frames_eq, early.value] at late
  have ran : (right >>= rightNext).run traced =
      (rightNext (left traced.state.env.frames).value).run (right.run traced).2 := by
    rw [← early.value]
    rfl
  rw [ran]
  exact ⟨late.value, early.becomes.trans late.becomes, late.registers,
    early.advances.trans late.advances⟩

/-- Work on the visible variables, described by what it does to their frames. -/
theorem change {update : Frames → Frames} {step : Environment → Environment}
    (becomes : ∀ env : Environment, env.Sound → env.Becomes (step env) (update env.frames))
    (same : ∀ env : Environment, env.table.SameGlobals (step env).table) :
    Tracks context (LocalM.change update)
      (TraceM.lift (modify fun state => { state with env := step state.env })) := by
  refine ⟨.lift _, fun traced sound registers _ => ?_⟩
  have functions := (same traced.state.env).functions
  exact ⟨rfl, becomes _ sound, registers.congr functions, .of_same functions rfl⟩

theorem report (problem : Problem) (position : Position) :
    Tracks context (Inference.report problem position) (Inference.report problem position) :=
  ⟨.lift _, fun _ sound registers _ => ⟨rfl, .refl sound, registers, .of_same rfl rfl⟩⟩

theorem typeOf (name : String) :
    Tracks context (Inference.typeOf name) (Inference.typeOf name) := by
  refine ⟨(Lengthens.note _).bind fun _ => .lift _, fun traced sound registers _ => ?_⟩
  exact ⟨traced.state.env.typeOf?_getD name, .refl sound, registers, .refl _ _⟩

theorem inBranch {left : LocalM α} {right : TraceM α} (inner : Tracks context left right) :
    Tracks context (Inference.inBranch left) (Inference.inBranch right) := by
  refine ⟨(inner.lengthens.inScope .branch).bind fun _ => .pure _, ?_⟩
  intro traced sound registers granted
  have ran := inner.agrees { traced with state := traced.state.openScope .branch }
    (Environment.sound_opened_branch sound) (registers.congr rfl) granted
  exact ⟨ran.value, ran.becomes.close_branch, ran.registers.congr rfl, ran.advances⟩

end Tracks

/-- Where all calls are followed, a traced run goes as the local reading. -/
def tracking (context : Context) : BodySimulation LocalM TraceM where
  rel := Tracks context
  rel_pure := Tracks.pure
  rel_bind := Tracks.bind
  rel_report problem position _ := Tracks.report problem position
  rel_typeOf := Tracks.typeOf
  rel_declare name type := Tracks.change
    (fun _ sound => Environment.declared_becomes sound name type)
    (fun env => env.sameGlobals_declared name type)
  rel_assign name type := Tracks.change
    (fun _ sound => Environment.assigned_becomes sound name type)
    (fun env => env.sameGlobals_assigned name type)
  rel_rebind name type := Tracks.change
    (fun _ sound => Environment.rebind_becomes sound name type)
    (fun env => env.sameGlobals_rebind name type)
  rel_inBranch := Tracks.inBranch


/-! ## Calls -/

theorem length_bindParams (context : Context) (enter : Invocation → LocalM Ty)
    (params : List Param) (types : List Ty) (frames : Frames) :
    (bindParams context enter params types frames).value.length = params.length := by
  induction params generalizing types frames with
  | nil => rfl
  | cons param params ih =>
    obtain ⟨name, default⟩ := param
    cases types with
    | cons type types => exact congrArg (· + 1) (ih types _)
    | nil =>
      cases default with
      | none => exact congrArg (· + 1) (ih [] _)
      | some default => exact congrArg (· + 1) (ih [] _)

/-- What a call leaves in the entry of its function. -/
theorem Checked.record {context : Context} {table : SymbolTable}
    (registers : Registers context table) {name : String} {function : Function}
    (found : context.function? name = some function) (types : List Ty) (scope : Option Scope)
    {outcome : List Ty × Ty}
    (checked : outcome = ((checkFunction context (infer context []) function types :
      LocalM (List Ty × Ty)) [[]]).value) :
    Checked context (table.updateFunction name (·.record outcome.1 outcome.2 scope)) name := by
  obtain ⟨entry, stored, declared⟩ :=
    Option.map_eq_some_iff.mp ((registers.declared name).trans found)
  have slots := registers.slots name entry stored
  have sized : outcome.1.length = entry.params.length := by
    have same := congrArg List.length slots
    rw [List.length_map, List.length_map, declared] at same
    rw [checked, same]
    exact length_bindParams _ _ _ _ _
  refine ⟨entry.record outcome.1 outcome.2 scope, types, ?_, ?_⟩
  · rw [table.function?_record, if_pos rfl, stored]
    rfl
  · change ((checkFunction context (infer context []) entry.declaration types :
      LocalM (List Ty × Ty)) [[]]).value =
        ((Slot.fill entry.params outcome.1).map (·.type), outcome.2)
    rw [declared, ← checked, Slot.map_type_fill sized.symm]

/-- A call of a declared function.  The same check with nothing being checked around it says what
its entry keeps. -/
theorem Tracks.inCall {context : Context} {name : String} {function : Function}
    (found : context.function? name = some function) {types : List Ty}
    {left : LocalM (List Ty × Ty)} {right : TraceM (List Ty × Ty)}
    (inner : Tracks context left right)
    (again : Tracks context (checkFunction context (infer context []) function types) right) :
    Tracks context (Inference.inCall name left) (Inference.inCall name right) := by
  refine ⟨inner.lengthens.inCall name, ?_⟩
  intro traced sound registers granted
  let start : Traced :=
    { traced with
      state := (traced.state.visit name).openScope .body
      stack := .function name :: traced.stack }
  let ran := right.run start
  let after := ran.2.state.closeScope.recordCall name ran.1.1 ran.1.2 ran.2.state.scope?
  have opened : start.state.env.Sound := Environment.sound_opened_body _
  have first := inner.agrees start opened (registers.congr rfl) granted
  have second := again.agrees start opened (registers.congr rfl) granted
  have untouched : traced.state.env.Untouched after.env := by
    have closed : traced.state.env.Untouched ran.2.state.env.close :=
      first.becomes.grows.close_body
    exact ⟨closed.scopes, closed.size_le, closed.cells⟩
  have advances : Advances context traced.state after := by
    intro candidate member
    by_cases same : candidate = name
    · subst same
      exact .inl (Checked.record (first.registers.congr rfl) found types _ second.value)
    · have unchanged : after.env.table.function? candidate =
          ran.2.state.env.table.function? candidate :=
        (SymbolTable.function?_record _ _ _ _ _ candidate).trans (if_neg same)
      rcases first.advances candidate member with checked | ⟨earlier, kept⟩
      · exact .inl (checked.congr unchanged)
      · refine .inr ⟨?_, unchanged.trans kept⟩
        exact ((NameSet.mem_insert _ _ _).mp earlier).resolve_left same
  have whole : (Inference.inCall name right).run traced =
      (ran.1.2, { ran.2.pop with state := after }) := rfl
  have registered : Registers context ran.2.state.closeScope.env.table := first.registers.congr rfl
  rw [whole]
  exact ⟨congrArg Prod.snd first.value, untouched.becomes sound, registered.record name _ _ _,
    advances⟩

/-- After an invocation was noted, only a call that is not refused is left to be looked at. -/
theorem Tracks.notice {context : Context} {active : List String} {invocation : Invocation}
    {left : LocalM Ty} {right : TraceM Ty} (lengthens : Lengthens right)
    (followed : ∀ name types, invocation = .call name types →
      context.refuses active name = false → Tracks context left right) :
    Tracks context left (do Inference.notice context active invocation; right) := by
  refine ⟨(Lengthens.note _).bind fun _ => lengthens, ?_⟩
  intro traced sound registers granted
  let noted := traced.note
    (.invoke traced.stack invocation (context.refuses active invocation.name))
  have here := granted _ ((lengthens noted).subset List.mem_cons_self)
  cases invocation with
  | matching pattern type => exact here.elim
  | call name types => exact (followed name types rfl here).agrees noted sound registers granted

/-! ## Following calls -/

section Follow

variable {context : Context} {active : List String} {enter : List String → Invocation → TraceM Ty}
  (nested : ∀ {name : String}, name ∈ context.names → context.refuses active name = false →
    ∀ more : List String, (∀ candidate ∈ more, candidate ∈ name :: active) → ∀ invocation,
      Tracks context (infer context more invocation) (enter (name :: active) invocation))

include nested

/-- A call that is not refused where some functions are being checked has the same outcome where
fewer of them are. -/
theorem tracks_follow {other : List String} (fewer : ∀ name ∈ other, name ∈ active)
    {name : String} (admitted : context.refuses active name = false) (types : List Ty) :
    Tracks context (infer context other (.call name types))
      (follow context enter active (.call name types)) := by
  have known : ∀ name, context.hasFunction name = context.hasFunction name := fun _ => rfl
  rw [infer_eq_follow]
  cases found : context.function? name with
  | none =>
    have undeclared : ¬ context.Declares (.call name types) := by simp [Context.Declares, found]
    rw [follow_of_not_declares undeclared, follow_of_not_declares undeclared]
    exact .pure _
  | some function =>
    have declared := Context.mem_names_of_function? found
    have within : ∀ candidate ∈ name :: other, candidate ∈ name :: active := by
      intro candidate member
      rcases List.mem_cons.mp member with rfl | further
      · exact List.mem_cons_self
      · exact List.mem_cons_of_mem _ (fewer candidate further)
    have around := (tracking context).rel_checkFunction known
      (nested declared admitted (name :: other) within) function types
    have alone := (tracking context).rel_checkFunction known
      (nested declared admitted [] fun _ member => absurd member List.not_mem_nil) function types
    have called : Tracks context (inCall name _) (inCall name _) := .inCall found around alone
    rw [follow_call found admitted,
      follow_call found (context.not_refuses_of_fewer fewer admitted), enterFunction,
      enterFunction, Context.name_of_function? found]
    exact called

end Follow

/-- The induction is on the number of calls that may still be nested. -/
theorem tracks_watchWithin (context : Context) {depth : Nat} {active other : List String}
    (fewer : ∀ name ∈ other, name ∈ active) (room : (context.unentered active).length ≤ depth)
    (invocation : Invocation) :
    Tracks context (infer context other invocation)
      (watchWithin context depth active invocation) := by
  induction depth generalizing active other invocation with
  | zero =>
    refine .notice (.pure _) fun name types same admitted => ?_
    subst same
    have undeclared : ¬ context.Declares (.call name types) := by
      intro declared
      obtain ⟨function, found⟩ := Option.isSome_iff_exists.mp declared
      have narrower := Context.length_unentered_cons_lt (Context.mem_names_of_function? found)
        (Context.not_mem_of_not_refuses admitted)
      omega
    rw [infer_eq_follow, follow_of_not_declares undeclared]
    exact .pure _
  | succ depth ih =>
    have nested : ∀ {name : String}, name ∈ context.names → context.refuses active name = false →
        ∀ more : List String, (∀ candidate ∈ more, candidate ∈ name :: active) → ∀ invocation,
        Tracks context (infer context more invocation)
          (watchWithin context depth (name :: active) invocation) := by
      intro name declared admitted more within
      have narrower := Context.length_unentered_cons_lt declared
        (Context.not_mem_of_not_refuses admitted)
      exact ih within (by omega)
    refine .notice (lengthens_follow (lengthens_watchWithin context depth) invocation)
      fun name types same admitted => ?_
    subst same
    exact tracks_follow nested fewer admitted types

theorem tracks_watch (context : Context) (invocation : Invocation) :
    Tracks context (infer context [] invocation) (watch context [] invocation) :=
  tracks_watchWithin context (fun _ member => member) (Nat.le_refl _) invocation

end Inference

/-! ## Analyses -/

namespace Checker

open Inference

/-- Before anything is checked, each function has a slot for each parameter. -/
theorem registers_register {checker : Checker} (fresh : checker.state.env = {})
    (program : Program) :
    Registers (checker.register program).context
      (checker.register program).state.env.table where
  declared name := (Context.function?_ofTable _ _ _ name).symm
  slots name entry found := by
    have member := List.mem_of_find?_eq_some found
    rw [table_register fresh, Program.functions_table] at member
    rcases SymbolTable.mem_of_mem_foldl_addNew _ _ member with none_ | added
    · cases none_
    · obtain ⟨function, _, rfl⟩ := List.mem_map.mp added
      exact List.map_map

/-- A check of the main body in which every call is followed leaves consistent entries. -/
theorem checked_of_granted {checker : Checker} (fresh : checker.state.env = {})
    (unvisited : checker.state.visited = .empty) (program : Program)
    (granted : ∀ demand ∈ (checker.trace program).demands, demand.Granted) :
    let after := (checker.trace program).state
    Registers (checker.register program).context after.env.table ∧
      ∀ name ∈ after.visited.names, Checked (checker.register program).context after.env.table
        name := by
  intro after
  let start := checker.register program
  let opened : Traced := { state := start.state.openScope .body }
  have tracks : Tracks start.context
      (checkBody start.context (infer start.context []) program.main.body)
      (checkBody start.context (watch start.context []) program.main.body) :=
    (tracking start.context).rel_checkBody (fun _ => rfl) (tracks_watch start.context) _
  have ran := tracks.agrees opened (Environment.sound_opened_body _)
    ((registers_register fresh program).congr rfl) granted
  refine ⟨ran.registers.congr rfl, fun name member => ?_⟩
  rcases ran.advances name member with checked | ⟨earlier, _⟩
  · exact checked
  · have none_ : opened.state.visited = .empty := unvisited
    rw [none_] at earlier
    cases earlier

end Checker

namespace Program

open Inference

/-- Without pointers, matches and call cycles, every call that inference reaches is followed. -/
theorem granted_trace {program : Program} {config : Config} (pointerFree : program.PointerFree)
    (matchFree : program.MatchFree) (checks : config.checksDependencies = true)
    (acyclic : (program.analyze config).cycles = []) :
    ∀ demand ∈ (program.trace config).demands, demand.Granted := by
  let analysis := program.analyze config
  have parts : analysis.program.parts = program.parts := (program.resolves_resolve _).parts_eq
  have bare : analysis.program.PointerFree := by rwa [PointerFree, parts]
  have matchless : analysis.program.MatchFree := by rwa [MatchFree, parts]
  let start := program.checker config
  intro demand member
  have permitted : (Licence.ofProgram analysis.program).Permits
      (start.register analysis.program).context demand :=
    start.permits_trace analysis.program (Checker.covers_ofProgram rfl analysis.program) _ member
  cases demand with
  | lookup name found => trivial
  | invoke stack invocation refused =>
    obtain ⟨nested, admitted, refusal⟩ := permitted
    cases invocation with
    | matching pattern type =>
      obtain ⟨position, argument, written⟩ := admitted.1
      cases matchless _ written
    | call callee types =>
      have unblocked : (start.register analysis.program).context.blocked = [] :=
        congrArg List.flatten acyclic
      have free : callee ∉ Owner.names stack := by
        intro entered
        have recursive : analysis.program.Recursive callee :=
          Licence.transGen_of_nested bare matchless nested admitted callee entered
        rw [← CallGraph.mem_cycles_ofProgram_iff, ← program.cycles_analyze checks,
          acyclic] at recursive
        obtain ⟨cycle, listed, _⟩ := recursive
        cases listed
      change refused = false
      rw [refusal, Context.refuses, unblocked, Bool.or_eq_false_iff]
      refine ⟨?_, by simp⟩
      rw [Bool.eq_false_iff, ne_eq, List.contains_iff_mem]
      exact free

theorem checked_of_visited {program : Program} {config : Config}
    (pointerFree : program.PointerFree) (matchFree : program.MatchFree)
    (checks : config.checksDependencies = true) (acyclic : (program.analyze config).cycles = []) :
    let analysis := program.analyze config
    let context := ((program.checker config).register analysis.program).context
    Registers context analysis.env.table ∧
      ∀ name ∈ analysis.visited.names, Checked context analysis.env.table name := by
  intro analysis context
  have fresh : (program.checker config).state.env = {} := rfl
  obtain ⟨registers, checked⟩ := Checker.checked_of_granted fresh rfl analysis.program
    (granted_trace pointerFree matchFree checks acyclic)
  obtain ⟨env, visited, _⟩ := program.keptBy_trace config
  rw [trace] at env visited
  rw [env] at registers checked
  rw [visited] at checked
  exact ⟨registers, checked⟩

end Program

end CallSite
