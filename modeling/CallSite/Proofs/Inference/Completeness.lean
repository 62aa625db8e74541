import CallSite.Proofs.CallGraph.Building
import CallSite.Proofs.Inference.Framing
import CallSite.Proofs.Inference.Realization
import CallSite.Proofs.Query.Independence

/-!
# Entries are untouched or complete

An analysis leaves no entry half written.  What it keeps of a function is kept at the end of a check
of this function, in a body whose variables begin with the parameters; so it is with a pattern and
its target.  A declaration is entered exactly when something is kept for it.  All this is read off
the events of a run, and the table is what the events leave of it.
-/

namespace CallSite

/-! ## Complete entries -/

/-- The entry has a slot for each parameter and the scope of a body, whose variables begin with the
parameters, each name once. -/
structure FunctionEntry.Complete (entry : FunctionEntry) : Prop where
  slots : entry.params.map (·.name) = entry.declaration.params.map (·.name.name)
  scope : ∃ scope, entry.scope = some scope ∧ scope.kind = .body ∧
    (entry.declaration.params.map (·.name.name)).eraseDups <+: scope.names

/-- The entry has a slot for the target and the scope of a body, whose first variable is the
target. -/
structure PatternEntry.Complete (entry : PatternEntry) : Prop where
  slot : entry.target.name = entry.declaration.target.name
  scope : ∃ scope, entry.scope = some scope ∧ scope.kind = .body ∧
    scope.names.head? = some entry.declaration.target.name

theorem FunctionEntry.eq_of_record {entry other : FunctionEntry}
    (declaration : entry.declaration = other.declaration)
    (record : Record.mk entry.params entry.returns entry.scope =
      ⟨other.params, other.returns, other.scope⟩) : entry = other := by
  cases entry
  cases other
  cases declaration
  cases record
  rfl

theorem PatternEntry.eq_of_record {entry other : PatternEntry}
    (declaration : entry.declaration = other.declaration)
    (record : Record.mk [entry.target] entry.value entry.scope =
      ⟨[other.target], other.value, other.scope⟩) : entry = other := by
  cases entry
  cases other
  cases declaration
  cases record
  rfl

/-! ## What a body begins with -/

namespace Frames

theorem map_headD (frames : Frames) :
    (frames.headD []).map (·.1) = frames.names.headD [] := by
  cases frames <;> rfl

/-- A declaration in a frame without repetitions adds the name at the end if it is new. -/
theorem names_declare {frames : Frames} {known : List String} {outer : List (List String)}
    (start : frames.names = known.eraseDups :: outer) (name : String) (type : Ty) :
    (frames.declare name type).names = (known ++ [name]).eraseDups :: outer := by
  cases frames with
  | nil => cases start
  | cons frame rest =>
    have here : frame.map (·.1) = known.eraseDups := (List.cons.inj start).1
    rw [CallGraph.eraseDups_concat, declare, innermostBinds, frame.binds_eq, here]
    by_cases member : name ∈ known.eraseDups
    · rw [if_pos (List.contains_iff_mem.mpr member), if_pos member, start]
    · rw [if_neg (mt List.contains_iff_mem.mp member), if_neg member, names_extend, start]
      rfl

end Frames

namespace Inference

section Bodies

variable (context : Context) {enter : Invocation → LocalM Ty}
  (still : ∀ invocation, Keeps id (enter invocation))

include still

theorem names_bindParams (params : List Param) (types : List Ty) {frames : Frames}
    {known : List String} {outer : List (List String)}
    (start : frames.names = known.eraseDups :: outer) :
    (bindParams context enter params types frames).frames.names =
      (known ++ params.map (·.name.name)).eraseDups :: outer := by
  induction params generalizing types frames known with
  | nil => rwa [List.map_nil, List.append_nil]
  | cons param params ih =>
    obtain ⟨name, default⟩ := param
    rw [List.map_cons, List.append_cons]
    cases types with
    | cons type types => exact ih types (Frames.names_declare start name.name type)
    | nil =>
      cases default with
      | none => exact ih [] (Frames.names_declare start name.name .unresolved)
      | some default =>
        have checked : (checkExpr context enter default frames).frames.names = _ :=
          (names_checkExpr still default frames).trans start
        exact ih [] (Frames.names_declare checked name.name _)

/-- The variables of a checked function begin with its parameters. -/
theorem names_checkFunction (function : Function) (types : List Ty) :
    (function.params.map (·.name.name)).eraseDups <+:
      ((checkFunction context enter function types [[]]).frames.headD []).map (·.1) := by
  have empty : Frames.names [[]] = [].eraseDups :: [] := rfl
  have bound : (bindParams context enter function.params types [[]]).frames.names = _ :=
    names_bindParams context still function.params types empty
  have known : ∀ name, context.hasFunction name = context.hasFunction name := fun _ => rfl
  have body := gaining.rel_checkBody known (gains_enter still) function.body
  have typing : (Problem.functionReturnsDiffer function.name.baseName).category = .typing := rfl
  have settled := fun returns =>
    gaining.rel_settle function.position (findsTyping_returnRule typing returns)
  obtain ⟨added, gained⟩ : Gains (bindParams context enter function.params types [[]]).frames
      (checkFunction context enter function types [[]]).frames := (body _).trans (settled _ _)
  rw [Frames.map_headD, gained, bound]
  exact List.prefix_append _ added

/-- The variables of a checked pattern begin with its target. -/
theorem names_checkPattern (pattern : Pattern) (type : Ty) :
    (((checkPattern context enter pattern type [[]]).frames.headD []).map (·.1)).head? =
      some pattern.target.name := by
  have known : ∀ name, context.hasFunction name = context.hasFunction name := fun _ => rfl
  have cases_ := gaining.rel_checkCases known (gains_enter still) pattern.conditions
  have outcome : ∀ (passed : Bool) (frames : Frames), Gains frames
      ((if passed then do
          let returns ← checkExprs context enter pattern.returns
          settle pattern.position
            (returnRule (.patternReturnsDiffer pattern.name.baseName) returns)
        else pure .noValue : LocalM Ty) frames).frames := by
    intro passed
    split
    · exact gaining.rel_bind (gaining.rel_checkExprs known (gains_enter still) pattern.returns)
        fun _ => gaining.rel_settle pattern.position (findsTyping_returnRule rfl _)
    · exact gaining.rel_pure Ty.noValue
  obtain ⟨added, gained⟩ : Gains [[(pattern.target.name, type)]]
      (checkPattern context enter pattern type [[]]).frames := (cases_ _).trans (outcome _ _)
  rw [Frames.map_headD, gained]
  rfl

end Bodies

/-! ## Orderly events -/

def Event.owner? : Event → Option Owner
  | keep owner _ _ _ => some owner
  | _ => none

/-- The owners that something is kept for. -/
def keptFor (events : List Event) : List Owner := events.filterMap Event.owner?

@[simp]
theorem keptFor_append (first second : List Event) :
    keptFor (first ++ second) = keptFor first ++ keptFor second :=
  List.filterMap_append

/-- What is kept in a whole check of a declaration. -/
theorem keptFor_enclose (events : List Event) (name : String) (owner : Owner) (types : List Ty)
    (result : Ty) (content : Frame) :
    keptFor (.enter name :: (events ++ [.keep owner types result content])) =
      keptFor events ++ [owner] :=
  keptFor_append events [.keep owner types result content]

/-- What an event owes to the context: no refused name is entered, and what is kept is that of a
declared function or pattern, with variables that begin with its parameters or its target. -/
def Event.Due (context : Context) : Event → Prop
  | report _ | keep .main _ _ _ => True
  | enter name => context.refuses [] name = false
  | keep (.function name) _ _ content => ∃ function, context.function? name = some function ∧
    (function.params.map (·.name.name)).eraseDups <+: content.map (·.1)
  | keep (.pattern name) _ _ content => ∃ pattern, context.pattern? name = some pattern ∧
    (content.map (·.1)).head? = some pattern.target.name

/-- All events are due, and exactly those declarations were entered that something is kept for. -/
structure Orderly (context : Context) (events : List Event) : Prop where
  due : ∀ event ∈ events, event.Due context
  entered : ∀ name, name ∈ entered events ↔ name ∈ Owner.names (keptFor events)

namespace Orderly

variable {context : Context}

theorem nil : Orderly context [] :=
  ⟨fun _ member => absurd member List.not_mem_nil, fun _ => Iff.rfl⟩

theorem append {first second : List Event} (early : Orderly context first)
    (late : Orderly context second) : Orderly context (first ++ second) where
  due := List.forall_mem_append.mpr ⟨early.due, late.due⟩
  entered name := by
    rw [Inference.entered, List.filterMap_append, List.mem_append, keptFor_append, Owner.names,
      List.filterMap_append, List.mem_append]
    exact or_congr (early.entered name) (late.entered name)

theorem report (diagnostic : Diagnostic) : Orderly context [.report diagnostic] :=
  ⟨List.forall_mem_singleton.mpr trivial, fun _ => Iff.rfl⟩

theorem keepMain (types : List Ty) (result : Ty) (content : Frame) :
    Orderly context [.keep .main types result content] :=
  ⟨List.forall_mem_singleton.mpr trivial, fun _ => Iff.rfl⟩

/-- The events of a whole check of a declaration. -/
theorem enclose {events : List Event} (inner : Orderly context events) {owner : Owner}
    {name : String} (named : owner.name? = some name)
    (admitted : context.refuses [] name = false) {types : List Ty} {result : Ty} {content : Frame}
    (due : (Event.keep owner types result content).Due context) :
    Orderly context (.enter name :: (events ++ [.keep owner types result content])) where
  due := by
    refine List.forall_mem_cons.mpr ⟨admitted, List.forall_mem_append.mpr ⟨inner.due, ?_⟩⟩
    exact List.forall_mem_singleton.mpr due
  entered other := by
    have enters : Inference.entered
        (.enter name :: (events ++ [.keep owner types result content])) =
          name :: Inference.entered events := by
      simp [Inference.entered, Event.entered?]
    rw [enters, keptFor_enclose, Owner.names, List.filterMap_append, List.mem_cons, List.mem_append,
      inner.entered other, or_comm]
    simp [Owner.names, named, eq_comm]

end Orderly

/-- The events of every check are orderly. -/
def ordering (context : Context) : BodySimulation LocalM LocalM where
  rel left _ := ∀ frames, Orderly context (left frames).events
  rel_pure _ _ := .nil
  rel_bind first second frames := (first frames).append (second _ _)
  rel_report _ _ _ _ := .report _
  rel_typeOf _ _ := .nil
  rel_declare _ _ _ := .nil
  rel_assign _ _ _ := .nil
  rel_rebind _ _ _ := .nil
  rel_inBranch inner frames := inner ([] :: frames)

theorem frames_inferWithin (context : Context) (depth : Nat) (active : List String)
    (invocation : Invocation) : Keeps id (inferWithin context depth active invocation) := by
  cases depth with
  | zero => exact .pure _
  | succ depth => exact frames_follow context _ active invocation

theorem orderly_inferWithin (context : Context) (depth : Nat) (active : List String)
    (invocation : Invocation) :
    (ordering context).rel (inferWithin context depth active invocation)
      (inferWithin context depth active invocation) := by
  induction depth generalizing active invocation with
  | zero => exact fun _ => .nil
  | succ depth ih =>
    have known : ∀ name, context.hasFunction name = context.hasFunction name := fun _ => rfl
    have none_ : ∀ name ∈ [], name ∈ active := fun _ member => absurd member List.not_mem_nil
    have still := fun name => frames_inferWithin context depth (name :: active)
    refine (ordering context).rel_follow (fun _ => rfl) (fun _ => rfl) (fun _ => rfl) ?_ ?_
      invocation
    · intro name function types found refused frames
      have inner := (ordering context).rel_checkFunction known (ih (name :: active)) function types
      have begins := names_checkFunction context (still name) function types
      rw [enterFunction, Context.name_of_function? found, events_inCall]
      exact (inner [[]]).enclose rfl (context.not_refuses_of_fewer none_ refused)
        ⟨function, found, begins⟩
    · intro name pattern type found refused frames
      have inner := (ordering context).rel_checkPattern known (ih (name :: active)) pattern type
      have begins := names_checkPattern context (still name) pattern type
      rw [enterPattern, Context.name_of_pattern? found, events_inMatch]
      exact (inner [[]]).enclose rfl (context.not_refuses_of_fewer none_ refused)
        ⟨pattern, found, begins⟩

theorem orderly_mainEvents (context : Context) (body : List Stmt) :
    Orderly context (mainEvents context body) := by
  have known : ∀ name, context.hasFunction name = context.hasFunction name := fun _ => rfl
  have followed := orderly_inferWithin context (context.unentered []).length []
  have checked := (ordering context).rel_checkBody known followed body
  rw [mainEvents, checkMain, events_inMain]
  exact ((checked [[]]).append .nil).append (.keepMain _ _ _)

/-! ## What orderly events leave -/

theorem mem_entered_iff {events : List Event} {name : String} :
    name ∈ entered events ↔ .enter name ∈ events := by
  rw [entered, List.mem_filterMap]
  constructor
  · rintro ⟨event, member, named⟩
    cases event with
    | enter other =>
      cases named
      exact member
    | _ => cases named
  · exact fun member => ⟨_, member, rfl⟩

theorem isSome_lastContent_iff {owner : Owner} {events : List Event} :
    (lastContent owner events).isSome ↔ owner ∈ keptFor events := by
  induction events with
  | nil => simp [lastContent, keptFor]
  | cons event events ih =>
    rw [lastContent, Option.isSome_or, Bool.or_eq_true, ih]
    cases event with
    | keep kept types result content =>
      by_cases same : kept = owner
      · simp [Event.content?, keptFor, Event.owner?, same]
      · simp [Event.content?, keptFor, Event.owner?, same, Ne.symm same]
    | _ => simp [Event.content?, keptFor, Event.owner?]

theorem keep_mem_of_lastContent {owner : Owner} {events : List Event} {content : Frame}
    (last : lastContent owner events = some content) :
    ∃ types result, .keep owner types result content ∈ events := by
  induction events with
  | nil => cases last
  | cons event events ih =>
    rw [lastContent, Option.or_eq_some_iff] at last
    rcases last with later | ⟨_, here⟩
    · obtain ⟨types, result, member⟩ := ih later
      exact ⟨types, result, List.mem_cons_of_mem event member⟩
    · cases event with
      | keep kept types result frame =>
        rw [Event.content?] at here
        split at here
        · next same =>
          cases here
          exact ⟨types, result, same ▸ List.mem_cons_self⟩
        · cases here
      | _ => cases here

theorem map_name_written (owner : Owner) (events : List Event) (record : Record) :
    (written owner events record).slots.map (·.name) = record.slots.map (·.name) := by
  induction events generalizing record with
  | nil => rfl
  | cons event events ih =>
    have first : (event.write owner record).slots.map (·.name) = record.slots.map (·.name) := by
      cases event with
      | keep kept types result content =>
        by_cases same : kept = owner <;> simp [Event.write, Record.fill, same]
      | _ => rfl
    exact (ih _).trans first

/-- A record is as it was, or it was written at the end of a body and has the variables of it. -/
theorem Leaves.record_cases {apart : Scope → Prop} {events : List Event} {before after : State}
    (leaves : Leaves apart events before after) {owner : Owner} {record : Record}
    (found : after.env.table.record? owner = some record) :
    ∃ old, before.env.table.record? owner = some old ∧
      (owner ∉ keptFor events ∧ record = old ∨
        ∃ types result content scope, .keep owner types result content ∈ events ∧
          record.slots.map (·.name) = old.slots.map (·.name) ∧ record.scope = some scope ∧
          scope.kind = .body ∧ scope.names = content.map (·.1)) := by
  have kept := leaves.records owner
  unfold Kept at kept
  cases last : lastContent owner events with
  | none =>
    simp only [last] at kept
    have unkept : owner ∉ keptFor events := by
      rw [← isSome_lastContent_iff, last]
      decide
    exact ⟨record, kept.symm.trans found, .inl ⟨unkept, rfl⟩⟩
  | some content =>
    simp only [last] at kept
    obtain ⟨scope, written_, holds, _⟩ := kept
    obtain ⟨old, stored, same⟩ := Option.map_eq_some_iff.mp (written_.symm.trans found)
    obtain ⟨types, result, member⟩ := keep_mem_of_lastContent last
    refine ⟨old, stored, .inr ⟨types, result, content, scope, member, ?_, ?_, holds.kind, ?_⟩⟩
    · rw [← same]
      exact map_name_written owner events old
    · rw [← same]
      rfl
    · rw [← holds.frame, Scope.map_fst_frame]

section Entries

variable {program : Program} {blocked : List String} {infersCyclic : Bool} {events : List Event}
  {sink : Sink} {apart : Scope → Prop} {after : State}
  (leaves : Leaves apart events { env := { table := program.table }, sink := sink } after)
  (orderly : Orderly (.ofTable program.table blocked infersCyclic) events)

include leaves orderly

/-- The entry of a function is as it was registered, or complete. -/
theorem function_cases {name : String} {entry : FunctionEntry}
    (found : after.env.table.function? name = some entry) :
    .function name ∉ keptFor events ∧ entry = .fresh entry.declaration ∨
      .function name ∈ keptFor events ∧ entry.Complete := by
  have recorded : after.env.table.record? (.function name) =
      some ⟨entry.params, entry.returns, entry.scope⟩ := by
    rw [SymbolTable.record?, found]
    rfl
  have declared : (program.table.function? name).map (·.declaration) =
      some entry.declaration := by
    rw [SymbolTable.map_declaration_function?, ← leaves.functions,
      ← SymbolTable.map_declaration_function?, found]
    rfl
  obtain ⟨old, stored, same⟩ := Option.map_eq_some_iff.mp declared
  obtain ⟨function, _, rfl⟩ :=
    Program.fresh_of_mem_functions_table (List.mem_of_find?_eq_some stored)
  obtain rfl : function = entry.declaration := same
  obtain ⟨before, registered, outcome⟩ := leaves.record_cases recorded
  rw [SymbolTable.record?, stored] at registered
  cases registered
  rcases outcome with ⟨unkept, unchanged⟩ |
    ⟨types, result, content, scope, member, slots, kept, kind, names⟩
  · exact .inl ⟨unkept, FunctionEntry.eq_of_record rfl unchanged⟩
  · obtain ⟨function, known, begins⟩ := orderly.due _ member
    rw [Context.function?_ofTable, declared] at known
    cases known
    refine .inr ⟨List.mem_filterMap.mpr ⟨_, member, rfl⟩, ?_, scope, kept, kind, ?_⟩
    · exact slots.trans List.map_map
    · rwa [names]

/-- The entry of a pattern is as it was registered, or complete. -/
theorem pattern_cases {name : String} {entry : PatternEntry}
    (found : after.env.table.pattern? name = some entry) :
    .pattern name ∉ keptFor events ∧ entry = .fresh entry.declaration ∨
      .pattern name ∈ keptFor events ∧ entry.Complete := by
  have recorded : after.env.table.record? (.pattern name) =
      some ⟨[entry.target], entry.value, entry.scope⟩ := by
    rw [SymbolTable.record?, found]
    rfl
  have declared : (program.table.pattern? name).map (·.declaration) =
      some entry.declaration := by
    rw [SymbolTable.map_declaration_pattern?, ← leaves.patterns,
      ← SymbolTable.map_declaration_pattern?, found]
    rfl
  obtain ⟨old, stored, same⟩ := Option.map_eq_some_iff.mp declared
  obtain ⟨pattern, _, rfl⟩ :=
    Program.fresh_of_mem_patterns_table (List.mem_of_find?_eq_some stored)
  obtain rfl : pattern = entry.declaration := same
  obtain ⟨before, registered, outcome⟩ := leaves.record_cases recorded
  rw [SymbolTable.record?, stored] at registered
  cases registered
  rcases outcome with ⟨unkept, unchanged⟩ |
    ⟨types, result, content, scope, member, slots, kept, kind, names⟩
  · exact .inl ⟨unkept, PatternEntry.eq_of_record rfl unchanged⟩
  · obtain ⟨pattern, known, begins⟩ := orderly.due _ member
    rw [Context.pattern?_ofTable, declared] at known
    cases known
    refine .inr ⟨List.mem_filterMap.mpr ⟨_, member, rfl⟩, ?_, scope, kept, kind, ?_⟩
    · exact List.singleton_inj.mp slots
    · rwa [names]

omit orderly in
theorem function?_of_mem {entry : FunctionEntry} (member : entry ∈ after.env.table.functions) :
    after.env.table.function? entry.name = some entry := by
  have names : after.env.table.functions.map (·.name) = program.table.functions.map (·.name) := by
    have declarations := congrArg (List.map (·.name.name)) leaves.functions
    rwa [List.map_map, List.map_map] at declarations
  refine SymbolTable.find?_of_mem _ ?_ member
  rw [names]
  exact program.nodup_functions_table

omit orderly in
theorem pattern?_of_mem {entry : PatternEntry} (member : entry ∈ after.env.table.patterns) :
    after.env.table.pattern? entry.name = some entry := by
  have names : after.env.table.patterns.map (·.name) = program.table.patterns.map (·.name) := by
    have declarations := congrArg (List.map (·.name.name)) leaves.patterns
    rwa [List.map_map, List.map_map] at declarations
  refine SymbolTable.find?_of_mem _ ?_ member
  rw [names]
  exact program.nodup_patterns_table

/-- Whatever was entered has a complete entry. -/
theorem exists_complete {name : String} (reached : name ∈ entered events) :
    (∃ entry ∈ after.env.table.functions, entry.name = name ∧ entry.Complete) ∨
      ∃ entry ∈ after.env.table.patterns, entry.name = name ∧ entry.Complete := by
  obtain ⟨owner, kept, named⟩ := List.mem_filterMap.mp ((orderly.entered name).mp reached)
  obtain ⟨event, member, owned⟩ := List.mem_filterMap.mp kept
  have due := orderly.due event member
  cases event with
  | report | enter => cases owned
  | keep kept_ types result content =>
    cases owned
    cases owner with
    | main => cases named
    | function other =>
      cases named
      obtain ⟨function, known, _⟩ := due
      rw [Context.function?_ofTable, SymbolTable.map_declaration_function?, ← leaves.functions,
        ← SymbolTable.map_declaration_function?] at known
      obtain ⟨entry, found, _⟩ := Option.map_eq_some_iff.mp known
      have complete := (function_cases leaves orderly found).resolve_left fun fresh => fresh.1 kept
      exact .inl ⟨entry, List.mem_of_find?_eq_some found, by simpa using List.find?_some found,
        complete.2⟩
    | pattern other =>
      cases named
      obtain ⟨pattern, known, _⟩ := due
      rw [Context.pattern?_ofTable, SymbolTable.map_declaration_pattern?, ← leaves.patterns,
        ← SymbolTable.map_declaration_pattern?] at known
      obtain ⟨entry, found, _⟩ := Option.map_eq_some_iff.mp known
      have complete := (pattern_cases leaves orderly found).resolve_left fun fresh => fresh.1 kept
      exact .inr ⟨entry, List.mem_of_find?_eq_some found, by simpa using List.find?_some found,
        complete.2⟩

end Entries

end Inference

namespace Program

open Inference

/-- The events of the check in an analysis. -/
def events (program : Program) (config : Config) : List Event :=
  let analysis := program.analyze config
  mainEvents (.ofTable analysis.program.table analysis.cycles.flatten config.infersCyclic)
    analysis.program.main.body

theorem leaves_analyze (program : Program) (config : Config) :
    let analysis := program.analyze config
    let start := (program.checker config).state
    ∃ last : Sink, last.recorded = analysis.diagnostics ∧
      Leaves (fun _ => True) (program.events config)
        { env := { table := analysis.program.table }, sink := start.sink }
        ⟨analysis.env, analysis.visited, last⟩ :=
  ⟨_, rfl, (program.analyze config).program.leaves_inferTypes config _ _⟩

/-- The visited declarations are those that were entered. -/
theorem mem_visited_iff (program : Program) (config : Config) (name : String) :
    name ∈ (program.analyze config).visited.names ↔ name ∈ entered (program.events config) := by
  obtain ⟨last, _, leaves⟩ := program.leaves_analyze config
  have visited : (program.analyze config).visited = _ := leaves.visited
  rw [visited, NameSet.mem_foldl_insert]
  exact or_iff_left List.not_mem_nil

/-- No entry is left half written.  After an analysis no scope is open and the scope of the main
body is kept.  The table has the declarations that were registered.  Every entry is as it was then,
or it is complete and its name was visited; and every visited name has a complete entry.  Unless
cyclic functions are inferred, no name on a cycle was visited. -/
theorem entries_untouched_or_complete (program : Program) (config : Config) :
    let analysis := program.analyze config
    let table := analysis.env.table
    table.scopes = [] ∧
      (∃ scope, table.mainScope = some scope ∧ scope.kind = .body) ∧
      table.functions.map (·.declaration) = analysis.program.table.functions.map (·.declaration) ∧
      table.patterns.map (·.declaration) = analysis.program.table.patterns.map (·.declaration) ∧
      (∀ entry ∈ table.functions, entry = .fresh entry.declaration ∨
        entry.name ∈ analysis.visited.names ∧ entry.Complete) ∧
      (∀ entry ∈ table.patterns, entry = .fresh entry.declaration ∨
        entry.name ∈ analysis.visited.names ∧ entry.Complete) ∧
      (∀ name ∈ analysis.visited.names,
        (∃ entry ∈ table.functions, entry.name = name ∧ entry.Complete) ∨
          ∃ entry ∈ table.patterns, entry.name = name ∧ entry.Complete) ∧
      (config.infersCyclic = false →
        ∀ cycle ∈ analysis.cycles, ∀ name ∈ cycle, name ∉ analysis.visited.names) := by
  intro analysis table
  have visited := program.mem_visited_iff config
  let context := Context.ofTable analysis.program.table analysis.cycles.flatten config.infersCyclic
  have orderly : Orderly context (program.events config) := orderly_mainEvents _ _
  have visited_of_kept : ∀ {owner name}, owner ∈ keptFor (program.events config) →
      owner.name? = some name → name ∈ analysis.visited.names := by
    intro owner name kept named
    exact (visited name).mpr ((orderly.entered name).mpr (List.mem_filterMap.mpr ⟨_, kept, named⟩))
  obtain ⟨last, _, leaves⟩ := program.leaves_analyze config
  have ends := program.ends_analyze config
  refine ⟨ends.scopes, ?_, leaves.functions, leaves.patterns, ?_, ?_, ?_, ?_⟩
  · obtain ⟨scope, kept, holds⟩ := ends.main
    exact ⟨scope, kept, holds.kind⟩
  · intro entry member
    rcases function_cases leaves orderly (function?_of_mem leaves member) with
      ⟨_, fresh⟩ | ⟨kept, complete⟩
    · exact .inl fresh
    · exact .inr ⟨visited_of_kept kept rfl, complete⟩
  · intro entry member
    rcases pattern_cases leaves orderly (pattern?_of_mem leaves member) with
      ⟨_, fresh⟩ | ⟨kept, complete⟩
    · exact .inl fresh
    · exact .inr ⟨visited_of_kept kept rfl, complete⟩
  · exact fun name reached => exists_complete leaves orderly ((visited name).mp reached)
  · intro strict cycle listed name member reached
    have admitted : context.refuses [] name = false :=
      orderly.due _ (mem_entered_iff.mp ((visited name).mp reached))
    have blocked : name ∈ analysis.cycles.flatten := List.mem_flatten.mpr ⟨cycle, listed, member⟩
    simp [context, Context.refuses, Context.ofTable, strict, blocked] at admitted

/-- A function with two parameters of one name, one that calls itself and one that is not called,
with a pattern that is matched with the outcome of the first. -/
def repeatedNames : Program where
  functions := [
    .ofName ⟨"pick", .atLine 1⟩ [⟨⟨"a", .atLine 1⟩, none⟩, ⟨⟨"b", .atLine 1⟩, none⟩,
      ⟨⟨"a", .atLine 1⟩, none⟩] [.assign (.atLine 2) "c" none .set (.var (.atLine 2) "b"),
        .ret (.atLine 3) (some (.var (.atLine 3) "a"))],
    .ofName ⟨"spin", .atLine 4⟩ []
      [.expr (.atLine 5) (.call (.atLine 5) (.var (.atLine 5) "spin") [])],
    .ofName ⟨"idle", .atLine 6⟩ [⟨⟨"x", .atLine 6⟩, none⟩] []]
  patterns := [.ofCases ⟨"sign", .atLine 7⟩ ⟨"n", .atLine 7⟩
    [(.binary (.atLine 8) .eq (.var (.atLine 8) "n") (.int (.atLine 8) 0), .int (.atLine 8) 0)]]
  main := ⟨[.put (.atLine 9) (.matching (.atLine 9) "sign" (.call (.atLine 9)
      (.var (.atLine 9) "pick") [.int (.atLine 9) 1, .bool (.atLine 9) true, .int (.atLine 9) 2])),
    .expr (.atLine 10) (.call (.atLine 10) (.var (.atLine 10) "spin") [])], .atLine 9⟩

theorem repeatedNames_entries :
    let analysis := repeatedNames.analyze {}
    let table := analysis.env.table
    ({} : Config).infersCyclic = false ∧ ["spin"] ∈ analysis.cycles ∧
      "spin" ∉ analysis.visited.names ∧ "pick" ∈ analysis.visited.names ∧
      ((∃ entry ∈ table.functions, entry.name = "pick" ∧ entry.Complete) ∨
        ∃ entry ∈ table.patterns, entry.name = "pick" ∧ entry.Complete) := by
  intro analysis table
  obtain ⟨_, _, _, _, _, _, complete, acyclic⟩ := entries_untouched_or_complete repeatedNames {}
  have cycle : ["spin"] ∈ analysis.cycles := by decide +kernel
  have reached : "pick" ∈ analysis.visited.names := by decide +kernel
  exact ⟨rfl, cycle, acyclic rfl _ cycle _ List.mem_cons_self, reached, complete "pick" reached⟩

end Program

end CallSite
