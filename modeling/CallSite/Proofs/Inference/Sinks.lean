import CallSite.Inference.Simulation
import CallSite.Proofs.Resolution.Recovery
import CallSite.Analysis

/-!
# Sinks do not matter

No pass reads what was recorded.  An action whose result, environment and visited names are the same
for every sink only hands a sequence of reports to the sink, and this sequence is the same for every
sink too.  All of inference is such an action, and so is a whole analysis: to deduplicate changes
the list of diagnostics and nothing else.
-/

namespace CallSite

namespace Inference

/-- The action does the same on every sink, and hands the same reports to it. -/
def Blind {α : Type} (action : CheckM α) : Prop :=
  ∀ (env : Environment) (visited : NameSet),
    ∃ (value : α) (after : Environment) (entered : NameSet) (reports : List Diagnostic),
      ∀ sink : Sink, action.run ⟨env, visited, sink⟩ =
        (value, ⟨after, entered, sink.reportAll reports⟩)

namespace Blind

variable {α β : Type}

theorem pure (value : α) : Blind (Pure.pure value) :=
  fun env visited => ⟨value, env, visited, [], fun _ => rfl⟩

theorem bind {action : CheckM α} {next : α → CheckM β} (first : Blind action)
    (second : ∀ value, Blind (next value)) : Blind (action >>= next) := by
  intro env visited
  obtain ⟨value, between, entered, early, ran⟩ := first env visited
  obtain ⟨result, after, later, late, next_⟩ := second value between entered
  refine ⟨result, after, later, early ++ late, fun sink => ?_⟩
  change (next (action.run ⟨env, visited, sink⟩).1).run (action.run ⟨env, visited, sink⟩).2 = _
  rw [ran, next_, Sink.reportAll_append]

theorem report (problem : Problem) (position : Position) :
    Blind (Inference.report problem position : CheckM Unit) :=
  fun env visited => ⟨(), env, visited, [⟨problem, position⟩], fun _ => rfl⟩

/-- A change that carries the sink along. -/
theorem change {result : State → α × State}
    (apart : ∀ env visited sink, result ⟨env, visited, sink⟩ =
      let (value, state) := result ⟨env, visited, .plain⟩
      (value, { state with sink := sink })) :
    Blind (modifyGet result : CheckM α) :=
  fun env visited => ⟨_, _, _, [], apart env visited⟩

theorem inScope (kind : ScopeKind) {action : CheckM α} (inner : Blind action) :
    Blind (CheckM.inScope kind action) :=
  bind (change fun _ _ _ => rfl) fun _ => inner.bind fun result =>
    bind (change fun _ _ _ => rfl) fun scope => pure (result, scope)

/-- An action in the scope of a declaration, which is noted before and recorded after. -/
theorem during {β : Type} (name : String) {action : CheckM α} (inner : Blind action)
    (record : α → Option Scope → State → State) (value : α → β)
    (apart : ∀ result scope env visited sink, record result scope ⟨env, visited, sink⟩ =
      { record result scope ⟨env, visited, .plain⟩ with sink := sink }) :
    Blind (do
      modify (·.visit name)
      let (result, scope) ← CheckM.inScope .body action
      modify (record result scope)
      Pure.pure (value result) : CheckM β) :=
  bind (change fun _ _ _ => rfl) fun _ => (inner.inScope .body).bind fun (result, scope) =>
    bind (change fun env visited sink => congrArg (Prod.mk _) (apart result scope env visited sink))
      fun _ => pure (value result)

end Blind

/-- Inference does the same on every sink. -/
def blind : Simulation CheckM CheckM where
  rel left _ := Blind left
  rel_pure := .pure
  rel_bind first second := first.bind second
  rel_report problem position _ := .report problem position
  rel_typeOf name env visited :=
    ⟨(env.typeOf? name).getD .unresolved, env, visited, [], fun _ => rfl⟩
  rel_declare _ _ := .change fun _ _ _ => rfl
  rel_assign _ _ := .change fun _ _ _ => rfl
  rel_rebind _ _ := .change fun _ _ _ => rfl
  rel_inBranch inner := (Blind.inScope .branch inner).bind fun result => .pure result.1
  rel_inCall function _ _ inner := Blind.during function inner
    (fun result scope state => state.recordCall function result.1 result.2 scope) (·.2)
    fun _ _ _ _ _ => rfl
  rel_inMatch pattern type _ _ inner := Blind.during pattern inner
    (fun value scope state => state.recordMatch pattern type value scope) id fun _ _ _ _ _ => rfl
  rel_inMain inner := (Blind.inScope .body inner).bind fun _ => .change fun _ _ _ => rfl

theorem blind_checkExpr (context : Context) (active : List String) (expression : Expr) :
    Blind (checkExpr context (infer context active) expression : CheckM Ty) :=
  blind.rel_checkExpr (fun _ => rfl) (blind.rel_infer context active) expression

theorem blind_checkMain (context : Context) (body : List Stmt) :
    Blind (checkMain context (infer context []) body : CheckM Unit) :=
  blind.rel_checkMain context (blind.rel_infer context []) body

/-- Two states that differ at most in their sinks. -/
structure SameButSink (one other : State) : Prop where
  env : one.env = other.env
  visited : one.visited = other.visited

/-- Two runs of such an action on different sinks. -/
theorem Blind.same {α : Type} {action : CheckM α} (blind : Blind action) (state : State)
    (one other : Sink) :
    let first := action.run { state with sink := one }
    let second := action.run { state with sink := other }
    first.1 = second.1 ∧ SameButSink first.2 second.2 := by
  obtain ⟨value, after, entered, reports, ran⟩ := blind state.env state.visited
  intro first second
  have ofFirst : first = _ := ran one
  have ofSecond : second = _ := ran other
  rw [ofFirst, ofSecond]
  exact ⟨rfl, rfl, rfl⟩

end Inference

namespace Program

open Inference

theorem inferTypes_eq (program : Program) (config : Config) (cycles : List (List String)) :
    ∃ (env : Environment) (visited : NameSet) (reports : List Diagnostic), ∀ sink,
      (program.inferTypes config cycles sink).state = ⟨env, visited, sink.reportAll reports⟩ := by
  let checker : Checker := { state := { sink := .plain }, infersCyclic := config.infersCyclic }
  let start := (checker.block cycles).register program
  obtain ⟨_, env, visited, reports, ran⟩ :=
    blind_checkMain start.context program.main.body start.state.env start.state.visited
  exact ⟨env, visited, reports, fun sink => congrArg Prod.snd (ran sink)⟩

/-- An analysis hands the same reports to its sink whether it deduplicates or not, and does the same
otherwise. -/
theorem analyze_eq (program : Program) (config : Config) :
    ∃ (analysis : Analysis) (reports : List Diagnostic), ∀ deduplicates,
      program.analyze { config with deduplicates := deduplicates } = { analysis with
        diagnostics := ((Sink.recording deduplicates).reportAll reports).recorded } := by
  let resolved := program.recovered
  let cycles := resolved.cyclesUnder config
  obtain ⟨env, visited, late, inferred⟩ := resolved.inferTypes_eq config cycles
  obtain ⟨early, resolution⟩ : ∃ early, ∀ sink, program.resolve sink =
      (resolved, sink.reportAll early) := ⟨_, program.resolve_eq⟩
  let between := cycles.map resolved.cycleDiagnostic
  refine ⟨⟨resolved, env, [], cycles, visited⟩, early ++ (between ++ late), fun deduplicates => ?_⟩
  have state := inferred (((Sink.recording deduplicates).reportAll early).reportAll between)
  rw [analyze, resolution, Sink.reportAll_append, Sink.reportAll_append]
  exact congrArg (fun state : State =>
    (⟨resolved, state.env, state.sink.recorded, cycles, state.visited⟩ : Analysis)) state

/-- To deduplicate removes from the diagnostics those that are equal to an earlier one and changes
nothing else.  Nor does it matter to a check of a program or of an expression what the sink does:
it finds the same types, leaves the same table and enters the same declarations. -/
theorem sinks_do_not_matter (program : Program) (config : Config) :
    let every := program.analyze { config with deduplicates := false }
    program.analyze { config with deduplicates := true } =
        { every with diagnostics := every.diagnostics.eraseDups } ∧
      (∀ (checker : Checker) (one other : Sink),
        SameButSink ({ checker with state.sink := one }.checkProgram program).state
          ({ checker with state.sink := other }.checkProgram program).state) ∧
      ∀ (context : Context) (active : List String) (expression : Expr) (state : State)
        (one other : Sink),
        let check : CheckM Ty := checkExpr context (infer context active) expression
        let first := check.run { state with sink := one }
        let second := check.run { state with sink := other }
        first.1 = second.1 ∧ SameButSink first.2 second.2 := by
  intro every
  refine ⟨?_, ?_, ?_⟩
  · obtain ⟨analysis, reports, same⟩ := program.analyze_eq config
    have plain : ((Sink.recording false).reportAll reports).recorded = reports :=
      congrArg Sink.recorded (Sink.reportAll_plain reports)
    have distinct : ((Sink.recording true).reportAll reports).recorded = reports.eraseDups :=
      congrArg Sink.recorded (Sink.reportAll_distinct reports)
    simp only [every, same, plain, distinct]
  · intro checker one other
    have main := blind_checkMain (checker.register program).context program.main.body
    exact (main.same (checker.register program).state one other).2
  · intro context active expression
    exact (blind_checkExpr context active expression).same

end Program

end CallSite
