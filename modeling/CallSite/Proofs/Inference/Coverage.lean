import CallSite.Proofs.Inference.Thoroughness
import CallSite.Proofs.Resolution.Recovery

/-!
# What inference covers

Of direct code inference follows every call by name and every match, unless something is reported.
What it follows is checked to its end, or it is being checked already, and then something is kept
for it later.  So an analysis without diagnostics visits all that the main body reaches, and no
analysis visits anything else.
-/

namespace CallSite

namespace Inference

open CallSite.Expr (mentionsIn)

/-! ## Entering a declaration -/

/-- Where no function and pattern share a name, a declaration is known by its name. -/
theorem eq_of_name?_eq {program : Program}
    (apart : ∀ name ∈ program.functionNames, name ∉ program.patternNames) {one other : Owner}
    (first : one.DeclaredIn program) (second : other.DeclaredIn program)
    (same : one.name? = other.name?) : one = other := by
  cases one with
  | main => cases first
  | function name =>
    cases other with
    | main => cases second
    | function other => exact congrArg Owner.function (Option.some.inj same)
    | pattern other =>
      cases same
      exact absurd second (apart name first)
  | pattern name =>
    cases other with
    | main => cases second
    | function other =>
      cases same
      exact absurd first (apart name second)
    | pattern other => exact congrArg Owner.pattern (Option.some.inj same)

theorem reports_enclose (events : List Event) (name : String) (owner : Owner) (types : List Ty)
    (result : Ty) (content : Frame) :
    reports (.enter name :: (events ++ [.keep owner types result content])) = reports events :=
  List.filterMap_append.trans (List.append_nil _)

section Enter

variable {program : Program} {active : List String} {name : String}

/-- To enter a function gets it done, when its code is checked without skipping anything. -/
theorem Fulfils.inCall
    (only : ∀ item : Owner, item.DeclaredIn program → item.name? = some name →
      item = .function name)
    {action : LocalM (List Ty × Ty)}
    (inner : Fulfils program (name :: active) (mentionsIn (program.partsOf (.function name)))
      action) : Fulfils program active [.function name] (Inference.inCall name action) := by
  intro frames nothing
  rw [events_inCall] at nothing ⊢
  rw [reports_enclose] at nothing
  exact .enclose only (inner [[]] nothing)

theorem Fulfils.inMatch
    (only : ∀ item : Owner, item.DeclaredIn program → item.name? = some name →
      item = .pattern name)
    (type : Ty) {action : LocalM Ty}
    (inner : Fulfils program (name :: active) (mentionsIn (program.partsOf (.pattern name)))
      action) : Fulfils program active [.pattern name] (Inference.inMatch name type action) := by
  intro frames nothing
  rw [events_inMatch] at nothing ⊢
  rw [reports_enclose] at nothing
  exact .enclose only (inner [[]] nothing)

end Enter

/-! ## Whole runs -/

section Whole

variable {program : Program} {context : Context} (presents : context.Presents program)
  (unblocked : ∀ name, context.refuses [] name = false)
  (apart : ∀ name ∈ program.functionNames, name ∉ program.patternNames) (direct : program.Direct)

include presents unblocked apart direct

/-- What one invocation leads to gets done when nested invocations are heeded. -/
theorem fulfils_follow {active : List String} {enter : List String → Invocation → LocalM Ty}
    (inner : ∀ name ∈ context.names, name ∉ active →
      Heeds program context (name :: active) (enter (name :: active)))
    (invocation : Invocation) :
    Fulfils program active [invocation.owner] (follow context enter active invocation) := by
  by_cases declared : context.Declares invocation
  case neg =>
    rw [follow_of_not_declares declared]
    exact .undeclared ((presents.declares_iff invocation).not.mp declared) (.pure _)
  cases refused : context.refuses active invocation.name with
  | true =>
    have beingChecked : invocation.name ∈ active := by
      have free := unblocked invocation.name
      rw [Context.refuses, Bool.or_eq_false_iff] at free
      rwa [Context.refuses, free.2, Bool.or_false, List.contains_iff_mem] at refused
    rw [follow_of_refuses refused]
    refine fun frames _ => ⟨fun item member _ => .inr ⟨_, beingChecked, ?_⟩, Thorough.nil.closed⟩
    rw [List.mem_singleton.mp member, invocation.name?_owner]
  | false =>
    have free := Context.not_mem_of_not_refuses refused
    have only : ∀ item, item.DeclaredIn program → item.name? = some invocation.name →
        item = invocation.owner := by
      intro item there named
      exact eq_of_name?_eq apart there ((presents.declares_iff invocation).mp declared)
        (named.trans invocation.name?_owner.symm)
    cases invocation with
    | call name types =>
      obtain ⟨function, found⟩ := Option.isSome_iff_exists.mp declared
      have heeds := inner name (Context.mem_names_of_function? found) free
      have member := List.mem_of_find?_eq_some ((presents.functions name).symm.trans found)
      have checked := fulfils_checkFunction heeds (direct.params _ member)
        (direct.functions _ member) types
      rw [← presents.partsOf_function found] at checked
      rw [follow_call found refused, enterFunction, Context.name_of_function? found]
      exact .inCall only checked
    | matching name type =>
      obtain ⟨pattern, found⟩ := Option.isSome_iff_exists.mp declared
      have heeds := inner name (Context.mem_names_of_pattern? found) free
      have member := List.mem_of_find?_eq_some ((presents.patterns name).symm.trans found)
      have checked := fulfils_checkPattern heeds (direct.conditions _ member)
        (direct.returns _ member) type
      rw [← presents.partsOf_pattern found] at checked
      rw [follow_matching found refused, enterPattern, Context.name_of_pattern? found]
      exact .inMatch only type checked

/-- Inference heeds whatever it is asked to follow.  The induction is on the number of names that
are not being checked: one fewer is left inside a declaration. -/
theorem heeds_infer (active : List String) :
    Heeds program context active (infer context active) := by
  induction size : (context.unentered active).length using Nat.strong_induction_on
    generalizing active with
  | _ size ih =>
    refine ⟨fun name => (presents.hasFunction_iff name).mpr, fun invocation => ?_⟩
    rw [infer_eq_follow]
    refine fulfils_follow presents unblocked apart direct ?_ invocation
    intro name declared free
    have fewer := Context.length_unentered_cons_lt declared free
    exact ih _ (by omega) (name :: active) rfl

/-- Whatever the main body reaches is kept, if the run reports nothing. -/
theorem mem_keptFor_of_reaches
    (nothing : reports (mainEvents context program.main.body) = []) {item : Owner}
    (reached : program.Reaches item) :
    item ∈ keptFor (mainEvents context program.main.body) := by
  have heeds := heeds_infer presents unblocked apart direct []
  have checked := (fulfils_checkBody heeds program.main.body direct.main).andThen fun _ =>
    Fulfils.pure ()
  rw [mainEvents, checkMain, events_inMain] at nothing ⊢
  rw [reports, List.filterMap_append, List.append_eq_nil_iff] at nothing
  rw [keptFor_append]
  have thorough := checked [[]] nothing.1
  refine List.mem_append_left _ ?_
  unfold Program.Reaches at reached
  induction reached with
  | single mentioned => exact (thorough.wanted _ mentioned.2 mentioned.1).kept
  | tail _ mentioned ih => exact (thorough.closed _ ih _ mentioned).kept

end Whole

end Inference

/-! ## Analyses -/

namespace Program

open Inference Resolution

/-- An analysis records what resolution, the search for cycles and inference report. -/
theorem diagnostics_eq (program : Program) (config : Config) :
    let analysis := program.analyze config
    analysis.diagnostics = ((Sink.recording config.deduplicates).reportAll
      (program.redefinitions ++ Lexical.programReports program.recovered.table program.recovered ++
        (analysis.cycles.map analysis.program.cycleDiagnostic ++
          reports (program.events config)))).recorded := by
  intro analysis
  obtain ⟨last, recorded, leaves⟩ := program.leaves_analyze config
  have resolved : (program.resolve (.recording config.deduplicates)).2 = Sink.reportAll _ _ :=
    congrArg Prod.snd (program.resolve_eq _)
  have before : (program.checker config).state.sink = analysis.program.reportCycles analysis.cycles
      (program.resolve (.recording config.deduplicates)).2 := rfl
  have sink : last = (program.checker config).state.sink.reportAll _ := leaves.sink
  rw [← recorded, sink, before, resolved, reportCycles, ← Sink.reportAll_append,
    ← Sink.reportAll_append]

/-- Where an analysis has no diagnostics, nothing was renamed, no cycle was found and inference
reported nothing. -/
theorem silent_of_diagnostics {program : Program} {config : Config}
    (nothing : (program.analyze config).diagnostics = []) :
    program.redefinitions = [] ∧ (program.analyze config).cycles = [] ∧
      reports (program.events config) = [] := by
  rw [diagnostics_eq] at nothing
  have open_ : (Sink.recording config.deduplicates).muted = false := by
    cases config.deduplicates <;> rfl
  have silent := Sink.eq_nil_of_recorded_reportAll open_ nothing
  simp only [List.append_eq_nil_iff, List.map_eq_nil_iff] at silent
  exact ⟨silent.1.1, silent.2.1, silent.2.2⟩

/-- Inference visits only what the main body reaches, in the program with its duplicates renamed.
Where an analysis has no diagnostics, no function and pattern share a name and the program is
direct, nothing was renamed and inference visits all that the main body reaches. -/
theorem visited_is_reached (program : Program) (config : Config) :
    let analysis := program.analyze config
    (∀ name ∈ analysis.visited.names,
        ∃ item, item.name? = some name ∧ analysis.program.Reaches item) ∧
      (analysis.diagnostics = [] →
        (∀ name ∈ program.functionNames, name ∉ program.patternNames) → program.Direct →
        analysis.program = program ∧ ∀ name, name ∈ analysis.visited.names ↔
          ∃ item, item.name? = some name ∧ program.Reaches item) := by
  intro analysis
  have reached : ∀ name ∈ analysis.visited.names,
      ∃ item, item.name? = some name ∧ analysis.program.Reaches item := by
    intro name visited
    rw [← (program.keptBy_trace config).2.1] at visited
    exact Checker.reaches_of_visited rfl rfl visited
  refine ⟨reached, fun nothing apart direct => ?_⟩
  obtain ⟨unrenamed, acyclic, silent⟩ := silent_of_diagnostics nothing
  have resolved : analysis.program = program.recovered :=
    congrArg Prod.fst (program.resolve_eq (.recording config.deduplicates))
  have same : analysis.program = program := resolved.trans (recovered_eq_self unrenamed)
  refine ⟨same, fun name => ⟨fun visited => same ▸ reached name visited, ?_⟩⟩
  rintro ⟨item, named, reaches⟩
  rw [← same] at apart direct reaches
  let context := Context.ofTable analysis.program.table analysis.cycles.flatten config.infersCyclic
  have presents : context.Presents analysis.program := Context.presents_ofTable _ _ _
  have unblocked : ∀ name, context.refuses [] name = false := by
    intro name
    simp [context, Context.refuses, Context.ofTable, analysis, acyclic]
  have kept : item ∈ keptFor (program.events config) :=
    mem_keptFor_of_reaches presents unblocked apart direct silent reaches
  have orderly : Orderly context (program.events config) := orderly_mainEvents _ _
  exact (program.mem_visited_iff config name).mpr
    ((orderly.entered name).mpr (List.mem_filterMap.mpr ⟨item, kept, named⟩))

/-- Two functions that call each other, one of them in a lambda, with a pattern that one of them
matches with and a function that nothing mentions. -/
def countdown : Program where
  functions := [
    .ofName ⟨"even", .atLine 1⟩ [⟨⟨"n", .atLine 1⟩, none⟩]
      [.ret (.atLine 2) (some (.call (.atLine 2) (.var (.atLine 2) "odd") [.matching (.atLine 2)
        "previous" (.var (.atLine 2) "n")]))],
    .ofName ⟨"odd", .atLine 3⟩ [⟨⟨"n", .atLine 3⟩, none⟩]
      [.ret (.atLine 4) (some (.call (.atLine 4) (.lambda (.atLine 4) [⟨⟨"m", .atLine 4⟩, none⟩]
        [.ret (.atLine 4) (some (.call (.atLine 4) (.var (.atLine 4) "even")
          [.var (.atLine 4) "m"]))]) [.var (.atLine 4) "n"]))],
    .ofName ⟨"idle", .atLine 5⟩ [] []]
  patterns := [.ofCases ⟨"previous", .atLine 6⟩ ⟨"k", .atLine 6⟩
    [(.binary (.atLine 7) .eq (.var (.atLine 7) "k") (.int (.atLine 7) 0), .int (.atLine 7) 0)]]
  main := ⟨[.put (.atLine 8) (.call (.atLine 8) (.var (.atLine 8) "even") [.int (.atLine 8) 3])],
    .atLine 8⟩

theorem countdown_visited :
    let analysis := countdown.analyze { checksDependencies := false }
    analysis.diagnostics = [] ∧
      (∀ name ∈ countdown.functionNames, name ∉ countdown.patternNames) ∧ countdown.Direct ∧
      analysis.visited.names = ["even", "odd", "previous"] ∧
      (∃ item, item.name? = some "odd" ∧ analysis.program.Reaches item) ∧
      ∀ name, name ∈ analysis.visited.names ↔
        ∃ item, item.name? = some name ∧ countdown.Reaches item := by
  intro analysis
  obtain ⟨reached, exactly⟩ := visited_is_reached countdown { checksDependencies := false }
  have nothing : analysis.diagnostics = [] := by decide +kernel
  have apart : ∀ name ∈ countdown.functionNames, name ∉ countdown.patternNames := by decide
  have direct : countdown.Direct := by
    constructor <;> simp [countdown, Function.ofName, Pattern.ofCases, Param.WithoutDefaults,
      Expr.Direct, Expr.AllDirect, Stmt.Direct, Stmt.AllDirect]
  have visited : analysis.visited.names = ["even", "odd", "previous"] := by decide +kernel
  have odd : "odd" ∈ analysis.visited.names := by simp [visited]
  exact ⟨nothing, apart, direct, visited, reached "odd" odd, (exactly nothing apart direct).2⟩

end Program

end CallSite
