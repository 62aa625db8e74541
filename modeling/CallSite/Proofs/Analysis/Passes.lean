import CallSite.Proofs.Inference.Coverage

/-!
# The passes of an analysis

Resolution, the search for cycles and inference report to one sink, but each of them reports
problems of categories of its own.  No pass reports what another one has reported, so nothing is
dropped on account of an earlier pass: the diagnostics of an analysis are those that the passes
record alone, one pass after the other.
-/

namespace CallSite

namespace Inference

/-! ## Inference -/

/-- Every report among the events is about types. -/
def AboutTypes (events : List Event) : Prop :=
  ∀ report ∈ reports events, report.category = .typing

namespace AboutTypes

theorem nil : AboutTypes [] := fun _ member => absurd member List.not_mem_nil

theorem append {first second : List Event} (left : AboutTypes first)
    (right : AboutTypes second) : AboutTypes (first ++ second) := by
  rw [AboutTypes, reports, List.filterMap_append]
  exact List.forall_mem_append.mpr ⟨left, right⟩

theorem enclose {events : List Event} (inner : AboutTypes events) (name : String)
    (owner : Owner) (types : List Ty) (result : Ty) (content : Frame) :
    AboutTypes (.enter name :: (events ++ [.keep owner types result content])) := by
  rw [AboutTypes, reports_enclose]
  exact inner

end AboutTypes

/-- Checks report problems of types only. -/
def typing : Simulation LocalM LocalM where
  rel left _ := ∀ frames, AboutTypes (left frames).events
  rel_pure _ _ := .nil
  rel_bind first second frames := (first frames).append (second _ _)
  rel_report _ _ category _ := List.forall_mem_singleton.mpr category
  rel_typeOf _ _ := .nil
  rel_declare _ _ _ := .nil
  rel_assign _ _ _ := .nil
  rel_rebind _ _ _ := .nil
  rel_inBranch inner frames := inner ([] :: frames)
  rel_inCall _ _ _ inner _ := (inner [[]]).enclose _ _ _ _ _
  rel_inMatch _ _ _ _ inner _ := (inner [[]]).enclose _ _ _ _ _
  rel_inMain inner _ := (inner [[]]).append .nil

theorem aboutTypes_mainEvents (context : Context) (body : List Stmt) :
    AboutTypes (mainEvents context body) :=
  typing.rel_checkMain context (typing.rel_infer context []) body []

end Inference

namespace CallGraph

/-! ## Cycles -/

theorem nodup_cycles_ofProgram (program : Program) : (ofProgram program).cycles.Nodup := by
  rw [ofProgram_eq_build]
  exact nodup_cyclesAmong (nodup_callees_build _) (nodup_nodes_build _)

end CallGraph

namespace Program

open Inference Resolution

/-- The diagnostic is about the cycle, and stands where the first function of it is declared. -/
structure ReportsCycle (program : Program) (cycle : List String) (diagnostic : Diagnostic) :
    Prop where
  problem : diagnostic.problem = .recursion cycle
  declared : ∃ function ∈ program.functions, cycle.head? = some function.name.name ∧
    diagnostic.position = function.position
  /-- Of several functions of that name it is the last one. -/
  last : cycle.head?.bind program.declaredAt? = some diagnostic.position

theorem declaredAt?_of_mem {program : Program} {name : String}
    (declared : name ∈ program.functionNames) :
    ∃ function ∈ program.functions, function.name.name = name ∧
      program.declaredAt? name = some function.position := by
  obtain ⟨known, member, named⟩ := List.mem_map.mp declared
  have some_ : (program.functions.reverse.find? (·.name.name == name)).isSome := by
    rw [List.find?_isSome]
    exact ⟨known, List.mem_reverse.mpr member, beq_iff_eq.mpr named⟩
  obtain ⟨function, found⟩ := Option.isSome_iff_exists.mp some_
  refine ⟨function, List.mem_reverse.mp (List.mem_of_find?_eq_some found), ?_, ?_⟩
  · simpa using List.find?_some found
  · rw [declaredAt?, found]
    rfl

theorem nodup_cyclesUnder (program : Program) (config : Config) :
    (program.cyclesUnder config).Nodup := by
  unfold cyclesUnder
  split
  · exact CallGraph.nodup_cycles_ofProgram program
  · exact List.nodup_nil

theorem reportsCycle_of_mem {program : Program} {config : Config} {cycle : List String}
    (listed : cycle ∈ program.cyclesUnder config) :
    program.ReportsCycle cycle (program.cycleDiagnostic cycle) := by
  have nonempty : cycle ≠ [] := by
    unfold cyclesUnder at listed
    split at listed
    · exact CallGraph.ne_nil_of_mem_cycles listed
    · cases listed
  obtain ⟨first, rest, rfl⟩ := List.exists_cons_of_ne_nil nonempty
  obtain ⟨function, member, named, declared⟩ := declaredAt?_of_mem
    (mem_functionNames_of_mem_cyclesUnder listed List.mem_cons_self)
  have position : (program.cycleDiagnostic (first :: rest)).position = function.position :=
    congrArg (Option.getD · Position.null) declared
  refine ⟨rfl, ⟨function, member, congrArg some named.symm, position⟩, ?_⟩
  rw [position]
  exact declared

theorem nodup_cycleDiagnostics (program : Program) (config : Config) :
    ((program.cyclesUnder config).map program.cycleDiagnostic).Nodup :=
  (program.nodup_cyclesUnder config).map fun _ _ same =>
    Problem.recursion.inj (congrArg Diagnostic.problem same)

theorem recorded_reportCycles (program : Program) (config : Config) (deduplicates : Bool) :
    (program.reportCycles (program.cyclesUnder config) (.recording deduplicates)).recorded =
      (program.cyclesUnder config).map program.cycleDiagnostic :=
  Sink.recorded_of_nodup deduplicates (program.nodup_cycleDiagnostics config)

/-! ## All passes -/

/-- What resolution reports. -/
def resolutionReports (program : Program) : List Diagnostic :=
  program.redefinitions ++ Lexical.programReports program.recovered.table program.recovered

theorem category_of_mem_resolutionReports {program : Program} {report : Diagnostic}
    (member : report ∈ program.resolutionReports) :
    report.category = .redefinition ∨ report.category = .resolution ∨
      report.category = .arity := by
  rcases List.mem_append.mp member with redefined | inBody
  · exact .inl (of_decide_eq_true (isRedefinition_of_mem_redefinitions redefined))
  · exact .inr (Lexical.AboutBodies.program _ _ report inBody)

theorem category_of_mem_resolve {program : Program} {deduplicates : Bool} {report : Diagnostic}
    (member : report ∈ (program.resolve (.recording deduplicates)).2.recorded) :
    report.category = .redefinition ∨ report.category = .resolution ∨
      report.category = .arity := by
  have resolution : (program.resolve (.recording deduplicates)).2 =
      (Sink.recording deduplicates).reportAll program.resolutionReports :=
    congrArg Prod.snd (program.resolve_eq _)
  rw [resolution, Sink.mem_recorded_recording_iff] at member
  exact category_of_mem_resolutionReports member

theorem recorded_inferTypes (program : Program) (config : Config) (cycles : List (List String))
    (deduplicates : Bool) :
    (program.inferTypes config cycles (.recording deduplicates)).state.sink.recorded =
      ((Sink.recording deduplicates).reportAll (reports (mainEvents
        (.ofTable program.table cycles.flatten config.infersCyclic)
        program.main.body))).recorded :=
  congrArg Sink.recorded (program.leaves_inferTypes config cycles (.recording deduplicates)).sink

theorem typing_of_mem_inferTypes {program : Program} {config : Config}
    {cycles : List (List String)} {deduplicates : Bool} {report : Diagnostic}
    (member : report ∈
      (program.inferTypes config cycles (.recording deduplicates)).state.sink.recorded) :
    report.category = .typing := by
  rw [recorded_inferTypes, Sink.mem_recorded_recording_iff] at member
  exact aboutTypes_mainEvents _ _ report member

/-- The diagnostics of an analysis, pass by pass. -/
theorem diagnostics_analyze (program : Program) (config : Config) :
    let analysis := program.analyze config
    let sink := Sink.recording config.deduplicates
    analysis.diagnostics = (program.resolve sink).2.recorded ++
      (analysis.cycles.map analysis.program.cycleDiagnostic ++
        (analysis.program.inferTypes config analysis.cycles sink).state.sink.recorded) := by
  intro analysis sink
  let early := program.resolutionReports
  let between := analysis.cycles.map analysis.program.cycleDiagnostic
  let late := reports (program.events config)
  have resolution : (program.resolve sink).2 = sink.reportAll early :=
    congrArg Prod.snd (program.resolve_eq sink)
  have typing : ∀ report ∈ late, report.category = .typing := aboutTypes_mainEvents _ _
  have lateApart : ∀ report ∈ late, report ∉ between := by
    intro report member listed
    obtain ⟨cycle, _, rfl⟩ := List.mem_map.mp listed
    cases typing _ member
  have earlyApart : ∀ report ∈ between ++ late, report ∉ early := by
    intro report member named
    have category := category_of_mem_resolutionReports named
    rcases List.mem_append.mp member with listed | typed
    · obtain ⟨cycle, _, rfl⟩ := List.mem_map.mp listed
      rcases category with same | same | same <;> cases same
    · rw [typing report typed] at category
      rcases category with same | same | same <;> cases same
  have betweenDistinct : between.Nodup := analysis.program.nodup_cycleDiagnostics config
  calc analysis.diagnostics
    _ = (sink.reportAll (early ++ (between ++ late))).recorded := program.diagnostics_eq config
    _ = (sink.reportAll early).recorded ++
        ((sink.reportAll between).recorded ++ (sink.reportAll late).recorded) := by
      rw [Sink.recorded_append _ earlyApart, Sink.recorded_append _ lateApart]
    _ = (program.resolve sink).2.recorded ++ (between ++
        (analysis.program.inferTypes config analysis.cycles sink).state.sink.recorded) := by
      rw [Sink.recorded_of_nodup _ betweenDistinct, resolution, recorded_inferTypes]
      rfl

theorem filter_eq_ite {α : Type} {keeps : α → Bool} {items : List α} {kept : Bool}
    (same : ∀ item ∈ items, keeps item = kept) :
    items.filter keeps = if kept then items else [] := by
  cases kept with
  | false => exact List.filter_eq_nil_iff.mpr fun item member => by simp [same item member]
  | true => exact List.filter_eq_self.mpr same

/-- The diagnostics of some categories.  The three categories of resolution are selected together or
not at all. -/
theorem filter_diagnostics_analyze (program : Program) (config : Config) (keeps : Category → Bool)
    {names : Bool} (redefinition : keeps .redefinition = names)
    (resolution : keeps .resolution = names) (arity : keeps .arity = names) :
    let analysis := program.analyze config
    let sink := Sink.recording config.deduplicates
    analysis.diagnostics.filter (keeps ·.category) =
      (if names then (program.resolve sink).2.recorded else []) ++
        ((if keeps .recursion then analysis.cycles.map analysis.program.cycleDiagnostic else []) ++
          if keeps .typing then
            (analysis.program.inferTypes config analysis.cycles sink).state.sink.recorded
          else []) := by
  intro analysis sink
  have passes : analysis.diagnostics = _ := program.diagnostics_analyze config
  rw [passes, List.filter_append, List.filter_append]
  refine congrArg₂ _ (filter_eq_ite ?_) (congrArg₂ _ (filter_eq_ite ?_) (filter_eq_ite ?_))
  · intro report member
    rcases category_of_mem_resolve member with same | same | same <;> rw [same] <;> assumption
  · exact List.forall_mem_map.mpr fun _ _ => rfl
  · intro report member
    rw [typing_of_mem_inferTypes member]

/-- The passes of an analysis do not interfere through the sink that they share: its diagnostics are
those that resolution, the report of the cycles and inference record on sinks of their own.
Resolution reports problems with names and numbers of arguments; each cycle is reported once, in
order, where its first function is declared, and none is when dependencies are not checked; and
inference reports problems of types. -/
theorem passes_do_not_interfere (program : Program) (config : Config) :
    let analysis := program.analyze config
    let sink := Sink.recording config.deduplicates
    let resolved := program.resolve sink
    let cycles := resolved.1.cyclesUnder config
    let cyclic := resolved.1.reportCycles cycles sink
    let typed := (resolved.1.inferTypes config cycles sink).state.sink
    analysis.diagnostics = resolved.2.recorded ++ cyclic.recorded ++ typed.recorded ∧
      analysis.program = resolved.1 ∧ analysis.cycles = cycles ∧
      (∀ report ∈ resolved.2.recorded, report.category = .redefinition ∨
        report.category = .resolution ∨ report.category = .arity) ∧
      List.Forall₂ resolved.1.ReportsCycle analysis.cycles cyclic.recorded ∧
      (config.checksDependencies = false → cyclic.recorded = []) ∧
      ∀ report ∈ typed.recorded, report.category = .typing := by
  intro analysis sink resolved cycles cyclic typed
  have listed : cyclic.recorded = cycles.map resolved.1.cycleDiagnostic :=
    resolved.1.recorded_reportCycles config config.deduplicates
  refine ⟨?_, rfl, rfl, fun _ => category_of_mem_resolve, ?_, ?_, fun _ =>
    typing_of_mem_inferTypes⟩
  · rw [listed, List.append_assoc]
    exact program.diagnostics_analyze config
  · rw [listed, List.forall₂_map_right_iff]
    exact List.forall₂_same.mpr fun cycle => reportsCycle_of_mem
  · intro unchecked
    rw [listed, List.map_eq_nil_iff]
    exact if_neg (Bool.eq_false_iff.mp unchecked)

end Program

end CallSite
