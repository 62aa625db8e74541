import CallSite.Proofs.Analysis.Passes
import CallSite.Proofs.Inference.Namespaces
import CallSite.Proofs.Inference.Sinks

/-!
# What the options on cycles change

A run of inference looks at the cycles only to decide which functions it does not enter.  Two runs
for which these are the same functions do the same, wherever the cycles come from.  When cyclic
functions are inferred nothing is kept out, so the search for cycles adds its own reports and no
more; and without cycles both options are idle.
-/

namespace CallSite.Program

open Inference

/-- Two ways to block functions on cycles keep out the same names. -/
def SameGate (config other : Config) (cycles others : List (List String)) : Prop :=
  ∀ name, (!config.infersCyclic && cycles.flatten.contains name) =
    (!other.infersCyclic && others.flatten.contains name)

section Gated

variable (program : Program) {config other : Config} {cycles others : List (List String)}

theorem inferTypes_congr (gated : SameGate config other cycles others) (sink : Sink) :
    (program.inferTypes config cycles sink).state =
      (program.inferTypes other others sink).state := by
  have alike : (Context.ofTable program.table cycles.flatten config.infersCyclic).Alike
      (.ofTable program.table others.flatten other.infersCyclic) :=
    Context.alike_ofTable (fun _ => rfl) (fun _ => rfl) gated
  exact congrArg
    (fun check : CheckM Unit => (check.run { env := { table := program.table }, sink := sink }).2)
    (checkMain_eq_of_alike alike program.main.body)

/-- Where the sinks differ as well, what is inferred is still the same. -/
theorem inferTypes_same (gated : SameGate config other cycles others) (one another : Sink) :
    SameButSink (program.inferTypes config cycles one).state
      (program.inferTypes other others another).state := by
  obtain ⟨env, visited, reports, inferred⟩ := program.inferTypes_eq other others
  rw [program.inferTypes_congr gated, inferred one, inferred another]
  exact ⟨rfl, rfl⟩

end Gated

theorem cyclesUnder_eq_nil {program : Program} (acyclic : (CallGraph.ofProgram program).cycles = [])
    (config : Config) : program.cyclesUnder config = [] := by
  rw [cyclesUnder, acyclic, ite_self]

theorem analyze_of_acyclic (program : Program) (config : Config)
    (acyclic : (program.resolve (.recording config.deduplicates)).1.cyclesUnder config = []) :
    let resolved := program.resolve (.recording config.deduplicates)
    let state := (resolved.1.inferTypes config [] resolved.2).state
    program.analyze config =
      ⟨resolved.1, state.env, state.sink.recorded, [], state.visited⟩ := by
  rw [analyze, acyclic]
  rfl

/-- The options on cycles only keep inference out of cyclic functions.  When these are inferred, to
search for cycles adds the reports of the cycles and changes nothing else.  When the search finds no
cycle, all settings of the two options give the same analysis. -/
theorem cycle_options_gate_entry (program : Program) (config : Config) :
    let analysis (checks infers : Bool) := program.analyze
      { config with checksDependencies := checks, infersCyclic := infers }
    (let checked := analysis true true
      let unchecked := analysis false true
      unchecked.program = checked.program ∧ unchecked.env = checked.env ∧
        unchecked.visited = checked.visited ∧
        unchecked.diagnostics = checked.diagnostics.filter (·.category ≠ .recursion) ∧
        checked.diagnostics.filter (·.category = .recursion) =
          checked.cycles.map checked.program.cycleDiagnostic) ∧
      ∀ infers, (analysis true infers).cycles = [] →
        ∀ checks others, analysis checks others = analysis true infers := by
  intro analysis
  let options (checks infers : Bool) : Config :=
    { config with checksDependencies := checks, infersCyclic := infers }
  refine ⟨?_, ?_⟩
  · intro checked unchecked
    have gated : SameGate (options false true) (options true true) [] checked.cycles :=
      fun _ => rfl
    let sink := (program.resolve (.recording config.deduplicates)).2
    have same := checked.program.inferTypes_same gated sink
      (checked.program.reportCycles checked.cycles sink)
    refine ⟨rfl, same.env, same.visited, ?_, ?_⟩
    · have passes : unchecked.diagnostics = _ := program.diagnostics_analyze (options false true)
      have kept : checked.diagnostics.filter (·.category ≠ .recursion) = _ :=
        program.filter_diagnostics_analyze (options true true) (· ≠ .recursion) rfl rfl rfl
      have late := checked.program.inferTypes_congr gated (.recording config.deduplicates)
      rw [passes, kept]
      exact congrArg (fun state : State => _ ++ state.sink.recorded) late
    · have kept : checked.diagnostics.filter (·.category = .recursion) = _ :=
        program.filter_diagnostics_analyze (options true true) (· = .recursion) rfl rfl rfl
      rw [kept]
      exact List.append_nil _
  · intro infers acyclic checks others
    let resolved := program.resolve (.recording config.deduplicates)
    let result (state : State) : Analysis :=
      ⟨resolved.1, state.env, state.sink.recorded, [], state.visited⟩
    have unfound : (CallGraph.ofProgram resolved.1).cycles = [] := acyclic
    have gated : SameGate (options checks others) (options true infers) [] [] := by
      intro name
      rw [List.flatten_nil, List.contains_nil, Bool.and_false, Bool.and_false]
    calc analysis checks others
      _ = result (resolved.1.inferTypes (options checks others) [] resolved.2).state :=
        program.analyze_of_acyclic _ (cyclesUnder_eq_nil unfound _)
      _ = result (resolved.1.inferTypes (options true infers) [] resolved.2).state :=
        congrArg result (resolved.1.inferTypes_congr gated resolved.2)
      _ = analysis true infers :=
        (program.analyze_of_acyclic (options true infers) (cyclesUnder_eq_nil unfound _)).symm

/-- Two functions that call each other are entered either way, and a program without a cycle is
analysed in one way only. -/
theorem countdown_options :
    let checked := countdown.analyze { infersCyclic := true }
    let unchecked := countdown.analyze { checksDependencies := false, infersCyclic := true }
    let sign := classifier "sign" (.int (.atLine 6) 0)
    checked.diagnostics = [⟨.recursion ["even", "odd"], .atLine 1⟩] ∧
      unchecked.diagnostics = [] ∧ unchecked.env = checked.env ∧
      unchecked.visited.names = ["even", "odd", "previous"] ∧
      checked.visited.names = ["even", "odd", "previous"] ∧
      (sign.analyze {}).cycles = [] ∧
      (sign.analyze {}).diagnostics = [⟨.patternReturnsDiffer "sign", .atLine 4⟩] ∧
      ∀ checks infers, sign.analyze { checksDependencies := checks, infersCyclic := infers } =
        sign.analyze {} := by
  intro checked unchecked sign
  obtain ⟨⟨_, env, visited, diagnostics, _⟩, _⟩ := countdown.cycle_options_gate_entry {}
  obtain ⟨_, idle⟩ := sign.cycle_options_gate_entry {}
  have reported : checked.diagnostics = [⟨.recursion ["even", "odd"], .atLine 1⟩] := by
    decide +kernel
  have unreported : unchecked.diagnostics = [] := by
    have kept : unchecked.diagnostics = checked.diagnostics.filter (·.category ≠ .recursion) :=
      diagnostics
    rw [kept, reported]
    rfl
  have entered : unchecked.visited.names = ["even", "odd", "previous"] := by decide +kernel
  have acyclic : (sign.analyze {}).cycles = [] := by decide +kernel
  exact ⟨reported, unreported, env, entered, (congrArg NameSet.names visited).symm.trans entered,
    acyclic, by decide +kernel, idle false acyclic⟩

end CallSite.Program
