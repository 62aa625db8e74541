import CallSite.Proofs.Analysis.CycleOptions
import CallSite.Proofs.CallGraph.Reordering
import CallSite.Proofs.Inference.Entries

/-!
# The order of declarations

Where all names differ, the order in which functions and patterns are declared reaches an analysis
in three places: the order in which cycles are found, the order of the entries in the table, and the
order in which bodies are resolved.  Inference depends on none of them.  It looks declarations up by
name, keeps out of the functions on the cycles, wherever these begin, and never reads an entry.
-/

namespace CallSite

/-- Two analyses that say the same of each name. -/
structure Analysis.SameByName (one other : Analysis) : Prop where
  visited : one.visited = other.visited
  /-- The variables that the scopes of all entries point to. -/
  store : one.env.store = other.env.store
  mainScope : one.env.table.mainScope = other.env.table.mainScope
  function? : ∀ name, one.env.table.function? name = other.env.table.function? name
  pattern? : ∀ name, one.env.table.pattern? name = other.env.table.pattern? name
  typing : one.diagnostics.filter (·.category = .typing) =
    other.diagnostics.filter (·.category = .typing)
  /-- Cycles are compared up to rotation and in any order. -/
  cycles : (one.cycles.map Cycle.ofList).Perm (other.cycles.map Cycle.ofList)

namespace Program

open Inference

/-- The same declarations in another order, with the same main body. -/
structure Reorders (program other : Program) : Prop where
  functions : program.functions.Perm other.functions
  patterns : program.patterns.Perm other.patterns
  main : program.main = other.main

theorem mem_flatten_iff_mem_cycle (cycles : List (List String)) (name : String) :
    name ∈ cycles.flatten ↔ ∃ cycle ∈ cycles.map Cycle.ofList, name ∈ cycle := by
  simp [List.mem_flatten, Cycle.mem_coe_iff]

namespace Reorders

variable {program other : Program} (reorders : program.Reorders other)

include reorders

theorem nodup_functionNames (distinct : program.functionNames.Nodup) :
    other.functionNames.Nodup :=
  (reorders.functions.map _).nodup_iff.mp distinct

theorem nodup_patternNames (distinct : program.patternNames.Nodup) :
    other.patternNames.Nodup :=
  (reorders.patterns.map _).nodup_iff.mp distinct

theorem function?_table (distinct : program.functionNames.Nodup) (name : String) :
    program.table.functions.find? (·.name == name) =
      other.table.functions.find? (·.name == name) := by
  have entries : ((program.functions.map FunctionEntry.fresh).map FunctionEntry.name).Nodup := by
    rw [List.map_map]
    exact distinct
  rw [functions_table, functions_table]
  exact SymbolTable.find?_foldl_addNew_of_perm _ (reorders.functions.map _) entries name

theorem pattern?_table (distinct : program.patternNames.Nodup) (name : String) :
    program.table.patterns.find? (·.name == name) =
      other.table.patterns.find? (·.name == name) := by
  have entries : ((program.patterns.map PatternEntry.fresh).map PatternEntry.name).Nodup := by
    rw [List.map_map]
    exact distinct
  rw [patterns_table, patterns_table]
  exact SymbolTable.find?_foldl_addNew_of_perm _ (reorders.patterns.map _) entries name

theorem perm_cyclesUnder (config : Config) :
    ((program.cyclesUnder config).map Cycle.ofList).Perm
      ((other.cyclesUnder config).map Cycle.ofList) := by
  unfold cyclesUnder
  split
  · exact CallGraph.perm_cycles_ofProgram reorders.functions
  · exact .refl _

theorem sameGate (config : Config) :
    SameGate config config (program.cyclesUnder config) (other.cyclesUnder config) := by
  intro name
  have blocked : (program.cyclesUnder config).flatten.contains name =
      (other.cyclesUnder config).flatten.contains name := by
    rw [Bool.eq_iff_iff, List.contains_iff_mem, List.contains_iff_mem, mem_flatten_iff_mem_cycle,
      mem_flatten_iff_mem_cycle]
    exact exists_congr fun _ => and_congr_left' (reorders.perm_cyclesUnder config).mem_iff
  rw [blocked]

/-- To infer the types of a program with its declarations in another order is to run the same action
on a table with its entries in another order. -/
theorem inferTypes (functions : program.functionNames.Nodup) (patterns : program.patternNames.Nodup)
    (config : Config) (sink : Sink) :
    SameByName (program.inferTypes config (program.cyclesUnder config) sink).state
      (other.inferTypes config (other.cyclesUnder config) sink).state := by
  let context := Context.ofTable program.table (program.cyclesUnder config).flatten
    config.infersCyclic
  let another := Context.ofTable other.table (other.cyclesUnder config).flatten config.infersCyclic
  have alike : context.Alike another := Context.alike_ofTable
    (fun name => congrArg (Option.map _) (reorders.function?_table functions name))
    (fun name => congrArg (Option.map _) (reorders.pattern?_table patterns name))
    (reorders.sameGate config)
  let check : CheckM Unit := checkMain context (infer context []) program.main.body
  have checks : checkMain another (infer another []) other.main.body = check := by
    rw [← reorders.main]
    exact (checkMain_eq_of_alike alike _).symm
  let start : State := { sink := sink }
  have first : (program.inferTypes config (program.cyclesUnder config) sink).state =
      (check.run (start.withEntries program.table.functions program.table.patterns)).2 :=
    congrArg (fun table => (check.run { start with env.table := table }).2) program.table_eq
  have second : (other.inferTypes config (other.cyclesUnder config) sink).state =
      (check.run (start.withEntries other.table.functions other.table.patterns)).2 := by
    rw [← checks]
    exact congrArg (fun table => ((checkMain another _ _ : CheckM Unit).run
      { start with env.table := table }).2) other.table_eq
  rw [first, second]
  exact (heedless_checkMain context program.main.body).same start
    (reorders.function?_table functions) (reorders.pattern?_table patterns)

end Reorders

/-- Where all names differ, an analysis holds what inference alone finds in the program. -/
theorem analyze_inferred {program : Program} (functions : program.functionNames.Nodup)
    (patterns : program.patternNames.Nodup) (config : Config) :
    let analysis := program.analyze config
    let cycles := program.cyclesUnder config
    let alone := (program.inferTypes config cycles (.recording config.deduplicates)).state
    analysis.cycles = cycles ∧ analysis.env = alone.env ∧ analysis.visited = alone.visited ∧
      analysis.diagnostics.filter (·.category = .typing) = alone.sink.recorded := by
  intro analysis cycles alone
  have whole : analysis = _ := analyze_of_distinct functions patterns config
  have gate : SameGate config config cycles cycles := fun _ => rfl
  have same := program.inferTypes_same gate
    (program.reportCycles cycles (program.resolve (.recording config.deduplicates)).2)
    (.recording config.deduplicates)
  have itself : analysis.program = program := congrArg Analysis.program whole
  have found : analysis.cycles = cycles := congrArg Analysis.cycles whole
  have kept : analysis.diagnostics.filter (·.category = .typing) = _ :=
    program.filter_diagnostics_analyze config (· = .typing) rfl rfl rfl
  refine ⟨found, (congrArg Analysis.env whole).trans same.env,
    (congrArg Analysis.visited whole).trans same.visited, kept.trans ?_⟩
  change (analysis.program.inferTypes config analysis.cycles _).state.sink.recorded = _
  rw [itself, found]

/-- The order of declarations does not matter to inference: where all names differ, a program and
the same program with its functions and patterns in another order have analyses that say the same of
each name.  They have the same problems of types, in the same order, and the same cycles. -/
theorem declaration_order_does_not_matter {program other : Program}
    (functions : program.functionNames.Nodup) (patterns : program.patternNames.Nodup)
    (reorders : program.Reorders other) (config : Config) :
    (program.analyze config).SameByName (other.analyze config) := by
  obtain ⟨cycles, env, visited, typing⟩ := analyze_inferred functions patterns config
  obtain ⟨otherCycles, otherEnv, otherVisited, otherTyping⟩ :=
    analyze_inferred (reorders.nodup_functionNames functions)
      (reorders.nodup_patternNames patterns) config
  have same := reorders.inferTypes functions patterns config (.recording config.deduplicates)
  constructor
  · rw [visited, otherVisited, same.visited]
  · rw [env, otherEnv, same.store]
  · rw [env, otherEnv, same.mainScope]
  · rw [env, otherEnv]
    exact same.function?
  · rw [env, otherEnv]
    exact same.pattern?
  · rw [typing, otherTyping, same.sink]
  · rw [cycles, otherCycles]
    exact reorders.perm_cyclesUnder config

/-- Two functions that call each other, and a pattern whose value is negated as if it were true or
false. -/
def relay : Program where
  functions := [
    .ofName ⟨"ping", .atLine 1⟩ [] [.ret (.atLine 1) (some (.callNamed (.atLine 1) "pong" []))],
    .ofName ⟨"pong", .atLine 2⟩ [] [.ret (.atLine 2) (some (.callNamed (.atLine 2) "ping" []))],
    .ofName ⟨"negate", .atLine 3⟩ [⟨⟨"x", .atLine 3⟩, none⟩]
      [.ret (.atLine 3) (some (.unaryOf .not (.var (.atLine 3) "x")))]]
  patterns := [
    .ofCases ⟨"low", .atLine 4⟩ ⟨"n", .atLine 4⟩ [(.bool (.atLine 4) true, .int (.atLine 4) 0)],
    .ofCases ⟨"high", .atLine 5⟩ ⟨"n", .atLine 5⟩
      [(.bool (.atLine 5) true, .matchingOf "low" (.var (.atLine 5) "n"))]]
  main := ⟨[.put (.atLine 6) (.callNamed (.atLine 6) "negate" [.matchingOf "high"
    (.int (.atLine 6) 7)]), .put (.atLine 7) (.callNamed (.atLine 7) "ping" [])], .atLine 6⟩

/-- Declared from the last to the first, the functions are on a cycle that begins elsewhere. -/
theorem relay_reversed :
    let reversed : Program := { relay with
      functions := relay.functions.reverse, patterns := relay.patterns.reverse }
    let first := relay.analyze {}
    let second := reversed.analyze {}
    relay.functionNames.Nodup ∧ relay.patternNames.Nodup ∧ relay.Reorders reversed ∧
      first.cycles = [["ping", "pong"]] ∧ second.cycles = [["pong", "ping"]] ∧
      first.visited.names = ["high", "low", "negate"] ∧
      second.diagnostics.filter (·.category = .typing) =
        [⟨.operandUnsupported "!", .atLine 3⟩] ∧
      first.SameByName second := by
  intro reversed first second
  have functions : relay.functionNames.Nodup := by decide
  have patterns : relay.patternNames.Nodup := by decide
  have reorders : relay.Reorders reversed :=
    ⟨(List.reverse_perm _).symm, (List.reverse_perm _).symm, rfl⟩
  have same : first.SameByName second :=
    declaration_order_does_not_matter functions patterns reorders {}
  have reported : first.diagnostics.filter (·.category = .typing) =
      [⟨.operandUnsupported "!", .atLine 3⟩] := by decide +kernel
  refine ⟨functions, patterns, reorders, ?_, ?_, ?_, same.typing.symm.trans reported, same⟩
  · decide +kernel
  · decide +kernel
  · decide +kernel

end Program

end CallSite
