import CallSite.Analysis
import CallSite.Proofs.CallGraph.Elementary
import CallSite.Proofs.Syntax.Parts
import Mathlib

/-!
# Recursive functions and cycles

A function is recursive when a chain of references leads from it back to itself.  The edges of a
program's call graph are its references, and a closed walk through a function contains an elementary
cycle through the same function.  So the functions on the cycles of the graph are exactly the
recursive ones.
-/

namespace CallSite

namespace Program

/-- A function of the first name has a part that calls the second name or points to it, and the
second name is that of a function too. -/
def RefersTo (program : Program) (caller callee : String) : Prop :=
  callee ∈ program.functionNames ∧ ∃ function ∈ program.functions,
    function.name.name = caller ∧ ∃ part ∈ function.parts, part.target? = some callee

/-- A chain of one or more references leads from the name back to itself. -/
def Recursive (program : Program) (name : String) : Prop :=
  Relation.TransGen program.RefersTo name name

end Program

namespace CallGraph

/-! ## The graph of a program -/

/-- The additions that a function makes: itself, then its references to declared functions. -/
def Step.ofFunction (declared : List String) (function : Function) : List Step :=
  .node function.name.name ::
    (function.references.filter declared.contains).map (.edge function.name.name)

theorem addFunction_eq (declared : List String) (graph : CallGraph) (function : Function) :
    addFunction declared graph function =
      (Step.ofFunction declared function).foldl Step.apply graph := by
  rw [addFunction, Step.ofFunction, List.foldl_cons, List.foldl_map]
  rfl

/-- The additions that a program makes, function by function. -/
def Step.ofProgram (program : Program) : List Step :=
  program.functions.flatMap (Step.ofFunction program.functionNames)

theorem ofProgram_eq_build (program : Program) :
    ofProgram program = build (Step.ofProgram program) := by
  rw [ofProgram, build, Step.ofProgram, List.foldl_flatMap]
  refine List.foldl_ext _ _ _ fun graph function _ => ?_
  exact addFunction_eq program.functionNames graph function

theorem edge_mem_ofFunction_iff (declared : List String) (function : Function)
    (caller callee : String) :
    .edge caller callee ∈ Step.ofFunction declared function ↔
      function.name.name = caller ∧ callee ∈ function.references ∧ callee ∈ declared := by
  simp only [Step.ofFunction, List.mem_cons, reduceCtorEq, false_or, List.mem_map,
    List.mem_filter, List.contains_iff_mem, Step.edge.injEq]
  constructor
  · rintro ⟨other, ⟨referred, known⟩, named, rfl⟩
    exact ⟨named, referred, known⟩
  · rintro ⟨named, referred, known⟩
    exact ⟨callee, ⟨referred, known⟩, named, rfl⟩

/-- The edges of a program's graph are the references between its functions. -/
theorem refers_ofProgram_iff (program : Program) (caller callee : String) :
    (ofProgram program).Refers caller callee ↔ program.RefersTo caller callee := by
  rw [ofProgram_eq_build, Refers, hasEdge_build, Step.ofProgram, List.mem_flatMap]
  constructor
  · rintro ⟨function, member, edge⟩
    obtain ⟨named, referred, known⟩ := (edge_mem_ofFunction_iff _ _ _ _).mp edge
    exact ⟨known, function, member, named, (function.mem_references_iff callee).mp referred⟩
  · rintro ⟨known, function, member, named, occurs⟩
    have referred := (function.mem_references_iff callee).mpr occurs
    exact ⟨function, member, (edge_mem_ofFunction_iff _ _ _ _).mpr ⟨named, referred, known⟩⟩

/-! ## Closed walks -/

/-- Where a chain leads from one name to another, there is one that visits no name twice.  The
induction is on the chain from its end: a name that comes again cuts off everything before. -/
theorem exists_path_nodup {relation : String → String → Prop} {source target : String}
    (leads : Relation.ReflTransGen relation source target) :
    ∃ path : List String, path.IsChain relation ∧ path.Nodup ∧ path.head? = some source ∧
      path.getLast? = some target := by
  induction leads using Relation.ReflTransGen.head_induction_on with
  | refl => exact ⟨[target], .singleton target, List.nodup_singleton target, rfl, rfl⟩
  | @head source middle step _ ih =>
    obtain ⟨path, chain, distinct, starts, ends⟩ := ih
    by_cases again : source ∈ path
    · obtain ⟨before, after, rfl⟩ := List.append_of_mem again
      refine ⟨source :: after, chain.right_of_append, (List.nodup_append.mp distinct).2.1, rfl, ?_⟩
      rw [List.getLast?_append] at ends
      cases last : (source :: after).getLast? with
      | none => exact absurd (List.getLast?_eq_none_iff.mp last) (List.cons_ne_nil _ _)
      | some final => simpa [last] using ends
    · refine ⟨source :: path, ?_, List.nodup_cons.mpr ⟨again, distinct⟩, rfl, ?_⟩
      · refine List.isChain_cons.mpr ⟨fun next isHead => ?_, chain⟩
        rw [starts] at isHead
        cases isHead
        exact step
      · rw [List.getLast?_cons, ends]
        rfl

theorem transGen_of_isChain {relation : String → String → Prop} {first last : String}
    {between : List String} (chain : (first :: (between ++ [last])).IsChain relation) :
    Relation.TransGen relation first last := by
  induction between generalizing first with
  | nil => exact .single (List.isChain_cons_cons.mp chain).1
  | cons next between ih =>
    obtain ⟨step, rest⟩ := List.isChain_cons_cons.mp chain
    exact .head step (ih rest)

section

variable {graph : CallGraph} {name : String}

/-- A closed walk through a function contains an elementary cycle that begins with it. -/
theorem exists_cycleAmong (known : ∀ caller callee, graph.Refers caller callee →
      caller ∈ graph.nodes ∧ callee ∈ graph.nodes)
    (closed : Relation.TransGen graph.Refers name name) :
    ∃ rest, graph.CycleAmong graph.nodes (name :: rest) := by
  obtain ⟨next, step, leads⟩ := Relation.TransGen.head'_iff.mp closed
  obtain ⟨path, chain, distinct, starts, ends⟩ := exists_path_nodup leads
  obtain ⟨rest, rfl⟩ : ∃ rest, path = rest ++ [name] :=
    ⟨path.dropLast, (List.dropLast_append_getLast? name ends).symm⟩
  have whole : (name :: (rest ++ [name])).IsChain graph.Refers := by
    refine List.isChain_cons.mpr ⟨fun first isHead => ?_, chain⟩
    rw [starts] at isHead
    cases isHead
    exact step
  refine ⟨rest, (List.nodup_append_comm.mp distinct), ?_, name, rest, rfl, whole⟩
  have nameKnown := (known name next step).1
  have later : ∀ node ∈ rest ++ [name], node ∈ graph.nodes :=
    whole.cons_induction (· ∈ graph.nodes) _ (fun _ _ refers _ => (known _ _ refers).2) nameKnown
  intro node member
  rcases List.mem_cons.mp member with rfl | inside
  · exact nameKnown
  · exact later node (List.mem_append_left _ inside)

/-- A function on an elementary cycle leads back to itself. -/
theorem CycleAmong.transGen {among path : List String} (cycle : graph.CycleAmong among path)
    (member : name ∈ path) : Relation.TransGen graph.Refers name name := by
  obtain ⟨before, after, rfl⟩ := List.append_of_mem member
  obtain ⟨first, rest, same, chain⟩ := (cycle.rotated List.isRotated_append).closed
  cases same
  exact transGen_of_isChain chain

end

theorem mem_nodes_of_refers {steps : List Step} {caller callee : String}
    (refers : (build steps).Refers caller callee) :
    caller ∈ (build steps).nodes ∧ callee ∈ (build steps).nodes := by
  have edge := (hasEdge_build steps caller callee).mp refers
  have mentioned : ∀ name ∈ (Step.edge caller callee).names, name ∈ (build steps).nodes := by
    intro name member
    rw [nodes_build, List.mem_eraseDups]
    exact List.mem_flatMap.mpr ⟨_, edge, member⟩
  exact ⟨mentioned caller (by simp [Step.names]), mentioned callee (by simp [Step.names])⟩

/-- The functions on the listed cycles are those that a closed walk leads through. -/
theorem mem_cycles_build_iff (steps : List Step) (name : String) :
    (∃ cycle ∈ (build steps).cycles, name ∈ cycle) ↔
      Relation.TransGen (build steps).Refers name name := by
  constructor
  · rintro ⟨cycle, listed, member⟩
    exact ((mem_cycles_build steps cycle).mp listed).1.transGen member
  · intro closed
    obtain ⟨rest, cycle⟩ := exists_cycleAmong (fun _ _ => mem_nodes_of_refers) closed
    obtain ⟨listed, member, rotated⟩ := exists_mem_cycles_isRotated cycle
    exact ⟨listed, member, rotated.mem_iff.mpr List.mem_cons_self⟩

/-- The functions on the cycles of a program's graph are the recursive ones. -/
theorem mem_cycles_ofProgram_iff (program : Program) (name : String) :
    (∃ cycle ∈ (ofProgram program).cycles, name ∈ cycle) ↔ program.Recursive name := by
  have same : (ofProgram program).Refers = program.RefersTo := by
    funext caller callee
    exact propext (refers_ofProgram_iff program caller callee)
  rw [Program.Recursive, ← same, ofProgram_eq_build]
  exact mem_cycles_build_iff _ name

theorem ne_nil_of_mem_cycles {program : Program} {cycle : List String}
    (listed : cycle ∈ (ofProgram program).cycles) : cycle ≠ [] := by
  rw [ofProgram_eq_build] at listed
  obtain ⟨first, rest, rfl, _⟩ := ((mem_cycles_build _ cycle).mp listed).1.closed
  exact List.cons_ne_nil first rest

/-- There is no cycle exactly when no function is recursive. -/
theorem cycles_ofProgram_eq_nil_iff (program : Program) :
    (ofProgram program).cycles = [] ↔ ∀ name, ¬ program.Recursive name := by
  constructor
  · intro none_ name recursive
    obtain ⟨cycle, listed, _⟩ := (mem_cycles_ofProgram_iff program name).mpr recursive
    rw [none_] at listed
    cases listed
  · intro acyclic
    refine List.eq_nil_iff_forall_not_mem.mpr fun cycle listed => ?_
    obtain ⟨name, member⟩ := List.exists_mem_of_ne_nil cycle (ne_nil_of_mem_cycles listed)
    exact acyclic name ((mem_cycles_ofProgram_iff program name).mp ⟨cycle, listed, member⟩)

end CallGraph

namespace Program

theorem cycles_analyze (program : Program) {config : Config}
    (checks : config.checksDependencies = true) :
    (program.analyze config).cycles =
      (CallGraph.ofProgram (program.analyze config).program).cycles := by
  change cyclesUnder _ config = _
  rw [cyclesUnder, if_pos checks]
  rfl

theorem mem_functionNames_of_mem_cyclesUnder {program : Program} {config : Config}
    {cycle : List String} (listed : cycle ∈ program.cyclesUnder config) {name : String}
    (member : name ∈ cycle) : name ∈ program.functionNames := by
  rw [cyclesUnder] at listed
  split at listed
  · have recursive := (CallGraph.mem_cycles_ofProgram_iff program name).mp ⟨cycle, listed, member⟩
    obtain ⟨_, _, refers⟩ := Relation.TransGen.tail'_iff.mp recursive
    exact refers.1
  · cases listed

/-- When dependencies are checked, the functions on the cycles of an analysis are exactly the
recursive functions of the program after renaming.  These are the names that a checker refuses to
enter once it is told to block the cycles, and there is no cycle exactly when no function is
recursive. -/
theorem cyclic_iff_recursive (program : Program) (config : Config)
    (checks : config.checksDependencies = true) :
    let analysis := program.analyze config
    (∀ name, (∃ cycle ∈ analysis.cycles, name ∈ cycle) ↔ analysis.program.Recursive name) ∧
    (∀ (checker : Checker) (name : String), name ∈ (checker.block analysis.cycles).blocked ↔
      name ∈ checker.blocked ∨ analysis.program.Recursive name) ∧
    (analysis.cycles = [] ↔ ∀ name, ¬ analysis.program.Recursive name) := by
  intro analysis
  have cycles : analysis.cycles = (CallGraph.ofProgram analysis.program).cycles :=
    program.cycles_analyze checks
  have listed : ∀ name, (∃ cycle ∈ analysis.cycles, name ∈ cycle) ↔
      analysis.program.Recursive name := by
    rw [cycles]
    exact CallGraph.mem_cycles_ofProgram_iff analysis.program
  refine ⟨listed, ?_, ?_⟩
  · intro checker name
    rw [Checker.block, List.mem_append, List.mem_flatten, listed name]
  · rw [cycles]
    exact CallGraph.cycles_ofProgram_eq_nil_iff analysis.program

/-- A function whose lambda has a pointer to a second one as a default, and a second one that calls
the first in an index.  A third function calls both and is called by none. -/
def mutualReference : Program where
  functions := [
    .ofName ⟨"ping", .atLine 1⟩ [] [.expr (.atLine 2) (.lambda (.atLine 2)
      [⟨⟨"next", .atLine 2⟩, some (.pointer (.atLine 2) "pong")⟩] [])],
    .ofName ⟨"pong", .atLine 3⟩ [⟨⟨"xs", .atLine 3⟩, none⟩] [.ret (.atLine 4)
      (some (.index (.atLine 4) (.var (.atLine 4) "xs")
        [.call (.atLine 4) (.var (.atLine 4) "ping") []]))],
    .ofName ⟨"serve", .atLine 5⟩ [] [.put (.atLine 6) (.list (.atLine 6)
      [.call (.atLine 6) (.var (.atLine 6) "ping") [],
        .call (.atLine 6) (.var (.atLine 6) "pong") [.list (.atLine 6) []]])]]
  patterns := []
  main := ⟨[], .atLine 7⟩

theorem mutualReference_cyclic :
    let analysis := mutualReference.analyze {}
    (∃ cycle ∈ analysis.cycles, "pong" ∈ cycle) ∧ analysis.program.Recursive "pong" ∧
      ¬ analysis.program.Recursive "serve" := by
  intro analysis
  have result := cyclic_iff_recursive mutualReference {} rfl
  have cycles : analysis.cycles = [["ping", "pong"]] := by cbv
  have member : ∃ cycle ∈ analysis.cycles, "pong" ∈ cycle := by simp [cycles]
  refine ⟨member, (result.1 "pong").mp member, fun recursive => ?_⟩
  obtain ⟨cycle, listed, inside⟩ := (result.1 "serve").mpr recursive
  change cycle ∈ analysis.cycles at listed
  rw [cycles, List.mem_singleton] at listed
  subst listed
  simp at inside

end Program

end CallSite
