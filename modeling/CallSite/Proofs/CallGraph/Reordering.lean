import CallSite.Proofs.CallGraph.Recursion

/-!
# Call graphs built in another order

The order of the additions decides in which order the cycles of a graph are found and with which
function each of them begins.  It decides nothing else: graphs built from the same additions have
the same cycles, up to their order and to rotations.
-/

namespace CallSite.CallGraph

/-- No two cycles that are listed are rotations of each other. -/
theorem nodup_cycles_build (steps : List Step) :
    ((build steps).cycles.map Cycle.ofList).Nodup := by
  refine List.Nodup.map_on ?_
    (nodup_cyclesAmong (nodup_callees_build steps) (nodup_nodes_build steps))
  intro path listed other alsoListed same
  exact (eq_of_isRotated_of_mem_cycles listed alsoListed (Cycle.coe_eq_coe.mp same)).symm

section

variable {steps others : List Step}

theorem CycleAmong.of_steps (same : ∀ step, step ∈ steps ↔ step ∈ others) {path : List String}
    (cycle : (build steps).CycleAmong (build steps).nodes path) :
    (build others).CycleAmong (build others).nodes path where
  distinct := cycle.distinct
  within node member := by
    have known := cycle.within node member
    simp only [nodes_build, List.mem_eraseDups, List.mem_flatMap, same] at known ⊢
    exact known
  closed := by
    obtain ⟨first, rest, shape, chain⟩ := cycle.closed
    refine ⟨first, rest, shape, chain.imp fun caller callee refers => ?_⟩
    rw [Refers, hasEdge_build, same] at refers
    exact (hasEdge_build others caller callee).mpr refers

theorem mem_cycles_of_steps (same : ∀ step, step ∈ steps ↔ step ∈ others) {cycle : Cycle String}
    (listed : cycle ∈ (build steps).cycles.map Cycle.ofList) :
    cycle ∈ (build others).cycles.map Cycle.ofList := by
  obtain ⟨path, member, rfl⟩ := List.mem_map.mp listed
  have closed := ((mem_cycles_build steps path).mp member).1
  obtain ⟨found, alsoMember, rotated⟩ := exists_mem_cycles_isRotated (closed.of_steps same)
  exact List.mem_map.mpr ⟨found, alsoMember, Cycle.coe_eq_coe.mpr rotated⟩

theorem perm_cycles_of_steps (same : ∀ step, step ∈ steps ↔ step ∈ others) :
    ((build steps).cycles.map Cycle.ofList).Perm ((build others).cycles.map Cycle.ofList) := by
  rw [List.perm_ext_iff_of_nodup (nodup_cycles_build steps) (nodup_cycles_build others)]
  exact fun cycle => ⟨mem_cycles_of_steps same, mem_cycles_of_steps fun step => (same step).symm⟩

end

section

variable {program other : Program} (reordered : program.functions.Perm other.functions)

include reordered

theorem perm_steps_ofProgram : (Step.ofProgram program).Perm (Step.ofProgram other) := by
  have declared : program.functionNames.contains = other.functionNames.contains := by
    funext name
    rw [Bool.eq_iff_iff, List.contains_iff_mem, List.contains_iff_mem]
    exact (reordered.map _).mem_iff
  have additions : Step.ofFunction program.functionNames =
      Step.ofFunction other.functionNames := by
    funext function
    rw [Step.ofFunction, declared, Step.ofFunction]
  rw [Step.ofProgram, additions]
  exact reordered.flatMap_right _

/-- Functions in another order have the same cycles. -/
theorem perm_cycles_ofProgram :
    ((ofProgram program).cycles.map Cycle.ofList).Perm
      ((ofProgram other).cycles.map Cycle.ofList) := by
  rw [ofProgram_eq_build, ofProgram_eq_build]
  exact perm_cycles_of_steps fun _ => (perm_steps_ofProgram reordered).mem_iff

end

end CallSite.CallGraph
