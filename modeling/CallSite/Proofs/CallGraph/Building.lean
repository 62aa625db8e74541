import CallSite.CallGraph
import Mathlib.Data.List.Induction
import Mathlib.Data.List.Nodup

/-!
# Building a call graph

A call graph is built by adding functions and references one after the other.  Its nodes are the
names that were mentioned, in the order of their first mention; its edges are the references that
were added.  No node and no reference is there twice.
-/

namespace CallSite.CallGraph

/-- One addition to a call graph. -/
inductive Step where
  | node (name : String)
  | edge (caller callee : String)
deriving DecidableEq, Repr

namespace Step

def names : Step → List String
  | node name => [name]
  | edge caller callee => [caller, callee]

def apply (graph : CallGraph) : Step → CallGraph
  | node name => graph.addNode name
  | edge caller callee => graph.addEdge caller callee

end Step

/-- The graph after a sequence of additions to the empty one. -/
def build (steps : List Step) : CallGraph := steps.foldl Step.apply empty

theorem build_concat (steps : List Step) (step : Step) :
    build (steps ++ [step]) = step.apply (build steps) := by
  rw [build, List.foldl_append, List.foldl_cons, List.foldl_nil, build]

/-! ## Nodes -/

theorem nodes_addNode (graph : CallGraph) (name : String) :
    (graph.addNode name).nodes =
      if name ∈ graph.nodes then graph.nodes else graph.nodes ++ [name] := by
  unfold addNode
  by_cases known : name ∈ graph.nodes
  · rw [if_pos (List.contains_iff_mem.mpr known), if_pos known]
  · rw [if_neg (fun found => known (List.contains_iff_mem.mp found)), if_neg known, nodes, nodes,
      List.map_append]
    rfl

theorem nodes_addEdge (graph : CallGraph) (caller callee : String) :
    (graph.addEdge caller callee).nodes = ((graph.addNode caller).addNode callee).nodes := by
  rw [addEdge, nodes, nodes, List.map_map]
  refine List.map_congr_left fun entry _ => ?_
  by_cases here : entry.1 = caller <;> simp [here]

theorem nodup_nodes_addNode {graph : CallGraph} (distinct : graph.nodes.Nodup) (name : String) :
    (graph.addNode name).nodes.Nodup := by
  rw [nodes_addNode]
  split
  · exact distinct
  · next fresh =>
    rw [← List.concat_eq_append]
    exact distinct.concat fresh

theorem nodup_nodes_build (steps : List Step) : (build steps).nodes.Nodup := by
  induction steps using List.reverseRecOn with
  | nil => exact List.nodup_nil
  | append_singleton steps step ih =>
    rw [build_concat]
    cases step with
    | node name => exact nodup_nodes_addNode ih name
    | edge caller callee =>
      rw [Step.apply, nodes_addEdge]
      exact nodup_nodes_addNode (nodup_nodes_addNode ih caller) callee

theorem eraseDups_concat {α : Type} [DecidableEq α] (items : List α) (item : α) :
    (items ++ [item]).eraseDups =
      if item ∈ items.eraseDups then items.eraseDups else items.eraseDups ++ [item] := by
  rw [List.eraseDups_append]
  by_cases known : item ∈ items <;> simp [List.removeAll, List.eraseDups_cons, known]

theorem eraseDups_of_nodup {α : Type} [DecidableEq α] {items : List α} (distinct : items.Nodup) :
    items.eraseDups = items := by
  induction items using List.reverseRecOn with
  | nil => rfl
  | append_singleton items item ih =>
    obtain ⟨earlier, _, apart⟩ := List.nodup_append.mp distinct
    have fresh : item ∉ items := fun member => apart item member item List.mem_cons_self rfl
    rw [eraseDups_concat, ih earlier, if_neg fresh]

/-- The nodes come in the order of their first mention. -/
theorem nodes_build (steps : List Step) :
    (build steps).nodes = (steps.flatMap Step.names).eraseDups := by
  induction steps using List.reverseRecOn with
  | nil => rfl
  | append_singleton steps step ih =>
    rw [build_concat, List.flatMap_append, List.flatMap_singleton]
    cases step with
    | node name => rw [Step.apply, Step.names, nodes_addNode, ih, eraseDups_concat]
    | edge caller callee =>
      have both : steps.flatMap Step.names ++ [caller, callee] =
          steps.flatMap Step.names ++ [caller] ++ [callee] := by simp
      rw [Step.apply, Step.names, nodes_addEdge, nodes_addNode, nodes_addNode, ih, both,
        eraseDups_concat, eraseDups_concat]

/-! ## Edges -/

theorem callees_addNode (graph : CallGraph) (name caller : String) :
    (graph.addNode name).callees caller = graph.callees caller := by
  unfold addNode
  split
  · rfl
  · rw [callees, callees, List.lookup_append]
    cases graph.entries.lookup caller with
    | some callees => rfl
    | none =>
      rw [Option.none_or, List.lookup_cons, List.lookup_nil]
      cases caller == name <;> rfl

theorem lookup_map_addCallee (entries : List (String × List String))
    (caller callee other : String) :
    (entries.map fun entry =>
      if entry.1 = caller then (entry.1, addCallee callee entry.2) else entry).lookup other =
      (entries.lookup other).map fun callees =>
        if other = caller then addCallee callee callees else callees := by
  induction entries with
  | nil => rfl
  | cons entry entries ih =>
    obtain ⟨name, callees⟩ := entry
    rw [List.map_cons, List.lookup_cons]
    by_cases same : other = name
    · subst same
      by_cases here : other = caller <;> simp [here]
    · have differs : (other == name) = false := by simp [same]
      by_cases here : name = caller
      · subst here
        simp [differs, List.lookup_cons, ih]
      · simp [here, differs, List.lookup_cons, ih]

theorem isSome_lookup_of_mem_nodes {graph : CallGraph} {name : String}
    (known : name ∈ graph.nodes) : (graph.entries.lookup name).isSome := by
  obtain ⟨entry, member, rfl⟩ := List.mem_map.mp known
  exact List.lookup_isSome_iff.mpr ⟨entry, member, by simp⟩

theorem mem_nodes_addNode (graph : CallGraph) (name other : String) :
    other ∈ (graph.addNode name).nodes ↔ other ∈ graph.nodes ∨ other = name := by
  rw [nodes_addNode]
  split
  · next known =>
    refine ⟨.inl, ?_⟩
    rintro (old | rfl)
    · exact old
    · exact known
  · rw [List.mem_append, List.mem_singleton]

theorem callees_addEdge (graph : CallGraph) (caller callee other : String) :
    (graph.addEdge caller callee).callees other =
      if other = caller then addCallee callee (graph.callees other) else graph.callees other := by
  have grown : ((graph.addNode caller).addNode callee).callees other = graph.callees other := by
    rw [callees_addNode, callees_addNode]
  rw [← grown, addEdge, callees, callees, lookup_map_addCallee]
  by_cases same : other = caller
  · have known : other ∈ ((graph.addNode caller).addNode callee).nodes := by
      rw [mem_nodes_addNode, mem_nodes_addNode]
      exact .inl (.inr same)
    obtain ⟨callees, found⟩ := Option.isSome_iff_exists.mp (isSome_lookup_of_mem_nodes known)
    rw [found, if_pos same, Option.map_some, if_pos same, Option.getD_some, Option.getD_some]
  · rw [if_neg same]
    simp only [same, ↓reduceIte, Option.map_id']

theorem mem_addCallee (callee other : String) (callees : List String) :
    other ∈ addCallee callee callees ↔ other ∈ callees ∨ other = callee := by
  unfold addCallee
  split
  · next known =>
    refine ⟨.inl, ?_⟩
    rintro (old | rfl)
    · exact old
    · exact List.contains_iff_mem.mp known
  · rw [List.mem_append, List.mem_singleton]

theorem nodup_addCallee (callee : String) {callees : List String} (distinct : callees.Nodup) :
    (addCallee callee callees).Nodup := by
  unfold addCallee
  split
  · exact distinct
  · next fresh =>
    rw [← List.concat_eq_append]
    exact distinct.concat fun known => fresh (List.contains_iff_mem.mpr known)

theorem nodup_callees_build (steps : List Step) (caller : String) :
    ((build steps).callees caller).Nodup := by
  induction steps using List.reverseRecOn with
  | nil => exact List.nodup_nil
  | append_singleton steps step ih =>
    rw [build_concat]
    cases step with
    | node name =>
      rw [Step.apply, callees_addNode]
      exact ih
    | edge source callee =>
      rw [Step.apply, callees_addEdge]
      split
      · exact nodup_addCallee callee ih
      · exact ih

theorem hasEdge_addEdge (graph : CallGraph) (caller callee source target : String) :
    (graph.addEdge caller callee).hasEdge source target = true ↔
      graph.hasEdge source target = true ∨ source = caller ∧ target = callee := by
  rw [hasEdge, hasEdge, callees_addEdge, List.contains_iff_mem, List.contains_iff_mem]
  by_cases same : source = caller
  · rw [if_pos same, mem_addCallee]
    simp [same]
  · simp [same]

/-- The edges are the references that were added. -/
theorem hasEdge_build (steps : List Step) (caller callee : String) :
    (build steps).hasEdge caller callee = true ↔ .edge caller callee ∈ steps := by
  induction steps using List.reverseRecOn with
  | nil => simp [build, empty, hasEdge, callees]
  | append_singleton steps step ih =>
    rw [build_concat, List.mem_append, List.mem_singleton, ← ih]
    cases step with
    | node name => simp [Step.apply, hasEdge, callees_addNode]
    | edge source target => rw [Step.apply, hasEdge_addEdge, Step.edge.injEq]

end CallSite.CallGraph
