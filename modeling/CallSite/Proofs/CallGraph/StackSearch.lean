import Mathlib.Computability.StateTransition
import CallSite.Proofs.CallGraph.CycleOrder
import CallSite.Proofs.CallGraph.Recursion

/-!
# The search with a stack

The same cycles can be found without recursion.  A search from one function keeps the functions of
its path on a stack, each with the place of the next reference to follow, and takes one reference at
a time.  It ends, and it finds the cycles in the order of the recursive listing, which are exactly
the elementary ones.
-/

namespace CallSite.CallGraph

open StateTransition

/-! ## The search -/

/-- A function on the path, by its place among the nodes, and the place of its next reference. -/
structure Visit where
  node : Nat
  next : Nat

/-- A search under way.  The innermost visit comes first on the stack. -/
structure Search where
  stack : List Visit
  onPath : List Nat
  found : List (List String)

def nameAt (graph : CallGraph) (node : Nat) : String := graph.nodes[node]?.getD ""

def edgeCount (graph : CallGraph) (node : Nat) : Nat :=
  (graph.entries[node]?.map (·.2.length)).getD 0

/-- The place of the function that a reference leads to. -/
def edgeTarget? (graph : CallGraph) (node edge : Nat) : Option Nat := do
  let entry ← graph.entries[node]?
  let callee ← entry.2[edge]?
  graph.nodes.idxOf? callee

namespace Search

def start (node : Nat) (found : List (List String)) : Search := ⟨[⟨node, 0⟩], [node], found⟩

/-- The functions on the stack, the outermost first. -/
def path (graph : CallGraph) (stack : List Visit) : List String :=
  stack.reverse.map fun visit => graph.nameAt visit.node

/-- Follow the next reference of the innermost visit, or end the visit when there is none left.
Nothing is left to do when the stack is empty. -/
def step? (graph : CallGraph) (first : Nat) : Search → Option Search
  | ⟨[], _, _⟩ => none
  | ⟨⟨node, next⟩ :: below, onPath, found⟩ =>
    let stack := ⟨node, next + 1⟩ :: below
    match graph.edgeTarget? node next with
    | none =>
      if graph.edgeCount node ≤ next then some ⟨below, onPath.erase node, found⟩
      else some ⟨stack, onPath, found⟩
    | some target =>
      if target < first then some ⟨stack, onPath, found⟩
      else if target = first then some ⟨stack, onPath, found ++ [path graph stack]⟩
      else if target ∈ onPath then some ⟨stack, onPath, found⟩
      else some ⟨⟨target, 0⟩ :: stack, target :: onPath, found⟩

/-- Take steps until there is none left, and return what was found. -/
def run (graph : CallGraph) (first : Nat) (search : Search) : Part (List (List String)) :=
  (eval (step? graph first) search).map (·.found)

end Search

/-- Search from every node in turn; there is a result only if every search ends. -/
def searchAll (graph : CallGraph) : Part (List (List String)) :=
  (List.range graph.nodes.length).foldlM
    (fun found first => (Search.start first found).run graph first) []

/-! ## Places -/

/-- Nodes are listed once, and references lead to nodes. -/
structure Closed (graph : CallGraph) : Prop where
  distinct : graph.nodes.Nodup
  known : ∀ caller, ∀ callee ∈ graph.callees caller, callee ∈ graph.nodes

theorem closed_build (steps : List Step) : (build steps).Closed where
  distinct := nodup_nodes_build steps
  known caller callee member :=
    (mem_nodes_of_refers (((build steps).mem_callees_iff caller callee).mp member)).2

theorem lookup_of_mem {entries : List (String × List String)}
    (distinct : (entries.map (·.1)).Nodup) {entry : String × List String}
    (member : entry ∈ entries) : entries.lookup entry.1 = some entry.2 := by
  induction entries with
  | nil => cases member
  | cons first entries ih =>
    obtain ⟨absent, later⟩ := List.nodup_cons.mp distinct
    rcases List.mem_cons.mp member with rfl | inside
    · rw [List.lookup_cons, beq_self_eq_true]
    · have differs : (entry.1 == first.1) = false := by
        rw [beq_eq_false_iff_ne]
        intro same
        exact absent (List.mem_map.mpr ⟨entry, inside, same⟩)
      rw [List.lookup_cons, differs]
      exact ih later inside

section

variable {graph : CallGraph} {node : Nat} {name : String}

theorem getElem?_entries (closed : graph.Closed) (there : graph.nodes[node]? = some name) :
    graph.entries[node]? = some (name, graph.callees name) := by
  rw [nodes, List.getElem?_map, Option.map_eq_some_iff] at there
  obtain ⟨entry, found, rfl⟩ := there
  rw [found, callees, lookup_of_mem closed.distinct (List.mem_of_getElem? found)]
  rfl

theorem idxOf_of_getElem? (closed : graph.Closed) (there : graph.nodes[node]? = some name) :
    graph.nodes.idxOf name = node := by
  obtain ⟨inside, rfl⟩ := List.getElem?_eq_some_iff.mp there
  exact closed.distinct.idxOf_getElem node inside

theorem edgeTarget?_of_callee (closed : graph.Closed) (there : graph.nodes[node]? = some name)
    {before after : List String} {callee : String}
    (split : graph.callees name = before ++ callee :: after) :
    graph.edgeTarget? node before.length = some (graph.nodes.idxOf callee) := by
  have member : callee ∈ graph.nodes := closed.known name callee (by simp [split])
  have reference : (graph.callees name)[before.length]? = some callee := by simp [split]
  rw [edgeTarget?, getElem?_entries closed there, List.idxOf_eq_getD_idxOf?]
  change (graph.callees name)[before.length]?.bind _ = _
  rw [reference, Option.bind_some]
  cases found : graph.nodes.idxOf? callee with
  | none => exact absurd member (List.idxOf?_eq_none_iff.mp found)
  | some place => rfl

theorem edgeTarget?_length (closed : graph.Closed) (there : graph.nodes[node]? = some name) :
    graph.edgeTarget? node (graph.callees name).length = none := by
  rw [edgeTarget?, getElem?_entries closed there]
  simp

theorem edgeCount_eq (closed : graph.Closed) (there : graph.nodes[node]? = some name) :
    graph.edgeCount node = (graph.callees name).length := by
  rw [edgeCount, getElem?_entries closed there]
  rfl

end

/-! ## Steps -/

/-- The functions that may still be put on the path are the nodes after the first one that are not
on it. -/
structure Spare (graph : CallGraph) (first : Nat) (onPath : List Nat) (available : List String) :
    Prop where
  distinct : available.Nodup
  mem_iff : ∀ callee ∈ graph.nodes, callee ∈ available ↔
    first < graph.nodes.idxOf callee ∧ graph.nodes.idxOf callee ∉ onPath

theorem Spare.push {graph : CallGraph} {first : Nat} {onPath : List Nat} {available : List String}
    (spare : graph.Spare first onPath available) (callee : String) :
    graph.Spare first (graph.nodes.idxOf callee :: onPath) (available.erase callee) where
  distinct := spare.distinct.erase callee
  mem_iff other known := by
    rw [spare.distinct.mem_erase_iff, spare.mem_iff other known, List.mem_cons, not_or,
      List.idxOf_inj known]
    tauto

/-- In a list without repetitions, what comes after a place is found at later places. -/
theorem mem_later_iff {before later : List String} {start : String}
    (distinct : (before ++ start :: later).Nodup) {callee : String}
    (known : callee ∈ before ++ start :: later) :
    callee ∈ later ↔ before.length < (before ++ start :: later).idxOf callee := by
  obtain ⟨_, inner, apart⟩ := List.nodup_append.mp distinct
  rw [List.idxOf_append]
  by_cases early : callee ∈ before
  · have inside := List.idxOf_lt_length_iff.mpr early
    have absent : callee ∉ later := fun late =>
      apart callee early callee (List.mem_cons_of_mem start late) rfl
    rw [if_pos early]
    exact iff_of_false absent (by omega)
  · rw [if_neg early]
    by_cases same : callee = start
    · subst same
      exact iff_of_false (List.nodup_cons.mp inner).1 (by simp)
    · rw [List.mem_append, List.mem_cons] at known
      rw [List.idxOf_cons_ne later (Ne.symm same)]
      exact iff_of_true (by tauto) (by omega)

/-- At the outset the functions after the first one may be put on the path. -/
theorem spare_start {graph : CallGraph} (closed : graph.Closed) {before later : List String}
    {start : String} (split : graph.nodes = before ++ start :: later) :
    graph.Spare before.length [before.length] later := by
  have distinct := closed.distinct
  rw [split] at distinct
  constructor
  · exact (List.nodup_cons.mp (List.nodup_append.mp distinct).2.1).2
  · intro callee known
    rw [split] at known ⊢
    rw [mem_later_iff distinct known, List.mem_singleton]
    omega

namespace Search

variable {graph : CallGraph} {first node : Nat} {start name : String}

theorem path_cons (there : graph.nodes[node]? = some name) (next : Nat) (below : List Visit) :
    path graph (⟨node, next⟩ :: below) = path graph below ++ [name] := by
  simp [path, nameAt, there]

/-- One step follows a reference as the recursive search does. -/
theorem step?_callee (closed : graph.Closed) (starts : graph.nodes[first]? = some start)
    (there : graph.nodes[node]? = some name) {before after : List String} {callee : String}
    (split : graph.callees name = before ++ callee :: after) {onPath : List Nat}
    {available : List String} (spare : graph.Spare first onPath available) (below : List Visit)
    (found : List (List String)) :
    step? graph first ⟨⟨node, before.length⟩ :: below, onPath, found⟩ =
      if callee = start then
        some ⟨⟨node, before.length + 1⟩ :: below, onPath,
          found ++ [path graph below ++ [name]]⟩
      else if callee ∈ available then
        some ⟨⟨graph.nodes.idxOf callee, 0⟩ :: ⟨node, before.length + 1⟩ :: below,
          graph.nodes.idxOf callee :: onPath, found⟩
      else some ⟨⟨node, before.length + 1⟩ :: below, onPath, found⟩ := by
  have member : callee ∈ graph.nodes := closed.known name callee (by simp [split])
  have closes : graph.nodes.idxOf callee = first ↔ callee = start := by
    rw [← idxOf_of_getElem? closed starts, List.idxOf_inj member]
  rw [step?, edgeTarget?_of_callee closed there split]
  simp only [spare.mem_iff callee member, ← closes, path_cons there]
  rcases Nat.lt_trichotomy (graph.nodes.idxOf callee) first with earlier | same | later
  · rw [if_pos earlier, if_neg (by omega), if_neg (by omega)]
  · rw [if_neg (by omega), if_pos same, if_pos same]
  · have apart : graph.nodes.idxOf callee ≠ first := by omega
    rw [if_neg (by omega), if_neg apart, if_neg apart]
    by_cases visited : graph.nodes.idxOf callee ∈ onPath
    · rw [if_pos visited, if_neg (fun usable => usable.2 visited)]
    · rw [if_neg visited, if_pos ⟨later, visited⟩]

/-- The last step of a visit takes it off the stack. -/
theorem step?_end (closed : graph.Closed) (there : graph.nodes[node]? = some name)
    (below : List Visit) (onPath : List Nat) (found : List (List String)) :
    step? graph first ⟨⟨node, (graph.callees name).length⟩ :: below, onPath, found⟩ =
      some ⟨below, onPath.erase node, found⟩ := by
  rw [step?, edgeTarget?_length closed there, edgeCount_eq closed there]
  simp

/-! ## Runs -/

/-- A visit with some references left adds what the recursive search lists for these, and leaves the
stack.  The induction is on the functions that are available, and within a visit on the references
that are left: a reference to an available function opens a visit with one function less. -/
theorem reaches_visit (closed : graph.Closed) (starts : graph.nodes[first]? = some start)
    {available : List String} {onPath : List Nat} (spare : graph.Spare first onPath available)
    (there : graph.nodes[node]? = some name) {before after : List String}
    (split : graph.callees name = before ++ after) (below : List Visit)
    (found : List (List String)) :
    Reaches (step? graph first) ⟨⟨node, before.length⟩ :: below, onPath, found⟩
      ⟨below, onPath.erase node, found ++ after.flatMap
        (graph.through start available (path graph below ++ [name]))⟩ := by
  induction available using erase_induction
    generalizing onPath node name before after below found with
  | step available ih =>
    induction after generalizing before found with
    | nil =>
      rw [List.append_nil] at split
      rw [← split, List.flatMap_nil, List.append_nil]
      exact .single (step?_end closed there below onPath found)
    | cons callee after later =>
      have moved : graph.callees name = (before ++ [callee]) ++ after := by simpa using split
      have next := later moved
      simp only [List.length_append, List.length_singleton] at next
      have step := step?_callee closed starts there split spare below found
      rw [List.flatMap_cons, ← List.append_assoc, through]
      by_cases closes : callee = start
      · rw [if_pos closes] at step ⊢
        exact .head step (next _)
      · rw [if_neg closes] at step ⊢
        by_cases usable : callee ∈ available
        · have member : callee ∈ graph.nodes := closed.known name callee (by simp [split])
          have unvisited : graph.callees callee = [] ++ graph.callees callee := rfl
          have visit := ih callee usable (spare.push callee) (List.getElem?_idxOf member) unvisited
            (⟨node, before.length + 1⟩ :: below) found
          rw [List.erase_cons_head, path_cons there, ← extend_eq_flatMap] at visit
          rw [if_pos usable] at step ⊢
          exact .head step (visit.trans (next _))
        · rw [if_neg usable] at step ⊢
          rw [List.append_nil]
          exact .head step (next _)

/-- A search from a node ends with the cycles that the recursive search lists from there. -/
theorem run_start (closed : graph.Closed) {before later : List String}
    (split : graph.nodes = before ++ start :: later) (found : List (List String)) :
    (Search.start before.length found).run graph before.length =
      Part.some (found ++ graph.extend start later [start] start) := by
  have starts : graph.nodes[before.length]? = some start := by simp [split]
  have unvisited : graph.callees start = [] ++ graph.callees start := rfl
  have visit := reaches_visit closed starts (spare_start closed split) starts unvisited [] found
  rw [← extend_eq_flatMap] at visit
  have ends := Part.eq_some_iff.mpr (mem_eval.mpr ⟨visit, rfl⟩)
  rw [run]
  exact (congrArg (Part.map _) ends).trans (Part.map_some _ _)

end Search

/-- The searches from the remaining nodes, one after the other. -/
theorem foldlM_run {graph : CallGraph} (closed : graph.Closed) {before rest : List String}
    (split : graph.nodes = before ++ rest) (found : List (List String)) :
    (List.range' before.length rest.length).foldlM
      (fun found first => (Search.start first found).run graph first) found =
      Part.some (found ++ graph.cyclesAmong rest) := by
  induction rest generalizing before found with
  | nil =>
    rw [cyclesAmong, List.append_nil]
    rfl
  | cons start later ih =>
    have moved : graph.nodes = (before ++ [start]) ++ later := by simpa using split
    have next := ih moved
    simp only [List.length_append, List.length_singleton] at next
    rw [List.length_cons, List.range'_succ, List.foldlM_cons, Search.run_start closed split]
    refine (Part.bind_some _ _).trans ?_
    rw [next, cyclesAmong, List.append_assoc]

theorem searchAll_build (steps : List Step) :
    (build steps).searchAll = Part.some (build steps).cycles := by
  rw [searchAll, List.range_eq_range']
  have all : (build steps).nodes = [] ++ (build steps).nodes := rfl
  exact foldlM_run (closed_build steps) all []

/-- The cycles of a graph, however it was built.  Its nodes come in the order of their first mention
and its edges are the references that were added.  The search with a stack ends, with the list of
cycles.  No cycle is listed twice; those listed are the elementary cycles that start with their
earliest function; and every elementary cycle, wherever it is begun, is listed in exactly one of its
rotations. -/
theorem cycles_exact (steps : List Step) :
    let graph := build steps
    graph.nodes = (steps.flatMap Step.names).eraseDups ∧
    (∀ caller callee, graph.Refers caller callee ↔ .edge caller callee ∈ steps) ∧
    ∃ cycles, graph.searchAll = Part.some cycles ∧ graph.cycles = cycles ∧ cycles.Nodup ∧
      (∀ path, path ∈ cycles ↔
        graph.CycleAmong graph.nodes path ∧ StartsEarliest graph.nodes path) ∧
      ∀ path, graph.CycleAmong graph.nodes path →
        ∃! listed, listed ∈ cycles ∧ listed.IsRotated path := by
  intro graph
  refine ⟨nodes_build steps, hasEdge_build steps, graph.cycles, searchAll_build steps, rfl,
    nodup_cyclesAmong (nodup_callees_build steps) (nodup_nodes_build steps),
    mem_cycles_build steps, ?_⟩
  intro path cycle
  obtain ⟨listed, member, rotated⟩ := exists_mem_cycles_isRotated cycle
  refine ⟨listed, ⟨member, rotated⟩, ?_⟩
  rintro other ⟨alsoListed, alsoRotated⟩
  exact eq_of_isRotated_of_mem_cycles member alsoListed (rotated.trans alsoRotated.symm)

/-- Two cycles that share an edge, and a self-reference, are all listed. -/
example : (build [.edge "f" "g", .edge "g" "f", .edge "g" "h", .edge "h" "f",
    .edge "h" "h"]).cycles = [["f", "g"], ["f", "g", "h"], ["h"]] := by
  cbv

/-- The cycles of a graph come in the strictly increasing lexicographic order of their words, and
the search with a stack ends with the same cycles in the same order. -/
theorem cycles_in_lexicographic_order (steps : List Step) :
    ((build steps).cycles.map (build steps).encode).Pairwise (· < ·) ∧
      (build steps).searchAll = Part.some (build steps).cycles :=
  ⟨sorted_encode_cycles steps, searchAll_build steps⟩

end CallSite.CallGraph
