import CallSite.Proofs.CallGraph.Elementary

/-!
# The order of the cycles

A cycle is written as a word of numbers: the place of its first function among the nodes, and then,
for each of its functions, the place of the reference that it follows.  The words of the listed
cycles increase strictly in the lexicographic order.
-/

namespace CallSite.CallGraph

/-- The places of the references that lead from a function along a path. -/
def edgePlaces (graph : CallGraph) : String → List String → List Nat
  | _, [] => []
  | node, next :: path => (graph.callees node).idxOf next :: graph.edgePlaces next path

/-- The place of the first function of a cycle, and the places of the references it follows, the one
back to its first function included. -/
def encode (graph : CallGraph) : List String → List Nat
  | [] => []
  | first :: rest => graph.nodes.idxOf first :: graph.edgePlaces first (rest ++ [first])

/-- Of two paths that go on from a function back to the start, the first one follows the earlier
reference where they part. -/
def ClosesBefore (graph : CallGraph) (start node : String) (path left right : List String) : Prop :=
  ∃ first second, left = path ++ first ∧ right = path ++ second ∧
    graph.edgePlaces node (first ++ [start]) < graph.edgePlaces node (second ++ [start])

theorem ClosesBefore.step {graph : CallGraph} {start node callee : String}
    {path left right : List String}
    (before : graph.ClosesBefore start callee (path ++ [callee]) left right) :
    graph.ClosesBefore start node path left right := by
  obtain ⟨first, second, rfl, rfl, less⟩ := before
  refine ⟨callee :: first, callee :: second, by simp, by simp, ?_⟩
  exact List.Lex.cons less

/-- A list of places begins with that of the reference that was followed. -/
theorem exists_edgePlaces_of_mem_through {graph : CallGraph} {start node callee : String}
    {available path found : List String} (fresh : Fresh start available)
    (listed : found ∈ graph.through start available path callee) :
    ∃ rest places, found = path ++ rest ∧
      graph.edgePlaces node (rest ++ [start]) = (graph.callees node).idxOf callee :: places := by
  have inner := fun _ : callee ∈ available =>
    graph.exact_extend (fresh.erase callee) (path ++ [callee]) callee
  rcases (mem_through_iff fresh.excludes inner found).mp listed with
    ⟨rfl, rfl⟩ | ⟨_, rest, rfl, _⟩
  · exact ⟨[], [], (List.append_nil _).symm, rfl⟩
  · exact ⟨callee :: rest, graph.edgePlaces callee (rest ++ [start]), rfl, rfl⟩

theorem pairwise_idxOf {names : List String} (distinct : names.Nodup) :
    names.Pairwise fun left right => names.idxOf left < names.idxOf right := by
  rw [List.pairwise_iff_getElem]
  intro i j inside inside' less
  rwa [distinct.idxOf_getElem i inside, distinct.idxOf_getElem j inside']

/-- The search from a function lists paths in the order of the places.  The induction is along the
search: below one reference by the hypothesis, between two of them by their own places. -/
theorem pairwise_extend {graph : CallGraph} (once : ∀ caller, (graph.callees caller).Nodup)
    {start : String} {available : List String} (fresh : Fresh start available)
    (path : List String) (node : String) :
    (graph.extend start available path node).Pairwise (graph.ClosesBefore start node path) := by
  induction available using erase_induction generalizing path node with
  | step available ih =>
    rw [extend_eq_flatMap, List.pairwise_flatMap]
    constructor
    · intro callee _
      unfold through
      split
      · exact List.pairwise_singleton _ path
      · split
        · next usable =>
          exact (ih callee usable (fresh.erase callee) (path ++ [callee]) callee).imp .step
        · exact .nil
    · refine (pairwise_idxOf (once node)).imp fun less left leftListed right rightListed => ?_
      obtain ⟨first, places, rfl, firstPlaces⟩ := exists_edgePlaces_of_mem_through fresh leftListed
      obtain ⟨second, others, rfl, secondPlaces⟩ :=
        exists_edgePlaces_of_mem_through fresh rightListed
      refine ⟨first, second, rfl, rfl, ?_⟩
      rw [firstPlaces, secondPlaces]
      exact List.Lex.rel less

/-- The cycles found from one start, by their words. -/
theorem pairwise_encode_extend {graph : CallGraph}
    (once : ∀ caller, (graph.callees caller).Nodup) {start : String} {later : List String}
    (fresh : Fresh start later) :
    (graph.extend start later [start] start).Pairwise fun left right =>
      graph.encode left < graph.encode right := by
  refine (pairwise_extend once fresh [start] start).imp ?_
  rintro left right ⟨first, second, rfl, rfl, less⟩
  exact List.Lex.cons less

theorem exists_encode_of_mem_extend {graph : CallGraph} {start : String} {later found : List String}
    (fresh : Fresh start later) (listed : found ∈ graph.extend start later [start] start) :
    ∃ places, graph.encode found = graph.nodes.idxOf start :: places := by
  obtain ⟨rest, rfl, _⟩ := (graph.exact_extend fresh [start] start found).mp listed
  exact ⟨_, rfl⟩

/-- The word of a cycle among some functions begins with the place of one of them. -/
theorem exists_encode_of_mem_cyclesAmong {graph : CallGraph} {order found : List String}
    (distinct : order.Nodup) (listed : found ∈ graph.cyclesAmong order) :
    ∃ start ∈ order, ∃ places, graph.encode found = graph.nodes.idxOf start :: places := by
  induction order with
  | nil => cases listed
  | cons start later ih =>
    obtain ⟨excludes, laterDistinct⟩ := List.nodup_cons.mp distinct
    rcases List.mem_append.mp listed with here | after
    · exact ⟨start, List.mem_cons_self, exists_encode_of_mem_extend ⟨laterDistinct, excludes⟩ here⟩
    · obtain ⟨other, member, encoded⟩ := ih laterDistinct after
      exact ⟨other, List.mem_cons_of_mem start member, encoded⟩

theorem pairwise_encode_cyclesAmong {graph : CallGraph}
    (once : ∀ caller, (graph.callees caller).Nodup) {order : List String}
    (distinct : order.Nodup)
    (increasing : order.Pairwise fun left right =>
      graph.nodes.idxOf left < graph.nodes.idxOf right) :
    (graph.cyclesAmong order).Pairwise fun left right =>
      graph.encode left < graph.encode right := by
  induction order with
  | nil => exact .nil
  | cons start later ih =>
    obtain ⟨excludes, laterDistinct⟩ := List.nodup_cons.mp distinct
    obtain ⟨first, rest⟩ := List.pairwise_cons.mp increasing
    have fresh : Fresh start later := ⟨laterDistinct, excludes⟩
    refine List.pairwise_append.mpr
      ⟨pairwise_encode_extend once fresh, ih laterDistinct rest, fun left here right after => ?_⟩
    obtain ⟨places, leftEncoded⟩ := exists_encode_of_mem_extend fresh here
    obtain ⟨other, member, others, rightEncoded⟩ :=
      exists_encode_of_mem_cyclesAmong laterDistinct after
    rw [leftEncoded, rightEncoded]
    exact List.Lex.rel (first other member)

/-- The words of the cycles of a graph increase strictly. -/
theorem sorted_encode_cycles (steps : List Step) :
    ((build steps).cycles.map (build steps).encode).Pairwise (· < ·) :=
  List.pairwise_map.mpr (pairwise_encode_cyclesAmong (nodup_callees_build steps)
    (nodup_nodes_build steps) (pairwise_idxOf (nodup_nodes_build steps)))

end CallSite.CallGraph
