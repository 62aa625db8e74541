import CallSite.CallGraph
import CallSite.Proofs.CallGraph.Building
import Mathlib.Data.List.Cycle
import Mathlib.Data.List.MinMax

/-!
# The cycles of a call graph

The search lists the elementary cycles of a graph: each of them once, written from its earliest
function on, and nothing else.
-/

namespace CallSite.CallGraph

def Refers (graph : CallGraph) (caller callee : String) : Prop := graph.hasEdge caller callee = true

theorem mem_callees_iff (graph : CallGraph) (caller callee : String) :
    callee ∈ graph.callees caller ↔ graph.Refers caller callee :=
  List.contains_iff_mem.symm

/-- An elementary cycle among some functions, written as a path from one of them: each refers to the
next one, and the last one to the first. -/
structure CycleAmong (graph : CallGraph) (among path : List String) : Prop where
  distinct : path.Nodup
  within : ∀ node ∈ path, node ∈ among
  closed : ∃ first rest, path = first :: rest ∧ (first :: (rest ++ [first])).IsChain graph.Refers

/-- No function of the path comes before its first one. -/
def StartsEarliest (order path : List String) : Prop :=
  ∀ first ∈ path.head?, ∀ node ∈ path, order.idxOf first ≤ order.idxOf node

/-! ## The search from one function -/

/-- The functions that may still be put on a path are listed once, and the start is not among
them. -/
structure Fresh (start : String) (available : List String) : Prop where
  distinct : available.Nodup
  excludes : start ∉ available

theorem Fresh.erase {start : String} {available : List String} (fresh : Fresh start available)
    (callee : String) : Fresh start (available.erase callee) :=
  ⟨fresh.distinct.erase callee, fun member => fresh.excludes (List.mem_of_mem_erase member)⟩

/-- Induction along the search, which has one function less available at each step. -/
theorem erase_induction {motive : List String → Prop}
    (step : ∀ available, (∀ callee ∈ available, motive (available.erase callee)) →
      motive available) (available : List String) : motive available := by
  induction size : available.length using Nat.strongRecOn generalizing available with
  | _ size ih =>
    refine step available fun callee usable => ?_
    have shorter := List.length_erase_of_mem usable
    have positive := List.length_pos_of_mem usable
    exact ih _ (by omega) _ rfl

/-- What the search adds to a path: available functions, each once, that lead back to the start. -/
structure Completes (graph : CallGraph) (start : String) (available : List String) (node : String)
    (rest : List String) : Prop where
  distinct : rest.Nodup
  usable : ∀ callee ∈ rest, callee ∈ available
  leads : (node :: (rest ++ [start])).IsChain graph.Refers

theorem completes_nil_iff {graph : CallGraph} {start node : String} {available : List String} :
    graph.Completes start available node [] ↔ graph.Refers node start := by
  constructor
  · intro completes
    exact (List.isChain_cons_cons.mp completes.leads).1
  · intro refers
    exact ⟨List.nodup_nil, by simp, List.isChain_cons_cons.mpr ⟨refers, .singleton start⟩⟩

theorem completes_cons_iff {graph : CallGraph} {start node callee : String}
    {available rest : List String} (distinct : available.Nodup) :
    graph.Completes start available node (callee :: rest) ↔
      graph.Refers node callee ∧ callee ∈ available ∧
        graph.Completes start (available.erase callee) callee rest := by
  constructor
  · intro completes
    obtain ⟨unused, restDistinct⟩ := List.nodup_cons.mp completes.distinct
    obtain ⟨refers, leads⟩ := List.isChain_cons_cons.mp completes.leads
    refine ⟨refers, completes.usable callee List.mem_cons_self, restDistinct, ?_, leads⟩
    intro other member
    have differs : other ≠ callee := by
      rintro rfl
      exact unused member
    exact (List.mem_erase_of_ne differs).mpr
      (completes.usable other (List.mem_cons_of_mem callee member))
  · rintro ⟨refers, usable, completes⟩
    have unused : callee ∉ rest := fun member =>
      distinct.not_mem_erase (completes.usable callee member)
    refine ⟨List.nodup_cons.mpr ⟨unused, completes.distinct⟩, ?_,
      List.isChain_cons_cons.mpr ⟨refers, completes.leads⟩⟩
    intro other member
    rcases List.mem_cons.mp member with rfl | later
    · exact usable
    · exact List.mem_of_mem_erase (completes.usable other later)

/-- What the search lists when it follows one reference. -/
def through (graph : CallGraph) (start : String) (available path : List String)
    (callee : String) : List (List String) :=
  if callee = start then [path]
  else if callee ∈ available then
    graph.extend start (available.erase callee) (path ++ [callee]) callee
  else []

theorem extend_eq_flatMap (graph : CallGraph) (start : String) (available path : List String)
    (node : String) :
    graph.extend start available path node =
      (graph.callees node).flatMap (graph.through start available path) := by
  rw [extend]
  rfl

/-- The search lists a path with each of its completions, and nothing else. -/
def Exact (graph : CallGraph) (start : String) (available path : List String) (node : String) :
    Prop :=
  ∀ found, found ∈ graph.extend start available path node ↔
    ∃ rest, found = path ++ rest ∧ graph.Completes start available node rest

theorem mem_through_iff {graph : CallGraph} {start : String} {available path : List String}
    (excludes : start ∉ available) {callee : String}
    (inner : callee ∈ available →
      graph.Exact start (available.erase callee) (path ++ [callee]) callee)
    (found : List String) :
    found ∈ graph.through start available path callee ↔
      callee = start ∧ found = path ∨
      callee ∈ available ∧ ∃ rest, found = path ++ callee :: rest ∧
        graph.Completes start (available.erase callee) callee rest := by
  unfold through
  by_cases closes : callee = start
  · subst closes
    simp [excludes]
  · by_cases usable : callee ∈ available
    · rw [if_neg closes, if_pos usable, inner usable found]
      simp [closes, usable]
    · simp [closes, usable]

theorem exact_extend (graph : CallGraph) {start : String} {available : List String}
    (fresh : Fresh start available) (path : List String) (node : String) :
    graph.Exact start available path node := by
  induction available using erase_induction generalizing path node with
  | step available ih =>
    have inner := fun callee usable =>
      ih callee usable (fresh.erase callee) (path ++ [callee]) callee
    intro found
    rw [extend_eq_flatMap, List.mem_flatMap]
    constructor
    · rintro ⟨callee, member, listed⟩
      have refers := (graph.mem_callees_iff node callee).mp member
      rcases (mem_through_iff fresh.excludes (inner callee) found).mp listed with
        ⟨rfl, rfl⟩ | ⟨usable, rest, rfl, completes⟩
      · exact ⟨[], (List.append_nil _).symm, completes_nil_iff.mpr refers⟩
      · exact ⟨callee :: rest, rfl,
          (completes_cons_iff fresh.distinct).mpr ⟨refers, usable, completes⟩⟩
    · rintro ⟨rest, rfl, completes⟩
      cases rest with
      | nil =>
        have refers := completes_nil_iff.mp completes
        refine ⟨start, (graph.mem_callees_iff node start).mpr refers, ?_⟩
        exact (mem_through_iff fresh.excludes (inner start) _).mpr
          (.inl ⟨rfl, List.append_nil path⟩)
      | cons callee rest =>
        obtain ⟨refers, usable, inside⟩ := (completes_cons_iff fresh.distinct).mp completes
        refine ⟨callee, (graph.mem_callees_iff node callee).mpr refers, ?_⟩
        exact (mem_through_iff fresh.excludes (inner callee) _).mpr
          (.inr ⟨usable, rest, rfl, inside⟩)

/-- Different references lead to different paths. -/
theorem disjoint_through {graph : CallGraph} {start : String} {available : List String}
    (fresh : Fresh start available) (path : List String) {callee other : String}
    (differ : callee ≠ other) :
    (graph.through start available path callee).Disjoint
      (graph.through start available path other) := by
  have inner : ∀ callee, callee ∈ available →
      graph.Exact start (available.erase callee) (path ++ [callee]) callee :=
    fun callee _ => graph.exact_extend (fresh.erase callee) (path ++ [callee]) callee
  intro found here there
  rw [mem_through_iff fresh.excludes (inner _)] at here there
  rcases here with ⟨rfl, rfl⟩ | ⟨_, rest, rfl, _⟩
  · rcases there with ⟨rfl, _⟩ | ⟨_, rest, longer, _⟩
    · exact differ rfl
    · simp at longer
  · rcases there with ⟨_, shorter⟩ | ⟨_, rest, same, _⟩
    · simp at shorter
    · exact differ (List.cons.inj (List.append_cancel_left same)).1

theorem nodup_extend {graph : CallGraph} (once : ∀ caller, (graph.callees caller).Nodup)
    {start : String} {available : List String} (fresh : Fresh start available)
    (path : List String) (node : String) :
    (graph.extend start available path node).Nodup := by
  induction available using erase_induction generalizing path node with
  | step available ih =>
    rw [extend_eq_flatMap, List.nodup_flatMap]
    constructor
    · intro callee _
      unfold through
      split
      · exact List.nodup_singleton path
      · split
        · next usable => exact ih callee usable (fresh.erase callee) (path ++ [callee]) callee
        · exact List.nodup_nil
    · exact (once node).imp fun differ => disjoint_through fresh path differ

/-! ## All starts -/

/-- The cycles found from one start are those that begin there. -/
theorem mem_extend_start_iff {graph : CallGraph} {start : String} {later : List String}
    (distinct : (start :: later).Nodup) (path : List String) :
    path ∈ graph.extend start later [start] start ↔
      graph.CycleAmong (start :: later) path ∧ path.head? = some start := by
  obtain ⟨excludes, laterDistinct⟩ := List.nodup_cons.mp distinct
  rw [graph.exact_extend ⟨laterDistinct, excludes⟩ [start] start]
  constructor
  · rintro ⟨rest, rfl, completes⟩
    have unused : start ∉ rest := fun member => excludes (completes.usable start member)
    refine ⟨⟨List.nodup_cons.mpr ⟨unused, completes.distinct⟩, ?_, start, rest, rfl,
      completes.leads⟩, rfl⟩
    intro node member
    rcases List.mem_cons.mp member with rfl | inside
    · exact List.mem_cons_self
    · exact List.mem_cons_of_mem start (completes.usable node inside)
  · rintro ⟨cycle, starts⟩
    obtain ⟨first, rest, rfl, chain⟩ := cycle.closed
    cases starts
    obtain ⟨unused, restDistinct⟩ := List.nodup_cons.mp cycle.distinct
    refine ⟨rest, rfl, restDistinct, ?_, chain⟩
    intro node member
    rcases List.mem_cons.mp (cycle.within node (List.mem_cons_of_mem start member)) with
      rfl | inside
    · exact absurd member unused
    · exact inside

theorem startsEarliest_of_head {start : String} {later path : List String}
    (starts : path.head? = some start) : StartsEarliest (start :: later) path := by
  intro first member node _
  rw [starts] at member
  cases member
  rw [List.idxOf_cons_self]
  exact Nat.zero_le _

/-- A function that is not on the path does not matter for its start. -/
theorem startsEarliest_cons_iff {start : String} {later path : List String}
    (absent : start ∉ path) :
    StartsEarliest (start :: later) path ↔ StartsEarliest later path := by
  have shifted : ∀ node ∈ path, (start :: later).idxOf node = later.idxOf node + 1 := by
    intro node member
    refine List.idxOf_cons_ne later ?_
    rintro rfl
    exact absent member
  unfold StartsEarliest
  refine forall₂_congr fun first isHead => forall₂_congr fun node member => ?_
  rw [shifted first (List.mem_of_mem_head? isHead), shifted node member, Nat.add_le_add_iff_right]

/-- A cycle that has no earlier function than its start, and starts later, is one among the later
functions. -/
theorem cycleAmong_later_iff {graph : CallGraph} {start : String} {later : List String}
    (excludes : start ∉ later) (path : List String) :
    graph.CycleAmong later path ∧ StartsEarliest later path ↔
      graph.CycleAmong (start :: later) path ∧ StartsEarliest (start :: later) path ∧
        path.head? ≠ some start := by
  constructor
  · rintro ⟨cycle, earliest⟩
    have absent : start ∉ path := fun member => excludes (cycle.within start member)
    refine ⟨⟨cycle.distinct, ?_, cycle.closed⟩, (startsEarliest_cons_iff absent).mpr earliest, ?_⟩
    · intro node member
      exact List.mem_cons_of_mem start (cycle.within node member)
    · intro starts
      exact absent (List.mem_of_mem_head? starts)
  · rintro ⟨cycle, earliest, elsewhere⟩
    have absent : start ∉ path := by
      intro member
      obtain ⟨first, rest, rfl, _⟩ := cycle.closed
      have least := earliest first rfl start member
      rw [List.idxOf_cons_self, Nat.le_zero] at least
      have same := (List.idxOf_inj (cycle.within first List.mem_cons_self)).mp
        (least.trans List.idxOf_cons_self.symm)
      exact elsewhere (congrArg some same)
    refine ⟨⟨cycle.distinct, ?_, cycle.closed⟩, (startsEarliest_cons_iff absent).mp earliest⟩
    intro node member
    rcases List.mem_cons.mp (cycle.within node member) with rfl | inside
    · exact absurd member absent
    · exact inside

theorem mem_cyclesAmong_iff {graph : CallGraph} {order : List String} (distinct : order.Nodup)
    (path : List String) :
    path ∈ graph.cyclesAmong order ↔ graph.CycleAmong order path ∧ StartsEarliest order path := by
  induction order with
  | nil =>
    refine ⟨fun member => absurd member List.not_mem_nil, ?_⟩
    rintro ⟨cycle, _⟩
    obtain ⟨first, rest, rfl, _⟩ := cycle.closed
    exact absurd (cycle.within first List.mem_cons_self) List.not_mem_nil
  | cons start later ih =>
    obtain ⟨excludes, laterDistinct⟩ := List.nodup_cons.mp distinct
    rw [cyclesAmong, List.mem_append, mem_extend_start_iff distinct, ih laterDistinct,
      cycleAmong_later_iff excludes]
    constructor
    · rintro (⟨cycle, starts⟩ | ⟨cycle, earliest, _⟩)
      · exact ⟨cycle, startsEarliest_of_head starts⟩
      · exact ⟨cycle, earliest⟩
    · rintro ⟨cycle, earliest⟩
      by_cases starts : path.head? = some start
      · exact .inl ⟨cycle, starts⟩
      · exact .inr ⟨cycle, earliest, starts⟩

theorem nodup_cyclesAmong {graph : CallGraph} (once : ∀ caller, (graph.callees caller).Nodup)
    {order : List String} (distinct : order.Nodup) : (graph.cyclesAmong order).Nodup := by
  induction order with
  | nil => exact List.nodup_nil
  | cons start later ih =>
    obtain ⟨excludes, laterDistinct⟩ := List.nodup_cons.mp distinct
    rw [cyclesAmong]
    refine List.nodup_append.mpr
      ⟨nodup_extend once ⟨laterDistinct, excludes⟩ [start] start, ih laterDistinct, ?_⟩
    rintro path here _ there rfl
    obtain ⟨_, starts⟩ := (mem_extend_start_iff distinct path).mp here
    have other := ((cycleAmong_later_iff excludes path).mp
      ((mem_cyclesAmong_iff laterDistinct path).mp there)).2.2
    exact other starts

/-! ## Rotations -/

theorem CycleAmong.rotated {graph : CallGraph} {among path other : List String}
    (cycle : graph.CycleAmong among path) (rotated : path.IsRotated other) :
    graph.CycleAmong among other where
  distinct := rotated.nodup_iff.mp cycle.distinct
  within node member := cycle.within node (rotated.mem_iff.mpr member)
  closed := by
    obtain ⟨first, rest, rfl, chain⟩ := cycle.closed
    have around : Cycle.Chain graph.Refers (other : Cycle String) := by
      rw [← Cycle.coe_eq_coe.mpr rotated]
      exact (Cycle.chain_coe_cons graph.Refers first rest).mpr chain
    cases other with
    | nil => exact absurd (List.isRotated_nil_iff.mp rotated) (List.cons_ne_nil first rest)
    | cons head tail =>
      exact ⟨head, tail, rfl, (Cycle.chain_coe_cons graph.Refers head tail).mp around⟩

/-- Every cycle can be written from its earliest function on. -/
theorem exists_rotation_startsEarliest (order : List String) {path : List String}
    (nonempty : path ≠ []) :
    ∃ listed, listed.IsRotated path ∧ StartsEarliest order listed := by
  obtain ⟨earliest, found⟩ : ∃ earliest, path.argmin order.idxOf = some earliest :=
    Option.ne_none_iff_exists'.mp fun none_ => nonempty (List.argmin_eq_none.mp none_)
  obtain ⟨before, after, rfl⟩ := List.append_of_mem (List.argmin_mem found)
  refine ⟨earliest :: after ++ before, List.isRotated_append, ?_⟩
  intro first starts node member
  cases starts
  refine List.le_of_mem_argmin ?_ found
  rw [List.mem_append] at member ⊢
  exact member.symm

/-- Two ways to write a cycle that start with the same function are the same. -/
theorem eq_of_isRotated {path other : List String} (distinct : path.Nodup)
    (rotated : path.IsRotated other) (same : other.head? = path.head?) : other = path := by
  obtain ⟨count, rfl⟩ := rotated
  cases path with
  | nil => exact List.rotate_nil count
  | cons first rest =>
    rw [← List.rotate_mod] at same ⊢
    have within := Nat.mod_lt count (Nat.zero_lt_succ rest.length)
    rw [List.head?_rotate within, List.head?_eq_getElem?] at same
    rw [(List.getElem?_inj within distinct).mp same, List.rotate_zero]

theorem eq_of_startsEarliest {order path other : List String} (distinct : path.Nodup)
    (within : ∀ node ∈ path, node ∈ order) (rotated : path.IsRotated other)
    (earliest : StartsEarliest order path) (alsoEarliest : StartsEarliest order other) :
    other = path := by
  refine eq_of_isRotated distinct rotated ?_
  cases path with
  | nil => rw [List.isRotated_nil_iff'.mp rotated]
  | cons first rest =>
    cases other with
    | nil => rw [List.isRotated_nil_iff.mp rotated]
    | cons head tail =>
      have least := earliest first rfl head (rotated.mem_iff.mpr List.mem_cons_self)
      have alsoLeast := alsoEarliest head rfl first (rotated.mem_iff.mp List.mem_cons_self)
      have same := (List.idxOf_inj (within first List.mem_cons_self)).mp
        (Nat.le_antisymm least alsoLeast)
      exact congrArg some same.symm

/-! ## Graphs built by additions -/

theorem mem_cycles_build (steps : List Step) (path : List String) :
    path ∈ (build steps).cycles ↔ (build steps).CycleAmong (build steps).nodes path ∧
      StartsEarliest (build steps).nodes path :=
  mem_cyclesAmong_iff (nodup_nodes_build steps) path

theorem exists_mem_cycles_isRotated {steps : List Step} {path : List String}
    (cycle : (build steps).CycleAmong (build steps).nodes path) :
    ∃ listed ∈ (build steps).cycles, listed.IsRotated path := by
  have nonempty : path ≠ [] := by
    obtain ⟨first, rest, rfl, _⟩ := cycle.closed
    exact List.cons_ne_nil first rest
  obtain ⟨listed, rotated, earliest⟩ :=
    exists_rotation_startsEarliest (build steps).nodes nonempty
  exact ⟨listed, (mem_cycles_build steps listed).mpr ⟨cycle.rotated rotated.symm, earliest⟩,
    rotated⟩

theorem eq_of_isRotated_of_mem_cycles {steps : List Step} {path other : List String}
    (listed : path ∈ (build steps).cycles) (alsoListed : other ∈ (build steps).cycles)
    (rotated : path.IsRotated other) : other = path := by
  obtain ⟨cycle, earliest⟩ := (mem_cycles_build steps path).mp listed
  obtain ⟨_, alsoEarliest⟩ := (mem_cycles_build steps other).mp alsoListed
  exact eq_of_startsEarliest cycle.distinct cycle.within rotated earliest alsoEarliest

end CallSite.CallGraph
