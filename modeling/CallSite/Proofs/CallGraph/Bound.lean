import CallSite.Proofs.Inference.Grants

/-!
# The call graph bounds inference

Without pointers, inference goes from one function to another only along the edges of the call
graph.  The functions being checked then form a path of the graph, so a name that is reached while
it is being checked lies on a cycle, and its function was not entered in the first place.
-/

namespace CallSite

namespace Expr

def isPointer : Expr → Bool
  | pointer _ _ => true
  | _ => false

def isMatching : Expr → Bool
  | matching _ _ _ => true
  | _ => false

end Expr

namespace Program

open Inference

/-- No part of the program is a pointer to a function. -/
def PointerFree (program : Program) : Prop := ∀ part ∈ program.parts, part.isPointer = false

/-- No part of the program is a match. -/
def MatchFree (program : Program) : Prop := ∀ part ∈ program.parts, part.isMatching = false

instance (program : Program) : Decidable program.PointerFree :=
  inferInstanceAs (Decidable (∀ part ∈ program.parts, part.isPointer = false))

instance (program : Program) : Decidable program.MatchFree :=
  inferInstanceAs (Decidable (∀ part ∈ program.parts, part.isMatching = false))

end Program

namespace Inference.Licence

variable {program : Program}

/-- Without pointers, a function's code reaches only the functions that it refers to. -/
theorem refersTo_of_admitsInvocation (pointerFree : program.PointerFree) {caller callee : String}
    {types : List Ty}
    (admitted : (ofProgram program).AdmitsInvocation (.function caller) (.call callee types)) :
    program.RefersTo caller callee := by
  rcases admitted.1 with called | ⟨position, pointer⟩
  · exact called caller rfl
  · cases pointerFree _ pointer

/-- From every function that is being checked, references lead to whatever is reached next. -/
theorem transGen_of_nested (pointerFree : program.PointerFree) (matchFree : program.MatchFree)
    {context : Context} {stack : List Owner} (nested : (ofProgram program).Nested context stack)
    {callee : String} {types : List Ty}
    (admitted : (ofProgram program).AdmitsInvocation (stack.headD .main) (.call callee types)) :
    ∀ name ∈ Owner.names stack, Relation.TransGen program.RefersTo name callee := by
  induction nested generalizing callee types with
  | main => exact fun _ member => absurd member List.not_mem_nil
  | @call stack caller _ outer entry _ _ ih =>
    have last := refersTo_of_admitsInvocation pointerFree admitted
    intro name member
    rcases List.mem_cons.mp member with rfl | further
    · exact .single last
    · exact (ih entry name further).tail last
  | matching outer entry _ _ =>
    obtain ⟨position, argument, written⟩ := entry.1
    cases matchFree _ written

/-- What is being checked was not refused when it was entered. -/
theorem not_blocked_of_nested {licence : Licence} {context : Context} {stack : List Owner}
    (strict : context.infersCyclic = false) (nested : licence.Nested context stack) :
    ∀ name ∈ Owner.names stack, name ∉ context.blocked := by
  have apart : ∀ {active name}, context.refuses active name = false → name ∉ context.blocked := by
    intro active name entered blocked
    rw [Context.refuses, strict] at entered
    simp [blocked] at entered
  induction nested with
  | main => exact fun _ member => absurd member List.not_mem_nil
  | call _ _ entered _ ih | matching _ _ entered _ ih =>
    intro name member
    rcases List.mem_cons.mp member with rfl | further
    · exact apart entered
    · exact ih name further

end Inference.Licence

namespace Program

open Inference

/-- In the run that analyses a program without pointers, a function that is being checked reaches
another one only where the call graph has an edge between them.  If the program has no match either,
dependencies are checked and cyclic functions are not inferred, no function is reached while it is
being checked, and a refused one lies on a cycle; without cycles no call is refused. -/
theorem inference_within_callGraph (program : Program) (config : Config)
    (pointerFree : program.PointerFree) :
    let analysis := program.analyze config
    let run := program.trace config
    KeptBy run.state analysis ∧
    (∀ caller stack callee types refused,
      .invoke (.function caller :: stack) (.call callee types) refused ∈ run.demands →
      (CallGraph.ofProgram analysis.program).hasEdge caller callee) ∧
    (config.checksDependencies = true → config.infersCyclic = false → program.MatchFree →
      ∀ stack callee types refused, .invoke stack (.call callee types) refused ∈ run.demands →
        callee ∉ Owner.names stack ∧
        (refused = true → ∃ cycle ∈ analysis.cycles, callee ∈ cycle) ∧
        (analysis.cycles = [] → refused = false)) := by
  intro analysis run
  have parts : analysis.program.parts = program.parts := (program.resolves_resolve _).parts_eq
  have bare : analysis.program.PointerFree := by
    rw [PointerFree, parts]
    exact pointerFree
  let start := program.checker config
  have permitted : ∀ demand ∈ run.demands, (Licence.ofProgram analysis.program).Permits
      (start.register analysis.program).context demand :=
    start.permits_trace analysis.program (Checker.covers_ofProgram rfl analysis.program)
  refine ⟨program.keptBy_trace config, ?_, ?_⟩
  · intro caller stack callee types refused member
    obtain ⟨_, admitted, _⟩ := permitted _ member
    exact (CallGraph.refers_ofProgram_iff _ _ _).mpr
      (Licence.refersTo_of_admitsInvocation bare admitted)
  · intro checks strict matchFree stack callee types refused member
    have matchless : analysis.program.MatchFree := by
      rw [MatchFree, parts]
      exact matchFree
    obtain ⟨nested, admitted, refusal⟩ := permitted _ member
    have blocked_iff : ∀ name, name ∈ (start.register analysis.program).context.blocked ↔
        ∃ cycle ∈ analysis.cycles, name ∈ cycle := fun name => List.mem_flatten
    have free : callee ∉ Owner.names stack := by
      intro entered
      have recursive : analysis.program.Recursive callee :=
        Licence.transGen_of_nested bare matchless nested admitted callee entered
      rw [← CallGraph.mem_cycles_ofProgram_iff, ← program.cycles_analyze checks] at recursive
      exact Licence.not_blocked_of_nested strict nested callee entered
        ((blocked_iff callee).mpr recursive)
    have listed : refused = true → ∃ cycle ∈ analysis.cycles, callee ∈ cycle := by
      rintro rfl
      rw [eq_comm, Context.refuses, Bool.or_eq_true, Bool.and_eq_true] at refusal
      rcases refusal with entered | ⟨_, blocked⟩
      · exact absurd (List.contains_iff_mem.mp entered) free
      · exact (blocked_iff callee).mp (List.contains_iff_mem.mp blocked)
    refine ⟨free, listed, fun acyclic => ?_⟩
    by_contra refused_
    obtain ⟨cycle, isListed, _⟩ := listed (Bool.eq_true_of_not_eq_false refused_)
    rw [acyclic] at isListed
    cases isListed

/-- A function with a call in a default and one in a lambda that it runs, and a recursive one. -/
def nestedCalls : Program where
  functions := [
    .ofName ⟨"scale", .atLine 1⟩ [⟨⟨"x", .atLine 1⟩, none⟩]
      [.ret (.atLine 2) (some (.var (.atLine 2) "x"))],
    .ofName ⟨"area", .atLine 3⟩
      [⟨⟨"w", .atLine 3⟩, none⟩,
        ⟨⟨"h", .atLine 3⟩, some (.call (.atLine 3) (.var (.atLine 3) "scale")
          [.var (.atLine 3) "w"])⟩]
      [.ret (.atLine 4) (some (.call (.atLine 4) (.lambda (.atLine 4) []
        [.ret (.atLine 4) (some (.call (.atLine 4) (.var (.atLine 4) "spin") []))]) []))],
    .ofName ⟨"spin", .atLine 5⟩ []
      [.ret (.atLine 6) (some (.call (.atLine 6) (.var (.atLine 6) "spin") []))]]
  patterns := []
  main := ⟨[.put (.atLine 8) (.call (.atLine 8) (.var (.atLine 8) "area")
    [.int (.atLine 8) 2])], .atLine 7⟩

theorem nestedCalls_within_callGraph :
    let analysis := nestedCalls.analyze {}
    nestedCalls.PointerFree ∧ nestedCalls.MatchFree ∧
      (CallGraph.ofProgram analysis.program).hasEdge "area" "scale" ∧
      (CallGraph.ofProgram analysis.program).hasEdge "area" "spin" ∧
      ∃ cycle ∈ analysis.cycles, "spin" ∈ cycle := by
  intro analysis
  have pointerFree : nestedCalls.PointerFree := by decide
  have matchFree : nestedCalls.MatchFree := by decide
  have demands : (nestedCalls.trace {}).demands =
      [.invoke [.function "area"] (.call "spin" []) true, .lookup "x" true,
        .invoke [.function "area"] (.call "scale" [.int]) false, .lookup "w" true,
        .invoke [] (.call "area" [.int]) false] := by cbv
  have spin : .invoke [.function "area"] (.call "spin" []) true ∈
      (nestedCalls.trace {}).demands := by simp [demands]
  have scale : .invoke [.function "area"] (.call "scale" [.int]) false ∈
      (nestedCalls.trace {}).demands := by simp [demands]
  obtain ⟨_, edges, refusals⟩ := inference_within_callGraph nestedCalls {} pointerFree
  exact ⟨pointerFree, matchFree, edges _ _ _ _ _ scale, edges _ _ _ _ _ spin,
    (refusals rfl rfl matchFree _ _ _ _ spin).2.1 rfl⟩

end Program

end CallSite
