import CallSite.Analysis
import CallSite.Inference.Simulation
import CallSite.Proofs.Resolution.Registration
import CallSite.Proofs.Scope.Identity

/-!
# The moments of a check

A chronicled run of inference keeps every state that it passes; apart from that it is the same run.
Scopes are opened and closed, moved into entries and replaced by those of later checks, and at every
moment of the check of a program the scopes that the table holds can be told apart.
-/

namespace CallSite

namespace Inference

/-- The state of a run, and those that it has passed. -/
structure Chronicle where
  state : State
  /-- The states passed so far, the latest first. -/
  past : List State := []

/-- The present state and all states passed. -/
def Chronicle.moments (chronicle : Chronicle) : List State := chronicle.state :: chronicle.past

abbrev ChronicleM := StateM Chronicle

namespace ChronicleM

/-- An effect on the state of inference begins another moment. -/
def lift {α : Type} (action : CheckM α) : ChronicleM α := fun chronicle =>
  let result := action.run chronicle.state
  (result.1, ⟨result.2, chronicle.moments⟩)

/-- Run an action between the opening and the closing of a scope, and go on with what the scope
held when it was closed. -/
def inScope {α β : Type} (kind : ScopeKind) (action : ChronicleM α)
    (keep : α → Option Scope → CheckM β) : ChronicleM β := do
  lift (modify (·.openScope kind))
  let result ← action
  let scope ← lift (modifyGet fun state => (state.scope?, state.closeScope))
  lift (keep result scope)

end ChronicleM

instance : MonadInfer ChronicleM where
  report problem position := ChronicleM.lift (report problem position)
  typeOf name := ChronicleM.lift (typeOf name)
  declare name type := ChronicleM.lift (declare name type)
  assign name type := ChronicleM.lift (assign name type)
  rebind name type := ChronicleM.lift (rebind name type)
  inBranch action := ChronicleM.inScope .branch action fun result _ => pure result
  inCall function action := do
    ChronicleM.lift (modify (·.visit function))
    ChronicleM.inScope .body action fun outcome scope => do
      modify (·.recordCall function outcome.1 outcome.2 scope)
      pure outcome.2
  inMatch pattern type action := do
    ChronicleM.lift (modify (·.visit pattern))
    ChronicleM.inScope .body action fun value scope => do
      modify (·.recordMatch pattern type value scope)
      pure value
  inMain action := ChronicleM.inScope .body action fun _ scope => modify (·.recordMain scope)

/-! ## One effect after the other -/

/-- States that were passed since the start, the latest first: each is one effect later than the one
before it. -/
inductive Passed (start : State) : List State → Prop where
  | start : Passed start [start]
  | effect {earlier later : State} {past : List State} (passed : Passed start (earlier :: past))
      (effect : earlier.env.Effect later.env) : Passed start (later :: earlier :: past)

theorem Passed.identified {start : State} (first : start.env.Identified) {moments : List State}
    (passed : Passed start moments) : ∀ moment ∈ moments, moment.env.Identified := by
  induction passed with
  | start => exact List.forall_mem_singleton.mpr first
  | effect _ effect ih =>
    have before := (List.forall_mem_cons.mp ih).1
    exact List.forall_mem_cons.mpr ⟨before.after effect, ih⟩

/-- The chronicled action does the same as the other one and misses no moment, and it only lets the
environment grow. -/
def Attests (start : State) {α : Type} (left : ChronicleM α) (right : CheckM α) : Prop :=
  ∀ chronicle : Chronicle, Passed start chronicle.moments →
    (left.run chronicle).1 = (right.run chronicle.state).1 ∧
    (left.run chronicle).2.state = (right.run chronicle.state).2 ∧
    Passed start (left.run chronicle).2.moments ∧
    chronicle.state.env.Grows (left.run chronicle).2.state.env

namespace Attests

variable {start : State}

theorem pure {α : Type} (value : α) : Attests start (Pure.pure value) (Pure.pure value) :=
  fun chronicle passed => ⟨rfl, rfl, passed, .refl chronicle.state.env⟩

theorem bind {α β : Type} {left : ChronicleM α} {right : CheckM α}
    {leftNext : α → ChronicleM β} {rightNext : α → CheckM β} (first : Attests start left right)
    (second : ∀ value, Attests start (leftNext value) (rightNext value)) :
    Attests start (left >>= leftNext) (right >>= rightNext) := by
  intro chronicle passed
  obtain ⟨value, state, between, grown⟩ := first chronicle passed
  obtain ⟨result, final, after, further⟩ :=
    second (left.run chronicle).1 (left.run chronicle).2 between
  have ran : (right >>= rightNext).run chronicle.state =
      (rightNext (left.run chronicle).1).run (left.run chronicle).2.state := by
    rw [value, state]
    rfl
  rw [ran]
  exact ⟨result, final, after, grown.trans further⟩

theorem lift {α : Type} {action : CheckM α}
    (effect : ∀ state : State, state.env.Effect (action.run state).2.env)
    (grows : ∀ state : State, state.env.Grows (action.run state).2.env) :
    Attests start (ChronicleM.lift action) action :=
  fun chronicle passed =>
    ⟨rfl, rfl, passed.effect (effect chronicle.state), grows chronicle.state⟩

theorem of_env {α : Type} {action : CheckM α}
    (same : ∀ state : State, (action.run state).2.env = state.env) :
    Attests start (ChronicleM.lift action) action :=
  .lift (fun state => same state ▸ .nothing) fun state => same state ▸ .refl state.env

/-- The scope that was opened is the one that is closed, and so it may be kept. -/
theorem inScope (first : start.env.Identified) {α β : Type} (kind : ScopeKind)
    {left : ChronicleM α} {right : CheckM α} (inner : Attests start left right)
    {keep : α → Option Scope → CheckM β}
    (effect : ∀ value scope (state : State), state.env.Spares scope →
      state.env.Effect ((keep value scope).run state).2.env)
    (grows : ∀ value scope (state : State),
      state.env.Grows ((keep value scope).run state).2.env) :
    Attests start (ChronicleM.inScope kind left keep)
      (do
        let (value, scope) ← CheckM.inScope kind right
        keep value scope) := by
  intro chronicle passed
  let inside : Chronicle := ⟨chronicle.state.openScope kind, chronicle.moments⟩
  obtain ⟨value, state, within, grown⟩ := inner inside (passed.effect (.opened kind))
  let last := (left.run inside).2
  let closed : Chronicle := ⟨last.state.closeScope, last.moments⟩
  have outside : Passed start closed.moments := within.effect .close
  have identified : last.state.env.Identified := within.identified first _ List.mem_cons_self
  have spare : closed.state.env.Spares last.state.scope? := identified.spares_close
  have around : chronicle.state.env.Grows closed.state.env := grown.close
  have ran : (do
      let (value, scope) ← CheckM.inScope kind right
      keep value scope).run chronicle.state =
        (keep (left.run inside).1 last.state.scope?).run closed.state := by
    simp only [closed, last]
    rw [value, state]
    rfl
  rw [ran]
  exact ⟨rfl, rfl, outside.effect (effect _ _ closed.state spare),
    around.trans (grows _ _ closed.state)⟩

end Attests

/-- A chronicled run keeps step with the run. -/
def chronicling {start : State} (first : start.env.Identified) : Simulation ChronicleM CheckM where
  rel := Attests start
  rel_pure := Attests.pure
  rel_bind := Attests.bind
  rel_report _ _ _ := .of_env fun _ => rfl
  rel_typeOf _ := .of_env fun _ => rfl
  rel_declare name type :=
    .lift (fun _ => .declared name type) fun state => state.env.grows_declared name type
  rel_assign name type :=
    .lift (fun _ => .assigned name type) fun state => state.env.grows_assigned name type
  rel_rebind name type :=
    .lift (fun _ => .rebind name type) fun state => state.env.grows_rebind name type
  rel_inBranch inner :=
    inner.inScope first .branch (fun _ _ _ _ => .nothing) fun _ _ _ => .of_eq rfl rfl
  rel_inCall function _ _ inner :=
    (Attests.of_env fun _ => rfl).bind fun _ => inner.inScope first .body
      (fun outcome _ _ spare => .recordFunction spare function outcome.1 outcome.2)
      fun _ _ _ => .of_eq rfl rfl
  rel_inMatch pattern type _ _ inner :=
    (Attests.of_env fun _ => rfl).bind fun _ => inner.inScope first .body
      (fun value _ _ spare => .recordPattern spare pattern type value)
      fun _ _ _ => .of_eq rfl rfl
  rel_inMain inner :=
    inner.inScope first .body (fun _ _ _ spare => .recordMain spare)
      fun _ _ _ => .of_eq rfl rfl

end Inference

namespace Checker

open Inference

/-- The states passed while the declarations of a program are registered one by one. -/
def registrations (checker : Checker) (program : Program) : List State :=
  (program.functions.inits.map fun earlier =>
    (checker.register { program with functions := earlier, patterns := [] }).state) ++
  program.patterns.inits.map fun earlier =>
    (checker.register { program with patterns := earlier }).state

/-- The chronicled check of a program whose declarations are registered. -/
def chronicle (checker : Checker) (program : Program) : Chronicle :=
  let start := checker.register program
  let task : ChronicleM Unit := checkMain start.context (infer start.context []) program.main.body
  (task.run { state := start.state }).2

/-- The checker as it is on a new table. -/
def renewed (checker : Checker) : Checker := { checker with state.env := {} }

/-- Registered declarations hold no scope. -/
theorem identified_register_renewed (checker : Checker) (program : Program) :
    (checker.renewed.register program).state.env.Identified := by
  refine Environment.identified_of_fresh ?_ ?_ ?_ ?_
    program.nodup_functions_table program.nodup_patterns_table
  · exact congrArg (·.scopes) program.table_eq
  · exact congrArg (·.mainScope) program.table_eq
  · intro entry member
    obtain ⟨function, _, rfl⟩ := Program.fresh_of_mem_functions_table member
    rfl
  · intro entry member
    obtain ⟨pattern, _, rfl⟩ := Program.fresh_of_mem_patterns_table member
    rfl

theorem identified_of_mem_registrations {checker : Checker} {program : Program} {state : State}
    (member : state ∈ checker.renewed.registrations program) : state.env.Identified := by
  rcases List.mem_append.mp member with ofFunctions | ofPatterns
  · obtain ⟨earlier, _, rfl⟩ := List.mem_map.mp ofFunctions
    exact checker.identified_register_renewed _
  · obtain ⟨earlier, _, rfl⟩ := List.mem_map.mp ofPatterns
    exact checker.identified_register_renewed _

/-- At every moment of the check of a program on a new table, the open scopes have ascending
numbers, all scopes that the table holds have different ones, which were all given out before, and
every variable belongs to the scope that holds it, under its own name and no other variable with
it.  The moments are those of registration and, from its end on, those that the check passes one
effect at a time. -/
theorem scopes_identified_at_every_moment (checker : Checker) (program : Program) :
    let run := checker.renewed.chronicle program
    run.state = (checker.renewed.checkProgram program).state ∧
      Passed (checker.renewed.register program).state run.moments ∧
      ∀ moment ∈ checker.renewed.registrations program ++ run.moments, moment.env.Identified := by
  intro run
  let start := checker.renewed.register program
  have first := checker.identified_register_renewed program
  obtain ⟨_, final, passed, _⟩ :=
    (chronicling first).rel_checkMain start.context ((chronicling first).rel_infer start.context [])
      program.main.body { state := start.state } .start
  refine ⟨final, passed, fun moment member => ?_⟩
  rcases List.mem_append.mp member with registered | checked
  · exact identified_of_mem_registrations registered
  · exact passed.identified first moment checked

end Checker

end CallSite
