import CallSite.Analysis
import CallSite.Inference.Simulation
import CallSite.Query

/-!
# Traces of inference

A traced run of inference notes whatever it asks for by name: each variable that it looks up, with
whether it was there, and each call or match that it reaches, with what is being checked at that
moment and whether it is refused.  Apart from the notes a traced run is the same run.
-/

namespace CallSite

namespace Owner

/-- The declared name; the main body has none. -/
def name? : Owner → Option String
  | main => none
  | function name => some name
  | pattern name => some name

/-- The declared names among some owners. -/
def names (owners : List Owner) : List String := owners.filterMap name?

end Owner

namespace Inference

def Invocation.owner : Invocation → Owner
  | call name _ => .function name
  | matching name _ => .pattern name

theorem Invocation.name?_owner (invocation : Invocation) :
    invocation.owner.name? = some invocation.name := by
  cases invocation <;> rfl

/-- The invocation is one of something declared. -/
def Context.Declares (context : Context) : Invocation → Prop
  | .call name _ => (context.function? name).isSome
  | .matching name _ => (context.pattern? name).isSome

theorem follow_of_not_declares {m : Type → Type} [Monad m] [MonadInfer m] {context : Context}
    {invocation : Invocation} (undeclared : ¬ context.Declares invocation)
    (enter : List String → Invocation → m Ty) (active : List String) :
    follow context enter active invocation = pure .unresolved := by
  cases invocation with
  | call name types =>
    have missing : context.function? name = none := Option.not_isSome_iff_eq_none.mp undeclared
    simp [follow, missing]
  | matching name type =>
    have missing : context.pattern? name = none := Option.not_isSome_iff_eq_none.mp undeclared
    simp [follow, missing]

/-- What a run asks for by name. -/
inductive Demand where
  | lookup (name : String) (found : Bool)
  | invoke (stack : List Owner) (invocation : Invocation) (refused : Bool)

structure Traced where
  state : State
  /-- What is being checked inside the main body, the innermost first. -/
  stack : List Owner := []
  /-- What was asked for, the latest first. -/
  demands : List Demand := []

namespace Traced

def note (traced : Traced) (demand : Demand) : Traced :=
  { traced with demands := demand :: traced.demands }

def push (traced : Traced) (owner : Owner) : Traced :=
  { traced with stack := owner :: traced.stack }

def pop (traced : Traced) : Traced := { traced with stack := traced.stack.tail }

end Traced

abbrev TraceM := StateM Traced

namespace TraceM

def lift {α : Type} (action : CheckM α) : TraceM α := fun traced =>
  let result := action.run traced.state
  (result.1, { traced with state := result.2 })

def inScope {α : Type} (kind : ScopeKind) (action : TraceM α) : TraceM (α × Option Scope) := do
  lift (modify (·.openScope kind))
  let result ← action
  let scope ← lift (modifyGet fun state => (state.scope?, state.closeScope))
  pure (result, scope)

/-- Run an action while an owner is being checked. -/
def during {α : Type} (owner : Owner) (action : TraceM α) : TraceM α := do
  modify (·.push owner)
  let result ← action
  modify (·.pop)
  pure result

end TraceM

instance : MonadInfer TraceM where
  report problem position := TraceM.lift (report problem position)
  typeOf name := do
    modify fun traced => traced.note (.lookup name (traced.state.env.typeOf? name).isSome)
    TraceM.lift (typeOf name)
  declare name type := TraceM.lift (declare name type)
  assign name type := TraceM.lift (assign name type)
  rebind name type := TraceM.lift (rebind name type)
  inBranch action := do
    let (result, _) ← TraceM.inScope .branch action
    pure result
  inCall function action := do
    TraceM.lift (modify (·.visit function))
    let ((types, returns), scope) ←
      TraceM.during (.function function) (TraceM.inScope .body action)
    TraceM.lift (modify (·.recordCall function types returns scope))
    pure returns
  inMatch pattern type action := do
    TraceM.lift (modify (·.visit pattern))
    let (value, scope) ← TraceM.during (.pattern pattern) (TraceM.inScope .body action)
    TraceM.lift (modify (·.recordMatch pattern type value scope))
    pure value
  inMain action := do
    let (_, scope) ← TraceM.inScope .body action
    TraceM.lift (modify (·.recordMain scope))

/-- Note that an invocation was reached while the names in `active` are being checked. -/
def notice (context : Context) (active : List String) (invocation : Invocation) : TraceM Unit :=
  modify fun traced =>
    traced.note (.invoke traced.stack invocation (context.refuses active invocation.name))

/-- Follow an invocation, and note it together with those nested in it. -/
def watchWithin (context : Context) : Nat → List String → Invocation → TraceM Ty
  | 0, active, invocation => do
    notice context active invocation
    pure .unresolved
  | depth + 1, active, invocation => do
    notice context active invocation
    follow context (watchWithin context depth) active invocation

/-- The traced form of `infer`, with the same room for nested invocations. -/
def watch (context : Context) (active : List String) : Invocation → TraceM Ty :=
  watchWithin context (context.unentered active).length active

/-- Any depth that leaves room for the names not yet entered gives the same traced run. -/
theorem watchWithin_eq_watchWithin {context : Context} {active : List String} {depth other : Nat}
    (room : (context.unentered active).length ≤ depth)
    (otherRoom : (context.unentered active).length ≤ other) :
    watchWithin context depth active = watchWithin context other active := by
  induction depth generalizing other active with
  | zero =>
    cases other with
    | zero => rfl
    | succ other =>
      funext invocation
      rw [watchWithin, watchWithin, follow_eq_unresolved (by omega)]
  | succ depth ih =>
    cases other with
    | zero =>
      funext invocation
      rw [watchWithin, watchWithin, follow_eq_unresolved (by omega)]
    | succ other =>
      funext invocation
      rw [watchWithin, watchWithin, follow_congr]
      intro name declared free
      have fewer := Context.length_unentered_cons_lt declared free
      exact ih (by omega) (by omega)

/-- Nested invocations are watched in the same way, without any bound on their depth. -/
theorem watch_eq_follow (context : Context) (active : List String) (invocation : Invocation) :
    watch context active invocation = (do
      notice context active invocation
      follow context (watch context) active invocation) := by
  have unfolded : watch context active =
      watchWithin context ((context.unentered active).length + 1) active :=
    watchWithin_eq_watchWithin (Nat.le_refl _) (Nat.le_succ _)
  rw [unfolded, watchWithin, follow_congr]
  intro name declared free
  have fewer := Context.length_unentered_cons_lt declared free
  exact watchWithin_eq_watchWithin (by omega) (Nat.le_refl _)

/-! ## Notes are kept -/

/-- A run only adds to what it asked for. -/
def Lengthens {α : Type} (action : TraceM α) : Prop :=
  ∀ traced : Traced, traced.demands <:+ (action.run traced).2.demands

namespace Lengthens

variable {α β : Type}

theorem pure (value : α) : Lengthens (Pure.pure value : TraceM α) := fun _ => List.suffix_rfl

theorem bind {action : TraceM α} {next : α → TraceM β} (first : Lengthens action)
    (second : ∀ value, Lengthens (next value)) : Lengthens (action >>= next) :=
  fun traced => (first traced).trans (second _ _)

theorem lift (action : CheckM α) : Lengthens (TraceM.lift action) := fun _ => List.suffix_rfl

theorem note (demand : Traced → Demand) :
    Lengthens (modify fun traced => traced.note (demand traced) : TraceM Unit) :=
  fun _ => List.suffix_cons _ _

theorem inScope (kind : ScopeKind) {action : TraceM α} (inner : Lengthens action) :
    Lengthens (TraceM.inScope kind action) :=
  (lift _).bind fun _ => inner.bind fun _ => (lift _).bind fun _ => pure _

theorem during (owner : Owner) {action : TraceM α} (inner : Lengthens action) :
    Lengthens (TraceM.during owner action) :=
  fun traced => inner (traced.push owner)

theorem inCall (function : String) {action : TraceM (List Ty × Ty)} (inner : Lengthens action) :
    Lengthens (Inference.inCall function action) :=
  (lift _).bind fun _ => ((inner.inScope .body).during _).bind fun _ =>
    (lift _).bind fun _ => pure _

theorem inMatch (pattern : String) (type : Ty) {action : TraceM Ty} (inner : Lengthens action) :
    Lengthens (Inference.inMatch pattern type action) :=
  (lift _).bind fun _ => ((inner.inScope .body).during _).bind fun _ =>
    (lift _).bind fun _ => pure _

end Lengthens

/-- No action of inference takes a note back. -/
def lengthening : Simulation TraceM TraceM where
  rel left _ := Lengthens left
  rel_pure := Lengthens.pure
  rel_bind := Lengthens.bind
  rel_report _ _ _ := .lift _
  rel_typeOf _ := (Lengthens.note _).bind fun _ => .lift _
  rel_declare _ _ := .lift _
  rel_assign _ _ := .lift _
  rel_rebind _ _ := .lift _
  rel_inBranch inner := (inner.inScope .branch).bind fun _ => .pure _
  rel_inCall function _ _ inner := inner.inCall function
  rel_inMatch pattern type _ _ inner := inner.inMatch pattern type
  rel_inMain inner := (inner.inScope .body).bind fun _ => .lift _

theorem lengthens_follow {context : Context} {active : List String}
    {enter : List String → Invocation → TraceM Ty}
    (nested : ∀ names invocation, Lengthens (enter names invocation)) (invocation : Invocation) :
    Lengthens (follow context enter active invocation) := by
  have itself : lengthening.rel (follow context enter active invocation)
      (follow context enter active invocation) := by
    refine lengthening.rel_follow (fun _ => rfl) (fun _ => rfl) (fun _ => rfl) ?_ ?_ invocation
    · intro name function types _ _
      exact lengthening.rel_inCall _
        (lengthening.rel_checkFunction (fun _ => rfl) (nested _) function types)
    · intro name pattern type _ _
      exact lengthening.rel_inMatch _ type
        (lengthening.rel_checkPattern (fun _ => rfl) (nested _) pattern type)
  exact itself

theorem lengthens_watchWithin (context : Context) (depth : Nat) (active : List String)
    (invocation : Invocation) : Lengthens (watchWithin context depth active invocation) := by
  induction depth generalizing active invocation with
  | zero => exact (Lengthens.note _).bind fun _ => .pure _
  | succ depth ih =>
    exact (Lengthens.note _).bind fun _ => lengthens_follow ih invocation

/-! ## Erasure -/

/-- Without its notes, the traced action is the other one. -/
def Erases {α : Type} (left : TraceM α) (right : CheckM α) : Prop :=
  ∀ traced : Traced, (left.run traced).1 = (right.run traced.state).1 ∧
    (left.run traced).2.state = (right.run traced.state).2

namespace Erases

theorem pure {α : Type} (value : α) : Erases (Pure.pure value) (Pure.pure value) :=
  fun _ => ⟨rfl, rfl⟩

theorem bind {α β : Type} {left : TraceM α} {right : CheckM α} {leftNext : α → TraceM β}
    {rightNext : α → CheckM β} (first : Erases left right)
    (second : ∀ value, Erases (leftNext value) (rightNext value)) :
    Erases (left >>= leftNext) (right >>= rightNext) := by
  intro traced
  obtain ⟨value, state⟩ := first traced
  have later := second (left.run traced).1 (left.run traced).2
  rw [state] at later
  have ran : (right >>= rightNext).run traced.state =
      (rightNext (left.run traced).1).run (right.run traced.state).2 := by
    rw [value]
    rfl
  rw [ran]
  exact later

theorem lift {α : Type} (action : CheckM α) : Erases (TraceM.lift action) action :=
  fun _ => ⟨rfl, rfl⟩

theorem typeOf (name : String) : Erases (Inference.typeOf name) (Inference.typeOf name) := by
  intro traced
  exact lift (Inference.typeOf name)
    (traced.note (.lookup name (traced.state.env.typeOf? name).isSome))

theorem inScope {α : Type} (kind : ScopeKind) {left : TraceM α} {right : CheckM α}
    (inner : Erases left right) :
    Erases (TraceM.inScope kind left) (CheckM.inScope kind right) :=
  (lift _).bind fun _ => inner.bind fun _ => (lift _).bind fun _ => pure _

theorem during {α : Type} (owner : Owner) {left : TraceM α} {right : CheckM α}
    (inner : Erases left right) : Erases (TraceM.during owner left) right :=
  fun traced => inner (traced.push owner)

end Erases

/-- Erasing the notes of a traced run is a simulation. -/
def erasing : Simulation TraceM CheckM where
  rel := Erases
  rel_pure := Erases.pure
  rel_bind := Erases.bind
  rel_report _ _ _ := Erases.lift _
  rel_typeOf := Erases.typeOf
  rel_declare _ _ := Erases.lift _
  rel_assign _ _ := Erases.lift _
  rel_rebind _ _ := Erases.lift _
  rel_inBranch inner := (inner.inScope .branch).bind fun _ => Erases.pure _
  rel_inCall function _ _ inner :=
    (Erases.lift _).bind fun _ =>
      ((inner.inScope .body).during (.function function)).bind fun _ =>
        (Erases.lift _).bind fun _ => Erases.pure _
  rel_inMatch pattern _ _ _ inner :=
    (Erases.lift _).bind fun _ =>
      ((inner.inScope .body).during (.pattern pattern)).bind fun _ =>
        (Erases.lift _).bind fun _ => Erases.pure _
  rel_inMain inner := (inner.inScope .body).bind fun _ => Erases.lift _

/-- To note an invocation before it is followed makes no difference. -/
theorem Erases.notice (context : Context) (active : List String) (invocation : Invocation)
    {left : TraceM Ty} {right : CheckM Ty} (inner : Erases left right) :
    Erases (do Inference.notice context active invocation; left) right := by
  intro traced
  exact inner (traced.note (.invoke traced.stack invocation
    (context.refuses active invocation.name)))

theorem erases_watchWithin (context : Context) (depth : Nat) (active : List String)
    (invocation : Invocation) :
    Erases (watchWithin context depth active invocation)
      (inferWithin context depth active invocation) := by
  induction depth generalizing active invocation with
  | zero => exact Erases.notice context active invocation (Erases.pure _)
  | succ depth ih =>
    refine Erases.notice context active invocation ?_
    refine erasing.rel_follow (fun _ => rfl) (fun _ => rfl) (fun _ => rfl) ?_ ?_ invocation
    · intro name function types _ _
      exact erasing.rel_inCall _ (erasing.rel_checkFunction (fun _ => rfl) (ih _) function types)
    · intro name pattern type _ _
      exact erasing.rel_inMatch _ type
        (erasing.rel_checkPattern (fun _ => rfl) (ih _) pattern type)

theorem erases_watch (context : Context) (active : List String) (invocation : Invocation) :
    Erases (watch context active invocation) (infer context active invocation) :=
  erases_watchWithin context _ active invocation

end Inference

namespace Checker

open Inference

/-- The traced check of a program. -/
def trace (checker : Checker) (program : Program) : Traced :=
  let start := checker.register program
  ((checkMain start.context (watch start.context []) program.main.body).run
    { state := start.state }).2

/-- A traced check of a program ends in the state that the check ends in. -/
theorem state_trace (checker : Checker) (program : Program) :
    (checker.trace program).state = (checker.checkProgram program).state := by
  have erased := erasing.rel_checkMain (checker.register program).context
    (erases_watch (checker.register program).context []) program.main.body
  exact (erased { state := (checker.register program).state }).2

end Checker

namespace Program

open Inference

/-- The checker that the analysis of a program starts with. -/
def checker (program : Program) (config : Config) : Checker :=
  let resolved := program.resolve (.recording config.deduplicates)
  let cycles := resolved.1.cyclesUnder config
  let fresh : Checker :=
    { state := { sink := resolved.1.reportCycles cycles resolved.2 },
      infersCyclic := config.infersCyclic }
  fresh.block cycles

/-- The analysis keeps what is in the state. -/
def KeptBy (state : State) (analysis : Analysis) : Prop :=
  state.env = analysis.env ∧ state.visited = analysis.visited ∧
    state.sink.recorded = analysis.diagnostics

/-- The analysis keeps what the check of the resolved program ends in. -/
theorem keptBy_analyze (program : Program) (config : Config) :
    KeptBy ((program.checker config).checkProgram (program.analyze config).program).state
      (program.analyze config) :=
  ⟨rfl, rfl, rfl⟩

/-- The traced check of a program in its analysis. -/
def trace (program : Program) (config : Config) : Traced :=
  (program.checker config).trace (program.analyze config).program

/-- The trace is one of the run that the analysis makes. -/
theorem keptBy_trace (program : Program) (config : Config) :
    KeptBy (program.trace config).state (program.analyze config) := by
  rw [trace, Checker.state_trace]
  exact program.keptBy_analyze config

end Program

end CallSite
