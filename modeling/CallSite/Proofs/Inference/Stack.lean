import CallSite.Analysis
import CallSite.Inference.Simulation
import Mathlib.Data.List.Dedup
import Mathlib.Data.List.Perm.Subperm

/-!
# The stack of declarations being checked

Inference is run here by a machine that keeps the names being checked on a stack.  The machine
pushes a name when it enters a declaration and pops it when it leaves, it decides what to refuse by
looking at the stack, and it gives up when its fuel is used up.  With more fuel than there are
declared names off the stack it never gives up, and then it does what `infer` does.  At every moment
the stack holds distinct declared names, and every task leaves it as it was.
-/

namespace CallSite.Inference

structure Machine where
  state : State
  /-- The names being checked, the innermost first. -/
  active : List String := []
  /-- The stack as it was at each moment of the run, the latest first. -/
  moments : List (List String) := []

namespace Machine

def push (machine : Machine) (name : String) : Machine :=
  { machine with
    active := name :: machine.active
    moments := (name :: machine.active) :: machine.moments }

def pop (machine : Machine) : Machine :=
  { machine with
    active := machine.active.tail
    moments := machine.active.tail :: machine.moments }

end Machine

/-- Runs of the machine; one that has no result ran out of fuel. -/
abbrev MachineM := StateT Machine Option

namespace MachineM

/-- An effect on the state of inference is a moment of the run and leaves the stack alone. -/
def lift {α : Type} (action : CheckM α) : MachineM α := fun machine =>
  let result := action.run machine.state
  some (result.1,
    { machine with state := result.2, moments := machine.active :: machine.moments })

def inScope {α : Type} (kind : ScopeKind) (action : MachineM α) :
    MachineM (α × Option Scope) := do
  lift (modify (·.openScope kind))
  let result ← action
  let scope ← lift (modifyGet fun state => (state.scope?, state.closeScope))
  pure (result, scope)

/-- Run an action while a name is on the stack. -/
def during {α : Type} (name : String) (action : MachineM α) : MachineM α := do
  modify (·.push name)
  let result ← action
  modify (·.pop)
  pure result

end MachineM

instance : MonadInfer MachineM where
  report problem position := MachineM.lift (report problem position)
  typeOf name := MachineM.lift (typeOf name)
  declare name type := MachineM.lift (declare name type)
  assign name type := MachineM.lift (assign name type)
  rebind name type := MachineM.lift (rebind name type)
  inBranch action := do
    let (result, _) ← MachineM.inScope .branch action
    pure result
  inCall function action := do
    MachineM.lift (modify (·.visit function))
    let ((types, returns), scope) ← MachineM.during function (MachineM.inScope .body action)
    MachineM.lift (modify (·.recordCall function types returns scope))
    pure returns
  inMatch pattern type action := do
    MachineM.lift (modify (·.visit pattern))
    let (value, scope) ← MachineM.during pattern (MachineM.inScope .body action)
    MachineM.lift (modify (·.recordMatch pattern type value scope))
    pure value
  inMain action := do
    let (_, scope) ← MachineM.inScope .body action
    MachineM.lift (modify (·.recordMain scope))

/-- Follow an invocation, refusing by what is on the stack.  Every nested invocation takes one unit
of fuel. -/
def pursue (context : Context) : Nat → Invocation → MachineM Ty
  | 0, _ => fun _ => none
  | fuel + 1, invocation => do
    let machine ← get
    follow context (fun _ => pursue context fuel) machine.active invocation

/-! ## What the stack holds -/

/-- A stack of distinct declared names. -/
structure Context.Stacked (context : Context) (active : List String) : Prop where
  distinct : active.Nodup
  declared : ∀ name ∈ active, name ∈ context.names

namespace Context.Stacked

theorem nil (context : Context) : context.Stacked [] :=
  ⟨List.nodup_nil, fun _ member => absurd member List.not_mem_nil⟩

theorem cons {context : Context} {active : List String} (stacked : context.Stacked active)
    {name : String} (declared : name ∈ context.names) (free : name ∉ active) :
    context.Stacked (name :: active) := by
  refine ⟨List.nodup_cons.mpr ⟨free, stacked.distinct⟩, ?_⟩
  intro other member
  rcases List.mem_cons.mp member with rfl | below
  · exact declared
  · exact stacked.declared other below

/-- The stack is no higher than there are declared names. -/
theorem length_le {context : Context} {active : List String} (stacked : context.Stacked active) :
    active.length ≤ context.names.dedup.length := by
  refine (List.subperm_of_subset stacked.distinct ?_).length_le
  intro name member
  exact List.mem_dedup.mpr (stacked.declared name member)

end Context.Stacked

/-! ## The machine keeps step with inference -/

/-- A run of the machine gives a result, ends in the given state with the stack it began with, and
at each moment on its way the stack held distinct declared names on top of that. -/
def Machine.Returns (context : Context) {α : Type} (machine : Machine)
    (run : Option (α × Machine)) (result : α × State) : Prop :=
  ∃ passed, run = some (result.1, ⟨result.2, machine.active, passed ++ machine.moments⟩) ∧
    ∀ stack ∈ passed, context.Stacked stack ∧ machine.active <:+ stack

/-- The machine does the same as inference when its stack is the given one. -/
def InStep (context : Context) (active : List String) {α : Type} (left : MachineM α)
    (right : CheckM α) : Prop :=
  ∀ machine : Machine, machine.active = active →
    machine.Returns context (left.run machine) (right.run machine.state)

namespace InStep

variable {context : Context} {active : List String}

theorem pure {α : Type} (value : α) :
    InStep context active (Pure.pure value) (Pure.pure value) := by
  intro machine _
  exact ⟨[], rfl, fun _ member => absurd member List.not_mem_nil⟩

theorem bind {α β : Type} {left : MachineM α} {right : CheckM α} {leftNext : α → MachineM β}
    {rightNext : α → CheckM β} (first : InStep context active left right)
    (second : ∀ value, InStep context active (leftNext value) (rightNext value)) :
    InStep context active (left >>= leftNext) (right >>= rightNext) := by
  intro machine same
  obtain ⟨passed, ran, stacked⟩ := first machine same
  obtain ⟨later, ranLater, stackedLater⟩ := second (right.run machine.state).1
    ⟨(right.run machine.state).2, machine.active, passed ++ machine.moments⟩ same
  refine ⟨later ++ passed, ?_, ?_⟩
  · rw [StateT.run_bind, ran, List.append_assoc]
    exact ranLater
  · intro stack member
    rcases List.mem_append.mp member with late | early
    · exact stackedLater stack late
    · exact stacked stack early

theorem lift (stacked : context.Stacked active) {α : Type} (action : CheckM α) :
    InStep context active (MachineM.lift action) action := by
  intro machine same
  refine ⟨[machine.active], rfl, ?_⟩
  intro stack member
  rw [List.mem_singleton.mp member]
  exact ⟨same ▸ stacked, List.suffix_rfl⟩

theorem inScope (stacked : context.Stacked active) (kind : ScopeKind) {α : Type}
    {left : MachineM α} {right : CheckM α} (inner : InStep context active left right) :
    InStep context active (MachineM.inScope kind left) (CheckM.inScope kind right) :=
  bind (lift stacked _) fun _ => bind inner fun _ => bind (lift stacked _) fun _ => pure _

/-- An action that runs with one more name on the stack leaves the stack as it was. -/
theorem during (stacked : context.Stacked active) {name : String}
    (deeper : context.Stacked (name :: active)) {α : Type} {left : MachineM α} {right : CheckM α}
    (inner : InStep context (name :: active) left right) :
    InStep context active (MachineM.during name left) right := by
  intro machine same
  obtain ⟨passed, ran, above⟩ := inner (machine.push name) (by rw [Machine.push, same])
  refine ⟨active :: (passed ++ [name :: active]), ?_, ?_⟩
  · have whole : (MachineM.during name left).run machine =
        ((left.run (machine.push name)).bind fun result => some (result.1, result.2.pop)) := rfl
    rw [whole, ran]
    simp [Machine.push, Machine.pop, same]
  · intro stack member
    rw [same]
    rcases List.mem_cons.mp member with rfl | member
    · exact ⟨stacked, List.suffix_rfl⟩
    rcases List.mem_append.mp member with between | first
    · obtain ⟨sound, suffix⟩ := above stack between
      refine ⟨sound, List.IsSuffix.trans (List.suffix_cons name active) ?_⟩
      rwa [Machine.push, same] at suffix
    · rw [List.mem_singleton.mp first]
      exact ⟨deeper, List.suffix_cons name active⟩

end InStep

/-- The machine and inference are in step through every check of a body. -/
def inStep {context : Context} {active : List String} (stacked : context.Stacked active) :
    BodySimulation MachineM CheckM where
  rel := InStep context active
  rel_pure := InStep.pure
  rel_bind := InStep.bind
  rel_report _ _ _ := InStep.lift stacked _
  rel_typeOf _ := InStep.lift stacked _
  rel_declare _ _ := InStep.lift stacked _
  rel_assign _ _ := InStep.lift stacked _
  rel_rebind _ _ := InStep.lift stacked _
  rel_inBranch inner := InStep.bind (InStep.inScope stacked .branch inner) fun _ => InStep.pure _

namespace InStep

variable {context : Context} {active : List String}

theorem inCall (stacked : context.Stacked active) {name : String}
    (deeper : context.Stacked (name :: active)) {left : MachineM (List Ty × Ty)}
    {right : CheckM (List Ty × Ty)} (inner : InStep context (name :: active) left right) :
    InStep context active (Inference.inCall name left) (Inference.inCall name right) :=
  bind (lift stacked _) fun _ =>
    bind (during stacked deeper (inScope deeper .body inner)) fun _ =>
      bind (lift stacked _) fun _ => pure _

theorem inMatch (stacked : context.Stacked active) {name : String}
    (deeper : context.Stacked (name :: active)) (type : Ty) {left : MachineM Ty}
    {right : CheckM Ty} (inner : InStep context (name :: active) left right) :
    InStep context active (Inference.inMatch name type left) (Inference.inMatch name type right) :=
  bind (lift stacked _) fun _ =>
    bind (during stacked deeper (inScope deeper .body inner)) fun _ =>
      bind (lift stacked _) fun _ => pure _

theorem inMain (stacked : context.Stacked active) {left : MachineM Unit} {right : CheckM Unit}
    (inner : InStep context active left right) :
    InStep context active (Inference.inMain left) (Inference.inMain right) :=
  bind (inScope stacked .body inner) fun _ => lift stacked _

/-- With fuel for one more invocation than there are declared names off the stack, the machine
follows every invocation.  The induction is on the fuel: each entered name is one less to enter. -/
theorem pursue (stacked : context.Stacked active) {fuel : Nat}
    (room : (context.unentered active).length < fuel) (invocation : Invocation) :
    InStep context active (pursue context fuel invocation) (infer context active invocation) := by
  induction fuel generalizing active invocation with
  | zero => omega
  | succ fuel ih =>
    have nested : ∀ {name}, name ∈ context.names → name ∉ active → ∀ invocation,
        InStep context (name :: active) (Inference.pursue context fuel invocation)
          (infer context (name :: active) invocation) := by
      intro name declared free invocation
      have fewer := Context.length_unentered_cons_lt declared free
      exact ih (stacked.cons declared free) (by omega) invocation
    have followed : InStep context active
        (follow context (fun _ => Inference.pursue context fuel) active invocation)
        (follow context (infer context) active invocation) := by
      refine (inStep stacked).rel_follow (fun _ => rfl) (fun _ => rfl) (fun _ => rfl) ?_ ?_
        invocation
      · intro name function types found admitted
        have declared := Context.mem_names_of_function? found
        have free := Context.not_mem_of_not_refuses admitted
        have deeper := stacked.cons declared free
        rw [enterFunction, enterFunction, Context.name_of_function? found]
        exact inCall stacked deeper ((inStep deeper).rel_checkFunction (fun _ => rfl)
          (nested declared free) function types)
      · intro name pattern type found admitted
        have declared := Context.mem_names_of_pattern? found
        have free := Context.not_mem_of_not_refuses admitted
        have deeper := stacked.cons declared free
        rw [enterPattern, enterPattern, Context.name_of_pattern? found]
        exact inMatch stacked deeper type ((inStep deeper).rel_checkPattern (fun _ => rfl)
          (nested declared free) pattern type)
    rw [infer_eq_follow]
    intro machine same
    have first : (Inference.pursue context (fuel + 1) invocation).run machine =
        (follow context (fun _ => Inference.pursue context fuel) machine.active invocation).run
          machine := rfl
    rw [first, same]
    exact followed machine same

end InStep

/-! ## Tasks -/

/-- What inference can be asked to check. -/
inductive Task where
  | main (statements : List Stmt)
  | body (statements : List Stmt)
  | stmt (statement : Stmt)
  | expr (expression : Expr)
  | lambda (position : Position) (params : List Param) (statements : List Stmt) (types : List Ty)
  | invoke (invocation : Invocation)

/-- Perform a task.  The outcome is the types of a body's returns, or the one type of an expression,
a lambda or an invocation. -/
def Task.perform {m : Type → Type} [Monad m] [MonadInfer m] (context : Context)
    (enter : Invocation → m Ty) : Task → m (List Ty)
  | .main statements => do
    checkMain context enter statements
    pure []
  | .body statements => checkBody context enter statements
  | .stmt statement => checkStmt context enter statement
  | .expr expression => do
    let type ← checkExpr context enter expression
    pure [type]
  | .lambda position params statements types => do
    let type ← checkLambda context enter position params statements types
    pure [type]
  | .invoke invocation => do
    let type ← enter invocation
    pure [type]

namespace InStep

variable {context : Context} {active : List String}

theorem checkMain (stacked : context.Stacked active) {fuel : Nat}
    (room : (context.unentered active).length < fuel) (body : List Stmt) :
    InStep context active (Inference.checkMain context (Inference.pursue context fuel) body)
      (Inference.checkMain context (infer context active) body) :=
  inMain stacked
    (bind ((inStep stacked).rel_checkBody (fun _ => rfl) (pursue stacked room) body) fun _ =>
      pure _)

theorem perform (stacked : context.Stacked active) {fuel : Nat}
    (room : (context.unentered active).length < fuel) (task : Task) :
    InStep context active (task.perform context (Inference.pursue context fuel))
      (task.perform context (infer context active)) := by
  have entered := pursue stacked room
  cases task with
  | main statements => exact bind (checkMain stacked room statements) fun _ => pure _
  | body statements => exact (inStep stacked).rel_checkBody (fun _ => rfl) entered statements
  | stmt statement => exact (inStep stacked).rel_checkStmt (fun _ => rfl) entered statement
  | expr expression =>
    exact bind ((inStep stacked).rel_checkExpr (fun _ => rfl) entered expression) fun _ => pure _
  | lambda position params statements types =>
    exact bind ((inStep stacked).rel_checkLambda (fun _ => rfl) entered position params statements
      types) fun _ => pure _
  | invoke invocation => exact bind (entered invocation) fun _ => pure _

end InStep

/-- Inference returns on every program, whatever names are blocked and whether or not cyclic
functions are inferred.  The machine runs the main body with an empty stack and one unit of fuel
more than there are declarations, and ends in the state that checking the program ends in.  Every
task, begun with any stack of distinct declared names and fuel for the names off the stack, gives
the result of inference and leaves the stack as it was; at each moment on the way the stack holds
distinct declared names, so it is never higher than their number.  What the machine is compared with
needs no fuel: it follows an invocation by following the nested ones in the same way. -/
theorem every_task_returns (checker : Checker) (program : Program) :
    let start := checker.register program
    let context := start.context
    (∃ moments,
      (checkMain context (pursue context (context.names.length + 1)) program.main.body).run
          ⟨start.state, [], []⟩ =
        some ((), ⟨(checker.checkProgram program).state, [], moments⟩) ∧
      ∀ stack ∈ moments, context.Stacked stack) ∧
    (∀ (task : Task) (machine : Machine) (fuel : Nat), context.Stacked machine.active →
      (context.unentered machine.active).length < fuel →
      machine.Returns context ((task.perform context (pursue context fuel)).run machine)
        ((task.perform context (infer context machine.active) : CheckM (List Ty)).run
          machine.state)) ∧
    (∀ stack, context.Stacked stack → stack.length ≤ context.names.dedup.length) ∧
    ∀ active, (infer context active : Invocation → CheckM Ty) =
      follow context (infer context) active := by
  intro start context
  refine ⟨?_, ?_, fun _ stacked => stacked.length_le, infer_eq_follow context⟩
  · have room : (context.unentered []).length < context.names.length + 1 :=
      Nat.lt_succ_of_le (List.length_filter_le _ _)
    obtain ⟨passed, ran, stacked⟩ :=
      InStep.checkMain (.nil context) room program.main.body ⟨start.state, [], []⟩ rfl
    refine ⟨passed, ?_, fun stack member => (stacked stack member).1⟩
    rw [List.append_nil] at ran
    exact ran
  · intro task machine fuel stacked room
    exact InStep.perform stacked room task machine rfl

/-- A function that calls what its parameter points to, called with a pointer to itself. -/
def selfApplication : Program where
  functions := [.ofName ⟨"apply", .atLine 1⟩ [⟨⟨"fp", .atLine 1⟩, none⟩]
    [.ret (.atLine 2) (some (.call (.atLine 2) (.var (.atLine 2) "fp")
      [.var (.atLine 2) "fp"]))]]
  patterns := []
  main := ⟨[.assign (.atLine 3) "r" none .set (.call (.atLine 3) (.var (.atLine 3) "apply")
    [.pointer (.atLine 3) "apply"])], .atLine 3⟩

/-- One unit of fuel is enough for the call that `selfApplication` makes of itself. -/
theorem selfApplication_returns :
    let context := (({ state := { sink := .plain } } : Checker).register selfApplication).context
    let machine : Machine := ⟨{ sink := .plain }, ["apply"], []⟩
    let task : Task := .invoke (.call "apply" [.pointer "apply"])
    context.Stacked machine.active ∧ (context.unentered machine.active).length < 1 ∧
      machine.Returns context ((task.perform context (pursue context 1)).run machine)
        ((task.perform context (infer context machine.active) : CheckM (List Ty)).run
          machine.state) := by
  intro context machine task
  have stacked : context.Stacked ["apply"] :=
    (Context.Stacked.nil context).cons (by decide) (by decide)
  have room : (context.unentered ["apply"]).length < 1 := by decide
  exact ⟨stacked, room,
    (every_task_returns { state := { sink := .plain } } selfApplication).2.1 task machine 1
      stacked room⟩

end CallSite.Inference
