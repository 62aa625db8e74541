import CallSite.Proofs.Inference.Attempts
import CallSite.Proofs.Inference.Coverage
import CallSite.Proofs.Inference.Framing
import CallSite.Proofs.Inference.Guarded
import CallSite.Proofs.Inference.Returns
import CallSite.Proofs.Scope.Contents
import CallSite.Proofs.Scope.Inside

/-!
# Lambdas that are closed

A lambda that is called on the spot sees the variables around it, and a declared function does not.
A lambda that uses none of them is typed like a function with the same parameters and the same body.
Two facts are behind this.  Code that keeps to its own variables runs as it is read, whatever scopes
are open around them.  And whether a name is being checked does not matter to code that never comes
to that name.
-/

namespace CallSite.Inference

/-! ## Code inside other scopes -/

/-- The state with more scopes open around its own. -/
def State.inside (state : State) (outer : List Scope) : State :=
  { state with env := state.env.inside outer }

/-- The action runs as it is read, also with the given scopes around those that it works on. -/
def ReadsInside {α : Type} (outer : List Scope) (left : LocalM α) (right : CheckM α)
    (post : α → Prop) : Prop :=
  ∀ state : State, state.env.Sound → state.env.table.scopes ≠ [] →
    post (left state.env.frames).value ∧ ∃ after : State,
      right.run (state.inside outer) = ((left state.env.frames).value, after.inside outer) ∧
        Realizes (left state.env.frames) state ((left state.env.frames).value, after)

namespace ReadsInside

variable {outer : List Scope} {α β : Type} {post : α → Prop}

/-- It is enough that the run does not depend on the scopes around. -/
theorem of_reads {left : LocalM α} {right : CheckM α} (reads : Reads left right)
    (inside : ∀ state : State, state.env.table.scopes ≠ [] →
      right.run (state.inside outer) = ((right.run state).1, (right.run state).2.inside outer))
    (holds : ∀ frames, post (left frames).value) : ReadsInside outer left right post := by
  intro state sound open_
  have ran := reads state sound
  refine ⟨holds _, (right.run state).2, ?_, ?_⟩
  · rw [inside state open_, ran.value]
  · rw [← ran.value]
    exact ran

theorem bind {left : LocalM α} {right : CheckM α} {leftNext : α → LocalM β}
    {rightNext : α → CheckM β} {final : β → Prop} (first : ReadsInside outer left right post)
    (second : ∀ value, post value →
      ReadsInside outer (leftNext value) (rightNext value) final) :
    ReadsInside outer (left >>= leftNext) (right >>= rightNext) final := by
  intro state sound open_
  obtain ⟨holds, middle, ran, early⟩ := first state sound open_
  obtain ⟨result, after, next, late⟩ :=
    second _ holds middle early.becomes.sound (early.becomes.grows.opened open_)
  rw [early.becomes.frames_eq] at result next late
  have whole : (right >>= rightNext).run (state.inside outer) =
      (rightNext (left state.env.frames).value).run (middle.inside outer) := by
    change (rightNext (right.run (state.inside outer)).1).run (right.run (state.inside outer)).2 = _
    rw [ran]
  refine ⟨result, after, whole.trans next, rfl, early.becomes.trans late.becomes, ?_⟩
  exact early.leaves.append late.leaves early.becomes.grows.size_le late.becomes.grows

theorem inBranch {left : LocalM α} {right : CheckM α} (inner : ReadsInside outer left right post) :
    ReadsInside outer (Inference.inBranch left) (Inference.inBranch right) post := by
  intro state sound open_
  obtain ⟨holds, after, ran, realizes⟩ :=
    inner (state.openScope .branch) (Environment.sound_opened_branch sound) (List.cons_ne_nil _ _)
  have stillOpen : after.env.table.scopes ≠ [] :=
    realizes.becomes.grows.opened (List.cons_ne_nil _ _)
  refine ⟨holds, after.closeScope, ?_, rfl, realizes.becomes.close_branch,
    (realizes.leaves.imp ?_).bracket⟩
  · change ((right.run ((state.openScope .branch).inside outer)).1,
      (right.run ((state.openScope .branch).inside outer)).2.closeScope) = _
    rw [ran]
    exact Prod.ext rfl (congrArg (fun env => { after with env := env })
      (Environment.close_inside stillOpen))
  · intro scope _ apart location member visible
    exact apart location member (realizes.becomes.grows.visible_close visible)

end ReadsInside

/-- Code that uses no variable of the given scopes may run inside them. -/
def readingInside (outer : List Scope) : GuardedSimulation LocalM CheckM where
  allows
    | .var name => Scope.Unseen outer name
    | _ => True
  rel := ReadsInside outer
  rel_pure holds := .of_reads (.pure _) (fun _ _ => rfl) fun _ => holds
  rel_bind := .bind
  rel_report problem position := .of_reads (.report problem position) (fun _ _ => rfl) fun _ =>
    trivial
  rel_typeOf name unseen := by
    refine .of_reads (.typeOf name) (fun state _ => ?_) fun _ => within_of_all (fun _ => trivial) _
    exact Prod.ext (congrArg (·.getD .unresolved) (Environment.typeOf?_inside unseen)) rfl
  rel_declare _ name type _ := by
    refine .of_reads (reading.rel_declare name type) (fun state open_ => ?_) fun _ => trivial
    exact Prod.ext rfl (congrArg (fun env => { state with env := env })
      (Environment.declared_inside open_ name type))
  rel_assign _ name type unseen _ := by
    refine .of_reads (reading.rel_assign name type) (fun state open_ => ?_) fun _ => trivial
    exact Prod.ext rfl (congrArg (fun env => { state with env := env })
      (Environment.assigned_inside open_ unseen type))
  rel_rebind _ name type _ := by
    refine .of_reads (reading.rel_rebind name type) (fun state open_ => ?_) fun _ => trivial
    exact Prod.ext rfl (congrArg (fun env => { state with env := env })
      (Environment.rebind_inside open_ name type))
  rel_inBranch _ := .inBranch

/-- What is entered sees nothing of the scopes around it. -/
theorem follows_inside (context : Context) (active : List String) (outer : List Scope) :
    (readingInside outer).Follows (infer context active) (infer context active) := by
  intro invocation _ state sound _
  have enters := enters_infer context active invocation (state.inside outer) state.env.frames
  have same : ((infer context active invocation : LocalM Ty) state.env.frames).frames =
      state.env.frames := frames_infer context active invocation state.env.frames
  generalize (infer context active invocation : LocalM Ty) state.env.frames = outcome
    at enters same ⊢
  generalize (infer context active invocation : CheckM Ty).run (state.inside outer) = result
    at enters ⊢
  let after : State := { result.2 with env.table.scopes := state.env.table.scopes }
  have entersHere : Enters outcome state (outcome.value, after) := by
    refine ⟨rfl, ⟨rfl, enters.untouched.size_le, enters.untouched.cells⟩, enters.leaves.sink,
      enters.leaves.visited, enters.leaves.functions, enters.leaves.patterns, fun owner => ?_⟩
    have kept := enters.leaves.records owner
    cases owner <;> exact kept
  refine ⟨within_of_all (fun _ => trivial) _, after, Prod.ext enters.value ?_,
    entersHere.realizes sound same⟩
  have scopes : result.2.env.table.scopes = state.env.table.scopes ++ outer :=
    enters.untouched.scopes
  change result.2 = { result.2 with env.table.scopes := state.env.table.scopes ++ outer }
  rw [← scopes]

/-- A run that leaves the variables and the open scopes as they were, seen from outside. -/
structure Passes {α : Type} (value : α) (diagnostics : List Diagnostic) (names : List String)
    (before : State) (result : α × State) : Prop where
  value : result.1 = value
  untouched : before.env.Untouched result.2.env
  sink : result.2.sink = before.sink.reportAll diagnostics
  visited : result.2.visited = names.foldl NameSet.insert before.visited

theorem Passes.attempted_eq {α : Type} {action : CheckM α} {value : α}
    {diagnostics : List Diagnostic} {names : List String} {state : State}
    (passes : Passes value diagnostics names { state with sink := .plain }
      (action.run { state with sink := .plain })) : attempted action state = diagnostics := by
  rw [attempted, passes.sink, Sink.reportAll_plain]

/-- A branch around code that uses no visible variable leaves the environment as it was: the branch,
which is empty at first, is the only scope that counts. -/
theorem passes_inBranch {α : Type} {left : LocalM α} {right : CheckM α} {post : α → Prop}
    {state : State} (inner : ReadsInside state.env.table.scopes left right post) :
    Passes (left [[]]).value (reports (left [[]]).events) (entered (left [[]]).events) state
      ((inBranch right : CheckM α).run state) := by
  let alone : State := { state with env.table.scopes := [] }
  have sound : (alone.openScope .branch).env.Sound :=
    Environment.sound_opened_branch ⟨List.nodup_nil, fun _ member => absurd member List.not_mem_nil⟩
  obtain ⟨_, after, ran, realizes⟩ := inner (alone.openScope .branch) sound (List.cons_ne_nil _ _)
  obtain ⟨added, scopes, _⟩ := realizes.becomes.grows.scopes_opened
  have whole : (inBranch right : CheckM α).run state =
      ((left [[]]).value, (after.inside state.env.table.scopes).closeScope) := by
    change ((right.run ((alone.openScope .branch).inside state.env.table.scopes)).1,
      (right.run ((alone.openScope .branch).inside state.env.table.scopes)).2.closeScope) = _
    rw [ran]
    rfl
  rw [whole]
  refine ⟨rfl, ⟨?_, realizes.becomes.grows.size_le, ?_⟩, realizes.leaves.sink,
    realizes.leaves.visited⟩
  · change (after.env.table.scopes ++ state.env.table.scopes).tail = state.env.table.scopes
    rw [scopes]
    rfl
  · intro location within
    refine realizes.becomes.grows.cells location within ?_
    rintro ⟨_, found⟩
    cases found

/-! ## Names that code never comes to -/

/-- Anything may be used but a declaration of the given name. -/
def ApartFrom (name : String) : Use → Prop
  | .function other | .pattern other => other ≠ name
  | _ => True

instance (name : String) : DecidablePred (ApartFrom name)
  | .function other | .pattern other => inferInstanceAs (Decidable (other ≠ name))
  | .var _ | .lambda => isTrue trivial

/-- The two actions are read alike, and the name is not entered. -/
def ReadAlike {α : Type} (name : String) (left right : LocalM α) (post : α → Prop) : Prop :=
  ∀ frames : Frames, frames.Typed (Within (ApartFrom name)) →
    right frames = left frames ∧ name ∉ entered (left frames).events ∧
      (left frames).frames.Typed (Within (ApartFrom name)) ∧ post (left frames).value

theorem typed_emptyFrame (allowed : Ty → Prop) : Frames.Typed allowed [[]] := by
  intro frame member binding bound
  rw [List.mem_singleton.mp member] at bound
  cases bound

theorem entered_enclose (events : List Event) (name : String) (owner : Owner) (types : List Ty)
    (result : Ty) (content : Frame) :
    entered (.enter name :: (events ++ [.keep owner types result content])) =
      name :: entered events := by
  simp [entered, Event.entered?]

namespace ReadAlike

variable {name : String} {α β : Type} {post : α → Prop}

theorem bind {left right : LocalM α} {leftNext rightNext : α → LocalM β} {final : β → Prop}
    (first : ReadAlike name left right post)
    (second : ∀ value, post value → ReadAlike name (leftNext value) (rightNext value) final) :
    ReadAlike name (left >>= leftNext) (right >>= rightNext) final := by
  intro frames typed
  obtain ⟨same, early, between, holds⟩ := first frames typed
  obtain ⟨next, late, after, result⟩ := second _ holds _ between
  refine ⟨?_, ?_, after, result⟩
  · change Outcome.mk (rightNext (right frames).value (right frames).frames).value _ _ = _
    rw [same, next]
    rfl
  · change name ∉ entered ((left frames).events ++ _)
    rw [entered, List.filterMap_append, List.mem_append]
    exact not_or.mpr ⟨early, late⟩

theorem inBranch {left right : LocalM α} (inner : ReadAlike name left right post) :
    ReadAlike name (Inference.inBranch left) (Inference.inBranch right) post := by
  intro frames typed
  have inside : Frames.Typed (Within (ApartFrom name)) ([] :: frames) := by
    intro frame member binding bound
    rcases List.mem_cons.mp member with rfl | outer
    · cases bound
    · exact typed frame outer binding bound
  obtain ⟨same, silent, after, holds⟩ := inner _ inside
  refine ⟨?_, silent, fun frame member => after frame (List.mem_of_mem_tail member), holds⟩
  change Outcome.mk (right ([] :: frames)).value _ _ = _
  rw [same]
  rfl

theorem inCall {function : String} (differs : function ≠ name)
    {left right : LocalM (List Ty × Ty)}
    (inner : ReadAlike name left right fun result => Within (ApartFrom name) result.2) :
    ReadAlike name (Inference.inCall function left) (Inference.inCall function right)
      (Within (ApartFrom name)) := by
  intro frames typed
  obtain ⟨same, silent, _, holds⟩ := inner [[]] (typed_emptyFrame _)
  refine ⟨?_, ?_, typed, holds⟩
  · change Outcome.mk (right [[]]).value.2 frames
      (.enter function :: ((right [[]]).events ++ [.keep (.function function)
        (right [[]]).value.1 (right [[]]).value.2 ((right [[]]).frames.headD [])])) = _
    rw [same]
    rfl
  · rw [events_inCall, entered_enclose, List.mem_cons]
    exact not_or.mpr ⟨differs.symm, silent⟩

theorem inMatch {pattern : String} (differs : pattern ≠ name) (type : Ty)
    {left right : LocalM Ty} (inner : ReadAlike name left right (Within (ApartFrom name))) :
    ReadAlike name (Inference.inMatch pattern type left) (Inference.inMatch pattern type right)
      (Within (ApartFrom name)) := by
  intro frames typed
  obtain ⟨same, silent, _, holds⟩ := inner [[]] (typed_emptyFrame _)
  refine ⟨?_, ?_, typed, holds⟩
  · change Outcome.mk (right [[]]).value frames
      (.enter pattern :: ((right [[]]).events ++ [.keep (.pattern pattern) [type]
        (right [[]]).value ((right [[]]).frames.headD [])])) = _
    rw [same]
    rfl
  · rw [events_inMatch, entered_enclose, List.mem_cons]
    exact not_or.mpr ⟨differs.symm, silent⟩

end ReadAlike

/-- Code that does not use declarations of the given name does not come to it. -/
def avoiding (name : String) : GuardedSimulation LocalM LocalM where
  allows := ApartFrom name
  rel := ReadAlike name
  rel_pure holds _ typed := ⟨rfl, List.not_mem_nil, typed, holds⟩
  rel_bind := .bind
  rel_report _ _ _ typed := ⟨rfl, List.not_mem_nil, typed, trivial⟩
  rel_typeOf variableName _ frames typed := by
    refine ⟨rfl, List.not_mem_nil, typed, ?_⟩
    change Within _ ((frames.typeOf? variableName).getD .unresolved)
    cases found : frames.typeOf? variableName with
    | none => exact Ty.pointsWithin_unresolved
    | some type => exact typed.typeOf? found
  rel_declare _ variableName _ within frames typed :=
    ⟨rfl, List.not_mem_nil, (frames.binds_declare variableName _).typed typed within, trivial⟩
  rel_assign _ _ _ _ within frames typed :=
    ⟨rfl, List.not_mem_nil, (frames.binds_assign _ _).typed typed within, trivial⟩
  rel_rebind _ variableName _ within frames typed :=
    ⟨rfl, List.not_mem_nil, (frames.binds_rebind variableName _).typed typed within, trivial⟩
  rel_inBranch _ := .inBranch

/-- No declaration of the context uses one of the given name: no call, no pointer literal and no
match in it does. -/
structure Unnamed (context : Context) (name : String) : Prop where
  functions : ∀ function ∈ context.functions, ∀ use ∈ function.uses context.hasFunction,
    ApartFrom name use
  patterns : ∀ pattern ∈ context.patterns, ∀ use ∈ pattern.uses context.hasFunction,
    ApartFrom name use

/-- It makes no difference whether a name that is not used is being checked as well.  The induction
is on the number of names that may still be entered. -/
theorem follows_avoiding {context : Context} {name : String} (unnamed : Unnamed context name)
    {active other : List String} (more : ∀ entry, entry ∈ other ↔ entry = name ∨ entry ∈ active) :
    (avoiding name).Follows (infer context active) (infer context other) := by
  induction size : (context.unentered active).length using Nat.strong_induction_on
    generalizing active other with
  | _ size ih =>
    have nested : ∀ {entry}, entry ∈ context.names → context.refuses active entry = false →
        (avoiding name).Follows (infer context (entry :: active))
          (infer context (entry :: other)) := by
      intro entry declared admitted
      have fewer := Context.length_unentered_cons_lt declared
        (Context.not_mem_of_not_refuses admitted)
      refine ih _ (size ▸ fewer) (fun candidate => ?_) rfl
      rw [List.mem_cons, List.mem_cons, more candidate, or_left_comm]
    have refusals : ∀ invocation, (avoiding name).Admits invocation →
        context.refuses active invocation.name = context.refuses other invocation.name := by
      intro invocation admitted
      have differs : invocation.name ≠ name := by
        cases invocation with
        | call entry types => exact admitted.1
        | matching entry type => exact admitted.1
      have contained : active.contains invocation.name = other.contains invocation.name := by
        rw [Bool.eq_iff_iff, List.contains_iff_mem, List.contains_iff_mem, more]
        exact (or_iff_right differs).symm
      rw [Context.refuses, Context.refuses, contained]
    rw [infer_eq_follow, infer_eq_follow]
    apply GuardedSimulation.follows_follow refusals
    · intro entry function types found followed admitted
      have checked := GuardedSimulation.rel_checkFunction
        (nested (Context.mem_names_of_function? found) followed) trivial
        (unnamed.functions function (List.mem_of_find?_eq_some found)) admitted.2
      have differs : function.name.name ≠ name := Context.name_of_function? found ▸ admitted.1
      exact ReadAlike.inCall differs checked
    · intro entry pattern type found followed admitted
      have checked := GuardedSimulation.rel_checkPattern
        (nested (Context.mem_names_of_pattern? found) followed) trivial
        (unnamed.patterns pattern (List.mem_of_find?_eq_some found)) admitted.2
      have differs : pattern.name.name ≠ name := Context.name_of_pattern? found ▸ admitted.1
      exact ReadAlike.inMatch differs type checked

/-! ## A lambda and a function with the same code -/

/-- Bind the parameters and check the body.  The outcome is the types that it returns. -/
def returnsOf {m : Type → Type} [Monad m] [MonadInfer m] (context : Context)
    (enter : Invocation → m Ty) (params : List Param) (body : List Stmt) (types : List Ty) :
    m (List Ty) := do
  let _ ← bindParams context enter params types
  checkBody context enter body

theorem reports_map_report (diagnostics : List Diagnostic) :
    reports (diagnostics.map .report) = diagnostics := by
  rw [reports, List.filterMap_map]
  exact List.filterMap_some

theorem entered_map_report (diagnostics : List Diagnostic) :
    entered (diagnostics.map .report) = [] := by
  rw [entered, List.filterMap_map]
  exact List.filterMap_eq_nil_iff.mpr fun _ _ => rfl

section SameCode

variable (context : Context) (active : List String) (types : List Ty)

theorem passes_checkLambda (position : Position) {params : List Param} {body : List Stmt}
    (state : State)
    (closed : (readingInside state.env.table.scopes).AllowsAll
      (Param.uses context.hasFunction params ++ Stmt.usesOfAll context.hasFunction body)) :
    let read := (returnsOf context (infer context active) params body types : LocalM _) [[]]
    Passes ((Ty.unifyReturns read.value).getD .unresolved)
      (reports read.events ++
        disagreement (.functionReturnsDiffer lambdaName) position read.value)
      (entered read.events) state
      ((checkLambda context (infer context active) position params body types : CheckM Ty).run
        state) := by
  intro read
  have follows := follows_inside context active state.env.table.scopes
  have inner : ReadsInside state.env.table.scopes
      (returnsOf context (infer context active) params body types)
      (returnsOf context (infer context active) params body types) _ :=
    (readingInside state.env.table.scopes).rel_bind
      (GuardedSimulation.rel_bindParams follows trivial params types closed.left fun _ _ =>
        within_of_all (fun _ => trivial) _)
      fun _ _ => GuardedSimulation.rel_checkBody follows trivial body closed.right
  have branch := passes_inBranch inner
  generalize ran : (inBranch (returnsOf context (infer context active) params body types) :
    CheckM (List Ty)).run state = result at branch
  have whole : (checkLambda context (infer context active) position params body types :
      CheckM Ty).run state =
      (settle position (returnRule (.functionReturnsDiffer lambdaName) result.1) :
        CheckM Ty).run result.2 := by
    rw [← ran]
    rfl
  obtain ⟨agreed, found⟩ :=
    returnRule_spec (.functionReturnsDiffer lambdaName) position read.value
  rw [whole, branch.value, run_settle, agreed, found]
  refine ⟨rfl, branch.untouched, ?_, branch.visited⟩
  change result.2.sink.reportAll _ = _
  rw [branch.sink, Sink.reportAll_append]

/-- The check of a function, read from its empty frame. -/
theorem read_checkFunction (enter : Invocation → LocalM Ty) (function : Function) :
    let read := returnsOf context enter function.params function.body types [[]]
    let checked := checkFunction context enter function types [[]]
    checked.value.2 = (Ty.unifyReturns read.value).getD .unresolved ∧
      reports checked.events = reports read.events ++
        disagreement (.functionReturnsDiffer function.name.baseName) function.position
          read.value ∧
      entered checked.events = entered read.events := by
  intro read checked
  let bound := bindParams context enter function.params types [[]]
  let body := checkBody context enter function.body bound.frames
  let problem : Problem := .functionReturnsDiffer function.name.baseName
  let rule := returnRule problem body.value
  let settled := (settle function.position rule : LocalM Ty) body.frames
  obtain ⟨agreed, found⟩ := returnRule_spec problem function.position body.value
  have own := read_settle function.position rule body.frames
  rw [agreed, found] at own
  have events : checked.events = read.events ++ settled.events := by
    change bound.events ++ (body.events ++ (settled.events ++ [])) =
      (bound.events ++ body.events) ++ settled.events
    rw [List.append_nil, List.append_assoc]
  refine ⟨congrArg Outcome.value own, ?_, ?_⟩
  · rw [events, reports, List.filterMap_append, ← reports, ← reports,
      congrArg Outcome.events own, reports_map_report]
    rfl
  · rw [events, entered, List.filterMap_append, ← entered, ← entered,
      congrArg Outcome.events own, entered_map_report, List.append_nil]

theorem passes_call {name : String} {function : Function}
    (declared : context.function? name = some function)
    (followed : context.refuses active name = false) (state : State) :
    let read := (returnsOf context (infer context (name :: active)) function.params function.body
      types : LocalM _) [[]]
    Passes ((Ty.unifyReturns read.value).getD .unresolved)
      (reports read.events ++
        disagreement (.functionReturnsDiffer function.name.baseName) function.position read.value)
      (name :: entered read.events) state
      ((infer context active (.call name types) : CheckM Ty).run state) := by
  intro read
  obtain ⟨value, made, names⟩ :=
    read_checkFunction context types (infer context (name :: active)) function
  have enters := enters_infer context active (.call name types) state []
  have reading : ((infer context active (.call name types) : LocalM Ty) []) =
      (enterFunction context (infer context (name :: active)) function types : LocalM Ty) [] := by
    rw [infer_call declared followed types]
  rw [reading, enterFunction] at enters
  refine ⟨enters.value.trans value, enters.untouched, ?_, ?_⟩
  · rw [enters.leaves.sink, events_inCall, reports_enclose, made]
  · rw [enters.leaves.visited, events_inCall, entered_enclose, names,
      Context.name_of_function? declared]

end SameCode

/-- A lambda is called on the spot, and uses no variable that is visible there.  A function has the
same parameters and the same body, may be entered, and is not used by name or by pointer anywhere.
Then the call of the lambda and a call of the function with the same types have the same type and
leave the open scopes and their variables as they were.  They make the same reports up to the one
about their own returns, and enter the same names, except that only the call enters the function. -/
theorem closed_lambda_typed_as_function (context : Context) (active : List String)
    (position : Position) (types : List Ty) (state : State) {name : String} {function : Function}
    (declared : context.function? name = some function)
    (followed : context.refuses active name = false) (unnamed : Unnamed context name)
    (elsewhere : ∀ type ∈ types, type.PointsWithin (· ≠ name))
    (closed : ∀ variableName, .var variableName ∈ function.uses context.hasFunction →
      state.env.table.hasVariable variableName = false) :
    let lambda : CheckM Ty :=
      checkLambda context (infer context active) position function.params function.body types
    let call : CheckM Ty := infer context active (.call name types)
    (lambda.run state).1 = (call.run state).1 ∧
    state.env.Untouched (lambda.run state).2.env ∧ state.env.Untouched (call.run state).2.env ∧
    (∀ other, other ∈ (call.run state).2.visited.names ↔
      other = name ∨ other ∈ (lambda.run state).2.visited.names) ∧
    (name ∈ (lambda.run state).2.visited.names → name ∈ state.visited.names) ∧
    ∃ common returns, (call.run state).1 = (Ty.unifyReturns returns).getD .unresolved ∧
      attempted lambda state =
        common ++ disagreement (.functionReturnsDiffer lambdaName) position returns ∧
      attempted call state = common ++
        disagreement (.functionReturnsDiffer function.name.baseName) function.position returns := by
  intro lambda call
  have unseen : (readingInside state.env.table.scopes).AllowsAll
      (function.uses context.hasFunction) := by
    intro use member
    cases use with
    | var variableName => exact Scope.unseen_of_not_hasVariable (closed variableName member)
    | _ => trivial
  have uses := unnamed.functions function (List.mem_of_find?_eq_some declared)
  have follows : (avoiding name).Follows (infer context active) (infer context (name :: active)) :=
    follows_avoiding unnamed fun _ => List.mem_cons
  have alike : ReadAlike name
      (returnsOf context (infer context active) function.params function.body types)
      (returnsOf context (infer context (name :: active)) function.params function.body types) _ :=
    (avoiding name).rel_bind
      (GuardedSimulation.rel_bindParams follows trivial function.params types
        (GuardedSimulation.AllowsAll.left uses) elsewhere)
      fun _ _ => GuardedSimulation.rel_checkBody follows trivial function.body
        (GuardedSimulation.AllowsAll.right uses)
  obtain ⟨same, silent, _, _⟩ := alike [[]] (typed_emptyFrame _)
  let plain : State := { state with sink := .plain }
  have ofLambda := passes_checkLambda context active types position state unseen
  have ofCall := passes_call context active types declared followed state
  have plainLambda := passes_checkLambda context active types position plain unseen
  have plainCall := passes_call context active types declared followed plain
  rw [same] at ofCall plainCall
  refine ⟨ofLambda.value.trans ofCall.value.symm, ofLambda.untouched, ofCall.untouched, ?_, ?_,
    _, _, ofCall.value, plainLambda.attempted_eq, plainCall.attempted_eq⟩
  · intro other
    rw [ofCall.visited, ofLambda.visited, NameSet.mem_foldl_insert, NameSet.mem_foldl_insert,
      List.mem_cons, or_assoc]
  · rw [ofLambda.visited, NameSet.mem_foldl_insert]
    exact fun member => member.resolve_left silent

/-- A lambda that calls one parameter with another, once it is given a pointer and leaves the other
one to its default.  What it points to finds a problem, and the returns do not agree. -/
theorem pick_called_in_place :
    let negate : Function := .ofName ⟨"negate", .atLine 1⟩ [⟨⟨"v", .atLine 1⟩, none⟩]
      [.ret (.atLine 2) (some (.unary (.atLine 2) .not (.var (.atLine 2) "v")))]
    let pick : Function := .ofName ⟨"pick", .atLine 3⟩
      [⟨⟨"f", .atLine 3⟩, none⟩, ⟨⟨"n", .atLine 3⟩, some (.int (.atLine 3) 2)⟩]
      [.ifElse (.atLine 4) [.bool (.atLine 4) true]
        [.ret (.atLine 5) (some (.call (.atLine 5) (.var (.atLine 5) "f") [.var (.atLine 5) "n"]))]
        [.ret (.atLine 6) (some (.string (.atLine 6) "none"))],
      .ret (.atLine 7) (some (.var (.atLine 7) "n"))]
    let context : Context := ⟨[negate, pick], [], [], false⟩
    let state : State :=
      { env := (({} : Environment).opened .body).declared "total" .int, sink := .plain }
    let lambda : CheckM Ty := checkLambda context (infer context []) (.atLine 9) pick.params
      pick.body [.pointer "negate"]
    let call : CheckM Ty := infer context [] (.call "pick" [.pointer "negate"])
    context.function? "pick" = some pick ∧ context.refuses [] "pick" = false ∧
      Unnamed context "pick" ∧
      (∀ type ∈ [Ty.pointer "negate"], type.PointsWithin (· ≠ "pick")) ∧
      (∀ variableName, .var variableName ∈ pick.uses context.hasFunction →
        state.env.table.hasVariable variableName = false) ∧
      (lambda.run state).1 = (call.run state).1 ∧
      (call.run state).2.visited.names = ["negate", "pick"] ∧
      attempted lambda state = [⟨.operandUnsupported "!", .atLine 2⟩,
        ⟨.functionReturnsDiffer lambdaName, .atLine 9⟩] ∧
      attempted call state = [⟨.operandUnsupported "!", .atLine 2⟩,
        ⟨.functionReturnsDiffer "pick", .atLine 3⟩] := by
  intro negate pick context state lambda call
  have unnamed : Unnamed context "pick" := ⟨by decide, by decide⟩
  have elsewhere : ∀ type ∈ [Ty.pointer "negate"], type.PointsWithin (· ≠ "pick") := by
    intro type member
    rw [List.mem_singleton.mp member]
    exact (by decide : "negate" ≠ "pick")
  have closed : ∀ variableName, .var variableName ∈ pick.uses context.hasFunction →
      state.env.table.hasVariable variableName = false := by
    intro variableName member
    have uses : pick.uses context.hasFunction = [.var "f", .var "n", .var "n"] := rfl
    rw [uses] at member
    simp only [List.mem_cons, Use.var.injEq, List.not_mem_nil, or_false, or_self] at member
    rcases member with rfl | rfl
    · rfl
    · rfl
  have agree := closed_lambda_typed_as_function context [] (.atLine 9) [.pointer "negate"] state
    rfl rfl unnamed elsewhere closed
  exact ⟨rfl, rfl, unnamed, elsewhere, closed, agree.1, by decide +kernel, by decide +kernel,
    by decide +kernel⟩

end CallSite.Inference
