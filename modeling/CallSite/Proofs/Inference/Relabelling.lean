import CallSite.Proofs.Inference.Entries
import CallSite.Proofs.Inference.Trace
import CallSite.Proofs.Resolution.Relabelling
import CallSite.Proofs.SymbolTable.Records

/-!
# Inference under new names for patterns

Two traced runs, of a check and of the same check with new names for the patterns, go side by side:
they have the same values, and the state and the notes of the one are those of the other under the
new names.  Every check keeps this up as long as the two ways to enter a declaration do.
-/

namespace CallSite

def Owner.relabel (labels : Relabelling) : Owner → Owner
  | .main => .main
  | .function name => .function name
  | .pattern name => .pattern (labels.key name)

/-! ## Environments -/

namespace SymbolTable

variable (labels : Relabelling) (table : SymbolTable)

theorem updateFunction_relabel (name : String) {change : FunctionEntry → FunctionEntry}
    (commutes : ∀ entry, change (entry.relabel labels) = (change entry).relabel labels) :
    (table.relabel labels).updateFunction name change =
      (table.updateFunction name change).relabel labels := by
  simp only [updateFunction, relabel, List.map_map]
  congr 1
  refine List.map_congr_left fun entry _ => ?_
  have stays : (entry.relabel labels).name = entry.name := rfl
  simp only [Function.comp_apply, stays, commutes]
  split <;> rfl

theorem updatePattern_relabel (name : String) {change : PatternEntry → PatternEntry}
    (commutes : ∀ entry, change (entry.relabel labels) = (change entry).relabel labels) :
    (table.relabel labels).updatePattern (labels.key name) change =
      (table.updatePattern name change).relabel labels := by
  simp only [updatePattern, relabel, List.map_map]
  congr 1
  refine List.map_congr_left fun entry _ => ?_
  have moves : ((entry.relabel labels).name == labels.key name) = (entry.name == name) := by
    rw [Bool.eq_iff_iff, beq_iff_eq, beq_iff_eq]
    exact labels.key.apply_eq_iff_eq
  simp only [Function.comp_apply, moves, commutes]
  split <;> rfl

end SymbolTable

namespace Environment

variable (labels : Relabelling) (env : Environment) (name : String) (type : Ty)

def relabel : Environment := { env with table := env.table.relabel labels }

variable {env} in
theorem relabel_eq_withEntries {after : Environment} (same : env.table.SameGlobals after.table) :
    after.relabel labels = after.withEntries (env.relabel labels).table.functions
      (env.relabel labels).table.patterns := by
  have functions : (env.relabel labels).table.functions =
      (after.relabel labels).table.functions :=
    congrArg (List.map _) same.functions.symm
  have patterns : (env.relabel labels).table.patterns = (after.relabel labels).table.patterns :=
    congrArg (List.map _) same.patterns.symm
  rw [functions, patterns]
  rfl

theorem declared_relabel :
    (env.relabel labels).declared name type = (env.declared name type).relabel labels := by
  rw [relabel_eq_withEntries labels (env.sameGlobals_declared name type)]
  exact env.declared_withEntries _ _ name type

theorem assigned_relabel :
    (env.relabel labels).assigned name type = (env.assigned name type).relabel labels := by
  rw [relabel_eq_withEntries labels (env.sameGlobals_assigned name type)]
  exact env.assigned_withEntries _ _ name type

theorem rebind_relabel :
    (env.relabel labels).rebind name type = (env.rebind name type).relabel labels := by
  rw [relabel_eq_withEntries labels (env.sameGlobals_rebind name type)]
  exact env.rebind_withEntries _ _ name type

end Environment

/-- The sets have the names of the same declarations, which have new names in the second. -/
def NameSet.Relabelled (labels : Relabelling) (declared : Owner → Prop) (names others : NameSet) :
    Prop :=
  ∃ entered : List Owner, (∀ owner ∈ entered, declared owner) ∧
    (∀ name, name ∈ names.names ↔ name ∈ Owner.names entered) ∧
    ∀ name, name ∈ others.names ↔ name ∈ Owner.names (entered.map (Owner.relabel labels))

theorem NameSet.Relabelled.insert {labels : Relabelling} {declared : Owner → Prop}
    {names others : NameSet} (relabelled : names.Relabelled labels declared others)
    {owner : Owner} (known : declared owner) {name other : String}
    (named : owner.name? = some name) (renamed : (owner.relabel labels).name? = some other) :
    (names.insert name).Relabelled labels declared (others.insert other) := by
  obtain ⟨entered, all, old, new⟩ := relabelled
  refine ⟨owner :: entered, List.forall_mem_cons.mpr ⟨known, all⟩, fun candidate => ?_,
    fun candidate => ?_⟩
  · rw [mem_insert, old, Owner.names, Owner.names, List.filterMap_cons_some named, List.mem_cons]
  · rw [mem_insert, new, List.map_cons, Owner.names, Owner.names,
      List.filterMap_cons_some renamed, List.mem_cons]

namespace Inference

variable (labels : Relabelling)

def Invocation.relabel : Invocation → Invocation
  | .call function types => .call function types
  | .matching pattern type => .matching (labels.key pattern) type

/-! ## Contexts -/

namespace Context

def relabel (context : Context) : Context :=
  { context with
    functions := context.functions.map (Function.relabel labels)
    patterns := context.patterns.map (Pattern.relabel labels) }

theorem function?_relabel (context : Context) (name : String) :
    (context.relabel labels).function? name =
      (context.function? name).map (Function.relabel labels) :=
  List.find?_map

theorem pattern?_relabel (context : Context) (name : String) :
    (context.relabel labels).pattern? (labels.key name) =
      (context.pattern? name).map (Pattern.relabel labels) := by
  have moves : ∀ pattern : Pattern,
      (pattern.relabel labels).name.name = labels.key pattern.name.name := fun _ => rfl
  exact Relabelling.find?_map (·.name.name) moves context.patterns name

theorem hasFunction_relabel (context : Context) (name : String) :
    (context.relabel labels).hasFunction name = context.hasFunction name := by
  rw [hasFunction, function?_relabel, Option.isSome_map, hasFunction]

theorem declares_relabel (context : Context) (invocation : Invocation) :
    (context.relabel labels).Declares (invocation.relabel labels) ↔
      context.Declares invocation := by
  cases invocation with
  | call name types =>
    rw [Invocation.relabel, Declares, function?_relabel, Option.isSome_map, Declares]
  | matching name type =>
    rw [Invocation.relabel, Declares, pattern?_relabel, Option.isSome_map, Declares]

end Context

def Context.DeclaresOwner (context : Context) : Owner → Prop
  | .main => False
  | .function name => (context.function? name).isSome
  | .pattern name => (context.pattern? name).isSome

/-! ## What a run comes to -/

instance (context : Context) : (invocation : Invocation) → Decidable (context.Declares invocation)
  | .call name _ => inferInstanceAs (Decidable ((context.function? name).isSome = true))
  | .matching name _ => inferInstanceAs (Decidable ((context.pattern? name).isSome = true))

/-- An invocation that a run comes to, with what is being checked at that moment and whether the
invocation is followed. -/
structure Encounter where
  stack : List Owner
  invocation : Invocation
  followed : Bool
deriving DecidableEq

def Encounter.relabel (encounter : Encounter) : Encounter where
  stack := encounter.stack.map (Owner.relabel labels)
  invocation := encounter.invocation.relabel labels
  followed := encounter.followed

def Context.encounter? (context : Context) : Demand → Option Encounter
  | .lookup _ _ => none
  | .invoke stack invocation refused =>
    some ⟨stack, invocation, decide (context.Declares invocation) && !refused⟩

/-- What a run came to, the latest first. -/
def Context.encounters (context : Context) (demands : List Demand) : List Encounter :=
  demands.filterMap context.encounter?

/-- The declaration itself stands in the way of the invocation: it is being checked already, or it
is a function on a cycle that is not to be entered. -/
def Context.MeetsItself (context : Context) (stack : List Owner) (invocation : Invocation) : Prop :=
  invocation.owner ∈ stack ∨
    invocation.owner = .function invocation.name ∧ context.refuses [] invocation.name = true

instance (context : Context) (stack : List Owner) (invocation : Invocation) :
    Decidable (context.MeetsItself stack invocation) :=
  inferInstanceAs (Decidable (_ ∨ _ ∧ _))

/-- A declaration is refused for itself, or under a name that stays. -/
def Context.Separates (context : Context) : Demand → Prop
  | .lookup _ _ => True
  | .invoke stack invocation refused => refused = true → context.Declares invocation →
    context.MeetsItself stack invocation ∨ labels.key invocation.name = invocation.name

/-! ## Runs side by side -/

/-- The second state is the first under new names. -/
structure State.Relabelled (context : Context) (state other : State) : Prop where
  env : other.env = state.env.relabel labels
  sink : other.sink = state.sink.relabel labels
  visited : state.visited.Relabelled labels context.DeclaresOwner other.visited

/-- The second run is the first under new names. -/
structure Traced.Relabelled (context : Context) (traced other : Traced) : Prop where
  state : traced.state.Relabelled labels context other.state
  stack : other.stack = traced.stack.map (Owner.relabel labels)
  encounters : (context.relabel labels).encounters other.demands =
    (context.encounters traced.demands).map (Encounter.relabel labels)

/-- Inside the given owners, the second action does under new names what the first one does, as long
as nothing is refused for the sake of the other kind. -/
structure Relabels (context : Context) (stack : List Owner) {α : Type} (left right : TraceM α) :
    Prop where
  lengthens : Lengthens left
  alike : ∀ traced other, traced.Relabelled labels context other → traced.stack = stack →
    (∀ demand ∈ (left.run traced).2.demands, context.Separates labels demand) →
    (right.run other).1 = (left.run traced).1 ∧
      (left.run traced).2.Relabelled labels context (right.run other).2 ∧
      (left.run traced).2.stack = stack

/-! ## Rules

No rule for the parts of a body tells a pattern. -/

section Rules

theorem mapError_listRule (elements : List Ty) :
    (listRule elements).mapError (Problem.relabel labels) = listRule elements := by
  unfold listRule
  split <;> rfl

theorem mapError_binaryRule (operator : BinaryOp) (left right : Ty) :
    (binaryRule operator left right).mapError (Problem.relabel labels) =
      binaryRule operator left right := by
  unfold binaryRule
  split_ifs <;> rfl

theorem mapError_unaryRule (operator : UnaryOp) (operand : Ty) :
    (unaryRule operator operand).mapError (Problem.relabel labels) =
      unaryRule operator operand := by
  dsimp only [unaryRule]
  split_ifs <;> rfl

theorem mapError_indexRule (type : Ty) :
    (indexRule type).mapError (Problem.relabel labels) = indexRule type := by
  cases type <;> rfl

theorem mapError_appendRule (type : Ty) :
    (appendRule type).mapError (Problem.relabel labels) = appendRule type := by
  cases type <;> rfl

theorem mapError_lenRule (type : Ty) :
    (lenRule type).mapError (Problem.relabel labels) = lenRule type := by
  cases type <;> rfl

theorem mapError_chompRule (type : Ty) :
    (chompRule type).mapError (Problem.relabel labels) = chompRule type := by
  cases type <;> rfl

theorem mapError_iterateRule (type : Ty) :
    (iterateRule type).mapError (Problem.relabel labels) = iterateRule type := by
  cases type <;> rfl

theorem mapError_spanRule (first last : Ty) :
    (spanRule first last).mapError (Problem.relabel labels) = spanRule first last := by
  unfold spanRule
  split_ifs <;> rfl

theorem mapError_returnRule (problem : Problem) (returns : List Ty) :
    (returnRule problem returns).mapError (Problem.relabel labels) =
      returnRule (problem.relabel labels) returns := by
  unfold returnRule
  split <;> rfl

theorem map_conditionRule (type : Ty) :
    (conditionRule type).map (Problem.relabel labels) = conditionRule type := by
  unfold conditionRule
  split_ifs <;> rfl

theorem map_compoundRule (operator : AssignOp) (target : Ty) :
    (compoundRule operator target).map (Problem.relabel labels) =
      compoundRule operator target := by
  unfold compoundRule
  split_ifs <;> rfl

theorem map_storeRule (operator : AssignOp) (target index value : Ty) :
    (storeRule operator target index value).map (Problem.relabel labels) =
      storeRule operator target index value := by
  dsimp only [storeRule]
  split_ifs <;> rfl

theorem mapError_pushRule (target value : Ty) :
    (pushRule target value).mapError (Problem.relabel labels) = pushRule target value := by
  unfold pushRule
  split
  · rfl
  · split_ifs <;> rfl
  · split_ifs
    · rfl
    · split <;> rfl
  · rfl

end Rules

/-! ## Actions -/

namespace Relabels

variable {labels} {context : Context} {stack : List Owner} {α β : Type}

theorem pure (value : α) :
    Relabels labels context stack (Pure.pure value) (Pure.pure value) :=
  ⟨.pure value, fun _ _ relabelled inside _ => ⟨rfl, relabelled, inside⟩⟩

theorem bind {left right : TraceM α} {leftNext rightNext : α → TraceM β}
    (first : Relabels labels context stack left right)
    (second : ∀ value, Relabels labels context stack (leftNext value) (rightNext value)) :
    Relabels labels context stack (left >>= leftNext) (right >>= rightNext) := by
  refine ⟨first.lengthens.bind fun value => (second value).lengthens, ?_⟩
  intro traced other relabelled inside separate
  have separateFirst : ∀ demand ∈ (left.run traced).2.demands, context.Separates labels demand :=
    fun demand member => separate demand (((second _).lengthens _).subset member)
  obtain ⟨value, between, within⟩ := first.alike traced other relabelled inside separateFirst
  have ran : (right >>= rightNext).run other =
      (rightNext (left.run traced).1).run (right.run other).2 := by
    rw [← value]
    rfl
  rw [ran]
  exact (second _).alike _ _ between within separate

theorem lift {left right : CheckM α}
    (alike : ∀ state other, state.Relabelled labels context other →
      (right.run other).1 = (left.run state).1 ∧
        (left.run state).2.Relabelled labels context (right.run other).2) :
    Relabels labels context stack (TraceM.lift left) (TraceM.lift right) := by
  refine ⟨.lift left, fun traced other relabelled inside _ => ?_⟩
  obtain ⟨value, state⟩ := alike _ _ relabelled.state
  exact ⟨value, ⟨state, relabelled.stack, relabelled.encounters⟩, inside⟩

/-- A change of the environment alone. -/
theorem update (change renamed : Environment → Environment)
    (commutes : ∀ env : Environment,
      renamed (env.relabel labels) = (change env).relabel labels) :
    Relabels labels context stack
      (TraceM.lift (modify fun state => { state with env := change state.env }))
      (TraceM.lift (modify fun state => { state with env := renamed state.env })) := by
  refine .lift fun state other relabelled => ⟨rfl, ?_, relabelled.sink, relabelled.visited⟩
  change renamed other.env = (change state.env).relabel labels
  rw [relabelled.env, commutes]

theorem report (problem : Problem) (position : Position) :
    Relabels labels context stack (Inference.report problem position)
      (Inference.report (problem.relabel labels) position) := by
  refine .lift fun state other relabelled => ⟨rfl, ⟨relabelled.env, ?_, relabelled.visited⟩⟩
  change other.sink.report _ = (state.sink.report ⟨problem, position⟩).relabel labels
  rw [relabelled.sink]
  exact state.sink.report_relabel labels ⟨problem, position⟩

theorem typeOf (name : String) :
    Relabels labels context stack (Inference.typeOf name) (Inference.typeOf name) := by
  refine ⟨(Lengthens.note _).bind fun _ => .lift _, fun traced other relabelled inside _ => ?_⟩
  refine ⟨?_, ⟨relabelled.state, relabelled.stack, relabelled.encounters⟩, inside⟩
  change (other.state.env.typeOf? name).getD .unresolved =
    (traced.state.env.typeOf? name).getD .unresolved
  rw [relabelled.state.env]
  rfl

theorem declare (name : String) (type : Ty) :
    Relabels labels context stack (Inference.declare name type) (Inference.declare name type) :=
  .update (·.declared name type) (·.declared name type) fun env =>
    env.declared_relabel labels name type

theorem assign (name : String) (type : Ty) :
    Relabels labels context stack (Inference.assign name type) (Inference.assign name type) :=
  .update (·.assigned name type) (·.assigned name type) fun env =>
    env.assigned_relabel labels name type

theorem rebind (name : String) (type : Ty) :
    Relabels labels context stack (Inference.rebind name type) (Inference.rebind name type) :=
  .update (·.rebind name type) (·.rebind name type) fun env =>
    env.rebind_relabel labels name type

theorem settle (position : Position) {rule other : Except Problem Ty}
    (same : rule.mapError (Problem.relabel labels) = other) :
    Relabels labels context stack (Inference.settle position rule)
      (Inference.settle position other) := by
  subst same
  cases rule with
  | ok type => exact .pure type
  | error problem => exact .bind (.report problem position) fun _ => .pure _

theorem reportAny (position : Position) {found other : Option Problem}
    (same : found.map (Problem.relabel labels) = other) :
    Relabels labels context stack (Inference.reportAny position found)
      (Inference.reportAny position other) := by
  subst same
  cases found with
  | none => exact .pure ()
  | some problem => exact .report problem position

theorem inScope (kind : ScopeKind) {left right : TraceM α}
    (inner : Relabels labels context stack left right) :
    Relabels labels context stack (TraceM.inScope kind left) (TraceM.inScope kind right) := by
  have opening : Relabels labels context stack
      (TraceM.lift (modify (·.openScope kind))) (TraceM.lift (modify (·.openScope kind))) :=
    .update (fun env => { env with table := env.table.openScope kind })
      (fun env => { env with table := env.table.openScope kind }) fun _ => rfl
  refine opening.bind fun _ => inner.bind fun _ => .bind (.lift ?_) fun _ => .pure _
  intro state other relabelled
  refine ⟨?_, ?_, relabelled.sink, relabelled.visited⟩
  · change other.env.table.current? = _
    rw [relabelled.env]
    rfl
  · change { other.env with table := other.env.table.close } = _
    rw [relabelled.env]
    rfl

theorem inBranch {left right : TraceM α} (inner : Relabels labels context stack left right) :
    Relabels labels context stack (Inference.inBranch left) (Inference.inBranch right) :=
  (inner.inScope .branch).bind fun _ => .pure _

theorem during {owner : Owner} {left right : TraceM α}
    (inner : Relabels labels context (owner :: stack) left right) :
    Relabels labels context stack (TraceM.during owner left)
      (TraceM.during (owner.relabel labels) right) := by
  refine ⟨inner.lengthens.during owner, fun traced other relabelled inside separate => ?_⟩
  have pushed : (traced.push owner).Relabelled labels context
      (other.push (owner.relabel labels)) :=
    ⟨relabelled.state, congrArg (owner.relabel labels :: ·) relabelled.stack,
      relabelled.encounters⟩
  obtain ⟨value, after, within⟩ :=
    inner.alike _ _ pushed (congrArg (owner :: ·) inside) separate
  refine ⟨value, ⟨after.state, ?_, after.encounters⟩, congrArg List.tail within⟩
  change (right.run _).2.stack.tail = (left.run _).2.stack.tail.map _
  rw [after.stack, List.map_tail]

theorem visit {owner : Owner} (declared : context.DeclaresOwner owner) {name other : String}
    (named : owner.name? = some name) (renamed : (owner.relabel labels).name? = some other) :
    Relabels labels context stack (TraceM.lift (modify (·.visit name)))
      (TraceM.lift (modify (·.visit other))) :=
  .lift fun _ _ relabelled =>
    ⟨rfl, relabelled.env, relabelled.sink, relabelled.visited.insert declared named renamed⟩

theorem inCall {function : String} (declared : context.DeclaresOwner (.function function))
    {left right : TraceM (List Ty × Ty)}
    (inner : Relabels labels context (.function function :: stack) left right) :
    Relabels labels context stack (Inference.inCall function left)
      (Inference.inCall function right) := by
  refine .bind (.visit declared rfl rfl) fun _ =>
    (inner.inScope .body).during.bind fun outcome => .bind ?_ fun _ => .pure _
  let record (entry : FunctionEntry) : FunctionEntry :=
    entry.record outcome.1.1 outcome.1.2 outcome.2
  let keep (env : Environment) : Environment :=
    { env with table := env.table.updateFunction function record }
  refine .update keep keep fun env => congrArg (Environment.mk · env.store) ?_
  exact env.table.updateFunction_relabel labels function fun _ => rfl

theorem inMatch {pattern : String} (declared : context.DeclaresOwner (.pattern pattern))
    (type : Ty) {left right : TraceM Ty}
    (inner : Relabels labels context (.pattern pattern :: stack) left right) :
    Relabels labels context stack (Inference.inMatch pattern type left)
      (Inference.inMatch (labels.key pattern) type right) := by
  refine .bind (.visit declared rfl rfl) fun _ =>
    (inner.inScope .body).during.bind fun outcome => .bind ?_ fun _ => .pure _
  let keep (name : String) (env : Environment) : Environment :=
    { env with table := env.table.updatePattern name (·.record type outcome.1 outcome.2) }
  refine .update (keep pattern) (keep (labels.key pattern)) fun env =>
    congrArg (Environment.mk · env.store) ?_
  exact env.table.updatePattern_relabel labels pattern fun _ => rfl

theorem inMain {left right : TraceM Unit} (inner : Relabels labels context stack left right) :
    Relabels labels context stack (Inference.inMain left) (Inference.inMain right) := by
  refine (inner.inScope .body).bind fun outcome => ?_
  let keep (env : Environment) : Environment := { env with table.mainScope := outcome.2 }
  exact .update keep keep fun _ => rfl

theorem callPointer {enter other : Invocation → TraceM Ty}
    (entered : ∀ invocation, Relabels labels context stack (enter invocation)
    (other (invocation.relabel labels)))
    (callee : Ty) (types : List Ty) :
    Relabels labels context stack (Inference.callPointer enter callee types)
      (Inference.callPointer other callee types) := by
  cases callee with
  | pointer function => exact entered (.call function types)
  | _ => exact .pure _

theorem pushOnto (position : Position) (target : Expr) (targetType valueType : Ty) :
    Relabels labels context stack (Inference.pushOnto position target targetType valueType)
      (Inference.pushOnto position (target.relabel labels) targetType valueType) := by
  have same : (target.relabel labels).varName? = target.varName? := by cases target <;> rfl
  have rule : (pushRule targetType valueType).mapError _ = _ := mapError_pushRule labels _ _
  unfold Inference.pushOnto
  rw [same]
  cases outcome : pushRule targetType valueType with
  | error problem =>
    have stays : problem.relabel labels = problem := by simpa [outcome, Except.mapError] using rule
    have moved : Relabels labels context stack _ _ := .report problem position
    rwa [stays] at moved
  | ok refined =>
    cases refined with
    | none => exact .pure ()
    | some type =>
      cases target.varName? with
      | none => exact .pure ()
      | some name => exact .assign name type

theorem assignTo (position : Position) (target : String) (operator : AssignOp) (valueType : Ty) :
    Relabels labels context stack (Inference.assignTo position target operator valueType)
      (Inference.assignTo position target operator valueType) := by
  unfold Inference.assignTo
  split
  · exact .bind (.typeOf target) fun _ => .reportAny position (map_compoundRule labels operator _)
  · exact .assign target valueType

end Relabels

/-! ## Checks -/

section Checks

variable {labels} {context another : Context} {stack : List Owner}
  {enter other : Invocation → TraceM Ty}

mutual

theorem relabels_checkExpr (known : ∀ name, another.hasFunction name = context.hasFunction name)
    (entered : ∀ invocation, Relabels labels context stack (enter invocation)
      (other (invocation.relabel labels))) : ∀ expression : Expr,
    Relabels labels context stack (checkExpr context enter expression)
      (checkExpr another other (expression.relabel labels))
  | .var _ name => .typeOf name
  | .int _ _ | .float _ _ | .bool _ _ | .string _ _ | .pointer _ _ | .lambda _ _ _ => .pure _
  | .list position elements =>
    .bind (relabels_checkExprs known entered elements) fun _ =>
      .settle position (mapError_listRule labels _)
  | .binary position _ left right =>
    .bind (relabels_checkExpr known entered left) fun _ =>
      .bind (relabels_checkExpr known entered right) fun _ =>
        .settle position (mapError_binaryRule labels _ _ _)
  | .unary position _ operand =>
    .bind (relabels_checkExpr known entered operand) fun _ =>
      .settle position (mapError_unaryRule labels _ _)
  | .call _ callee arguments => by
    have inArguments := relabels_checkExprs known entered arguments
    cases callee with
    | var place name =>
      refine inArguments.bind fun types => ?_
      rw [known name]
      split
      · exact entered (.call name types)
      · exact .bind (.typeOf name) fun _ => .callPointer entered _ types
    | lambda place params body =>
      exact inArguments.bind fun types =>
        .bind
          (.inBranch (.bind (relabels_bindParams known entered params types) fun _ =>
            relabels_checkBody known entered body))
          fun _ => .settle place (mapError_returnRule labels _ _)
    | _ =>
      exact inArguments.bind fun types =>
        .bind (relabels_checkExpr known entered _) fun _ => .callPointer entered _ types
  | .index position target indices =>
    .bind (relabels_checkExpr known entered target) fun type =>
      relabels_checkIndices known entered position type indices
  | .append position target values =>
    .bind (relabels_checkExpr known entered target) fun _ =>
      .bind (relabels_checkExprs known entered values) fun _ =>
        .settle position (mapError_appendRule labels _)
  | .len position operand =>
    .bind (relabels_checkExpr known entered operand) fun _ =>
      .settle position (mapError_lenRule labels _)
  | .chop _ operand => .bind (relabels_checkExpr known entered operand) fun _ => .pure _
  | .chomp position operand =>
    .bind (relabels_checkExpr known entered operand) fun _ =>
      .settle position (mapError_chompRule labels _)
  | .matching _ pattern argument =>
    .bind (relabels_checkExpr known entered argument) fun type => entered (.matching pattern type)
termination_by structural expression => expression

theorem relabels_checkExprs (known : ∀ name, another.hasFunction name = context.hasFunction name)
    (entered : ∀ invocation, Relabels labels context stack (enter invocation)
      (other (invocation.relabel labels))) : ∀ expressions : List Expr,
    Relabels labels context stack (checkExprs context enter expressions)
      (checkExprs another other (Expr.relabelAll labels expressions))
  | [] => .pure _
  | expression :: expressions =>
    .bind (relabels_checkExpr known entered expression) fun _ =>
      .bind (relabels_checkExprs known entered expressions) fun _ => .pure _
termination_by structural expressions => expressions

theorem relabels_checkIndices (known : ∀ name, another.hasFunction name = context.hasFunction name)
    (entered : ∀ invocation, Relabels labels context stack (enter invocation)
      (other (invocation.relabel labels))) (position : Position) (current : Ty) :
    ∀ indices : List Expr,
    Relabels labels context stack (checkIndices context enter position current indices)
      (checkIndices another other position current (Expr.relabelAll labels indices))
  | [] => .pure _
  | index :: indices => by
    refine .bind (relabels_checkExpr known entered index) fun _ =>
      .bind (.settle position (mapError_indexRule labels current)) fun next => ?_
    split
    · exact relabels_checkIndices known entered position next indices
    · rw [Expr.position_relabel]
      exact .bind (.report .indexNotInt index.position) fun _ => .pure _
termination_by structural indices => indices

theorem relabels_bindParams (known : ∀ name, another.hasFunction name = context.hasFunction name)
    (entered : ∀ invocation, Relabels labels context stack (enter invocation)
      (other (invocation.relabel labels))) : ∀ (params : List Param) (types : List Ty),
    Relabels labels context stack (bindParams context enter params types)
      (bindParams another other (Param.relabelAll labels params) types)
  | [], _ => .pure _
  | ⟨_, some _⟩ :: params, _ :: types | ⟨_, none⟩ :: params, _ :: types =>
    .bind (.declare _ _) fun _ =>
      .bind (relabels_bindParams known entered params types) fun _ => .pure _
  | ⟨_, some default⟩ :: params, [] =>
    .bind (relabels_checkExpr known entered default) fun _ =>
      .bind (.declare _ _) fun _ =>
        .bind (relabels_bindParams known entered params []) fun _ => .pure _
  | ⟨_, none⟩ :: params, [] =>
    .bind (.declare _ _) fun _ =>
      .bind (relabels_bindParams known entered params []) fun _ => .pure _
termination_by structural params => params

theorem relabels_checkRange (known : ∀ name, another.hasFunction name = context.hasFunction name)
    (entered : ∀ invocation, Relabels labels context stack (enter invocation)
      (other (invocation.relabel labels))) (position : Position) : ∀ range : Range,
    Relabels labels context stack (checkRange context enter position range)
      (checkRange another other position (range.relabel labels))
  | .elements values =>
    .bind (relabels_checkExprs known entered values) fun _ =>
      .bind (.settle position (mapError_listRule labels _)) fun _ => .pure _
  | .value operand =>
    .bind (relabels_checkExpr known entered operand) fun _ =>
      .settle position (mapError_iterateRule labels _)
  | .span first last =>
    .bind (relabels_checkExpr known entered first) fun _ =>
      .bind (relabels_checkExpr known entered last) fun _ =>
        .settle position (mapError_spanRule labels _ _)
termination_by structural range => range

theorem relabels_checkConditions
    (known : ∀ name, another.hasFunction name = context.hasFunction name)
    (entered : ∀ invocation, Relabels labels context stack (enter invocation)
      (other (invocation.relabel labels))) : ∀ conditions : List Expr,
    Relabels labels context stack (checkConditions context enter conditions)
      (checkConditions another other (Expr.relabelAll labels conditions))
  | [] => .pure _
  | condition :: conditions => by
    refine .bind (relabels_checkExpr known entered condition) fun type => ?_
    rw [Expr.position_relabel]
    exact .bind (.reportAny condition.position (map_conditionRule labels type)) fun _ =>
      relabels_checkConditions known entered conditions
termination_by structural conditions => conditions

theorem relabels_checkStmt (known : ∀ name, another.hasFunction name = context.hasFunction name)
    (entered : ∀ invocation, Relabels labels context stack (enter invocation)
      (other (invocation.relabel labels))) : ∀ statement : Stmt,
    Relabels labels context stack (checkStmt context enter statement)
      (checkStmt another other (statement.relabel labels))
  | .expr _ value | .put _ value | .ret _ (some value) =>
    .bind (relabels_checkExpr known entered value) fun _ => .pure _
  | .assign position target none operator value =>
    .bind (relabels_checkExpr known entered value) fun type =>
      .bind (.assignTo position target operator type) fun _ => .pure _
  | .assign position target (some index) operator value => by
    refine .bind (relabels_checkExpr known entered value) fun _ =>
      .bind (.typeOf target) fun _ => ?_
    split
    · exact .bind (relabels_checkExpr known entered index) fun _ => .pure _
    · split
      · exact .bind (relabels_checkExpr known entered index) fun _ =>
          .bind (.reportAny position (map_storeRule labels operator _ _ _)) fun _ => .pure _
      · exact .bind (.report .notIndexable position) fun _ => .pure _
  | .ifElse _ conditions thenBody elseBody =>
    .bind (relabels_checkConditions known entered conditions) fun _ =>
      .bind (.inBranch (relabels_checkBody known entered thenBody)) fun _ =>
        .bind (.inBranch (relabels_checkBody known entered elseBody)) fun _ => .pure _
  | .ret _ none => .pure _
  | .push position target value =>
    .bind (relabels_checkExpr known entered target) fun _ =>
      .bind (relabels_checkExpr known entered value) fun _ =>
        .bind (.pushOnto position target _ _) fun _ => .pure _
  | .loop _ body => .inBranch (relabels_checkBody known entered body)
  | .forEach position iterator range body =>
    .inBranch
      (.bind (relabels_checkRange known entered position range) fun _ =>
        .bind (.rebind iterator _) fun _ => relabels_checkBody known entered body)
  | .breakWhen _ conditions | .nextWhen _ conditions =>
    .bind (relabels_checkConditions known entered conditions) fun _ => .pure _
termination_by structural statement => statement

theorem relabels_checkBody (known : ∀ name, another.hasFunction name = context.hasFunction name)
    (entered : ∀ invocation, Relabels labels context stack (enter invocation)
      (other (invocation.relabel labels))) : ∀ statements : List Stmt,
    Relabels labels context stack (checkBody context enter statements)
      (checkBody another other (Stmt.relabelAll labels statements))
  | [] => .pure _
  | statement :: statements =>
    .bind (relabels_checkStmt known entered statement) fun _ =>
      .bind (relabels_checkBody known entered statements) fun _ => .pure _
termination_by structural statements => statements

end

variable (known : ∀ name, another.hasFunction name = context.hasFunction name)
  (entered : ∀ invocation, Relabels labels context stack (enter invocation)
    (other (invocation.relabel labels)))

include known entered

theorem relabels_checkFunction (function : Function) (types : List Ty) :
    Relabels labels context stack (checkFunction context enter function types)
      (checkFunction another other (function.relabel labels) types) :=
  .bind (relabels_bindParams known entered function.params types) fun _ =>
    .bind (relabels_checkBody known entered function.body) fun _ =>
      .bind (.settle function.position (mapError_returnRule labels _ _)) fun _ => .pure _

theorem relabels_checkCases (conditions : List Expr) :
    Relabels labels context stack (checkCases context enter conditions)
      (checkCases another other (Expr.relabelAll labels conditions)) := by
  induction conditions with
  | nil => exact .pure true
  | cons condition conditions ih =>
    refine .bind (relabels_checkExpr known entered condition) fun _ => ?_
    split
    · exact ih
    · rw [Expr.position_relabel]
      exact .bind (.report .conditionNotBool condition.position) fun _ => .pure _

/-- The only report that tells a pattern is the one on its own returns. -/
theorem relabels_checkPattern {pattern : Pattern}
    (shown : (pattern.relabel labels).name.baseName = labels.shown pattern.name.baseName)
    (type : Ty) :
    Relabels labels context stack (checkPattern context enter pattern type)
      (checkPattern another other (pattern.relabel labels) type) := by
  refine .bind (.declare _ type) fun _ => ?_
  refine .bind (relabels_checkCases known entered pattern.conditions) fun _ => ?_
  split
  · refine .bind (relabels_checkExprs known entered pattern.returns) fun returns => ?_
    rw [shown]
    exact .settle pattern.position (mapError_returnRule labels _ returns)
  · exact .pure _

theorem relabels_checkMain (body : List Stmt) :
    Relabels labels context stack (checkMain context enter body)
      (checkMain another other (Stmt.relabelAll labels body)) :=
  .inMain (.bind (relabels_checkBody known entered body) fun _ => .pure _)

end Checks

end Inference

end CallSite
