import CallSite.Proofs.Inference.Expressions
import CallSite.Proofs.Inference.Realization
import CallSite.Proofs.Scope.Brackets

/-!
# What checking does to the open scopes

A call or a match leaves the stack of open scopes as it was.  An expression keeps the scopes with
their variables, and changes types only where a lambda is called on the spot.  A statement adds at
most one name to the innermost scope, by assigning to a variable that was not visible.  All of this
holds of every environment.  Below the nearest body a type can only change in a variable that is
visible above it as well, as it is where two copies of a scope are open.
-/

namespace CallSite

namespace Inference

/-- Every check lets the environment grow. -/
def growing : BodySimulation CheckM CheckM where
  rel left _ := ∀ state : State, state.env.Grows (left.run state).2.env
  rel_pure _ state := .refl state.env
  rel_bind first second state := (first state).trans (second _ _)
  rel_report _ _ _ state := .refl state.env
  rel_typeOf _ state := .refl state.env
  rel_declare name type state := state.env.grows_declared name type
  rel_assign name type state := state.env.grows_assigned name type
  rel_rebind name type state := state.env.grows_rebind name type
  rel_inBranch inner state := (inner (state.openScope .branch)).close

/-- Every check keeps the variables of the open scopes in the store. -/
def grounding : BodySimulation CheckM CheckM where
  rel left _ := ∀ state : State, state.env.Grounded → (left.run state).2.env.Grounded
  rel_pure _ _ grounded := grounded
  rel_bind first second state grounded := second _ _ (first state grounded)
  rel_report _ _ _ _ grounded := grounded
  rel_typeOf _ _ grounded := grounded
  rel_declare name type _ grounded := grounded.declared name type
  rel_assign name type _ grounded := grounded.assigned name type
  rel_rebind name type _ grounded := grounded.rebind name type
  rel_inBranch inner state grounded :=
    (inner (state.openScope .branch) (grounded.opened .branch)).close

/-- The open scopes are left as they were. -/
def still : ExprInvariant CheckM where
  holds action := ∀ state : State, (action.run state).2.env.table.scopes = state.env.table.scopes
  holds_pure _ _ := rfl
  holds_bind first second state := (second _ _).trans (first state)
  holds_report _ _ _ := rfl
  holds_typeOf _ _ := rfl

/-- The open scopes and all their variables are left as they were. -/
def untouching : ExprInvariant CheckM where
  holds action := ∀ state : State, state.env.Untouched (action.run state).2.env
  holds_pure _ state := .refl state.env
  holds_bind first second state := (first state).trans (second _ _)
  holds_report _ _ state := .refl state.env
  holds_typeOf _ state := .refl state.env

/-- What a branch gains is gone with the branch. -/
theorem still_inBranch {α : Type} {action : CheckM α} (grows : growing.rel action action) :
    still.holds (inBranch action) :=
  fun state => (grows (state.openScope .branch)).scopes_closed

section Scopes

variable (context : Context) (active : List String)

/-! ## Calls and expressions -/

theorem untouching_infer (invocation : Invocation) :
    untouching.holds (infer context active invocation : CheckM Ty) :=
  fun state => (enters_infer context active invocation state []).untouched

theorem still_infer (invocation : Invocation) :
    still.holds (infer context active invocation : CheckM Ty) :=
  fun state => (untouching_infer context active invocation state).scopes

theorem growing_infer (invocation : Invocation) :
    growing.rel (infer context active invocation) (infer context active invocation) :=
  fun state => (untouching_infer context active invocation state).grows

theorem grounding_infer (invocation : Invocation) :
    grounding.rel (infer context active invocation) (infer context active invocation) :=
  fun state => (untouching_infer context active invocation state).grounded

theorem growing_checkBody (body : List Stmt) :
    growing.rel (checkBody context (infer context active) body)
      (checkBody context (infer context active) body) :=
  growing.rel_checkBody (fun _ => rfl) (growing_infer context active) body

theorem still_checkLambda (position : Position) (params : List Param) (body : List Stmt)
    (types : List Ty) :
    still.holds (checkLambda context (infer context active) position params body types) := by
  have known : ∀ name, context.hasFunction name = context.hasFunction name := fun _ => rfl
  have inParams := growing.rel_bindParams known (growing_infer context active) params types
  have inBody := growing.rel_bind inParams fun _ => growing_checkBody context active body
  exact still.holds_bind (still_inBranch inBody) fun _ => still.holds_settle position _

theorem still_checkExpr (expression : Expr) :
    still.holds (checkExpr context (infer context active) expression : CheckM Ty) :=
  still.holds_checkExpr (still_infer context active) expression fun _ =>
    still_checkLambda context active

theorem untouched_checkExpr {expression : Expr} (plain : expression.callsLambda = false)
    (state : State) :
    state.env.Untouched
      ((checkExpr context (infer context active) expression : CheckM Ty).run state).2.env :=
  untouching.holds_plainExpr (untouching_infer context active) plain state

/-! ## Statements -/

theorem still_checkConditions (conditions : List Expr) :
    still.holds (checkConditions context (infer context active) conditions : CheckM Unit) := by
  induction conditions with
  | nil => exact still.holds_pure ()
  | cons condition conditions ih =>
    exact still.holds_bind (still_checkExpr context active condition) fun _ =>
      still.holds_bind (still.holds_reportAny _ _) fun _ => ih

/-- Pushing refines the type of a variable that is there, and never declares one. -/
theorem scopes_pushOnto (position : Position) (target : Expr) (targetType valueType : Ty)
    (state : State) (visible : ∀ name, target.varName? = some name →
      targetType = .unresolved ∨ (state.env.table.locate? name).isSome) :
    ((pushOnto position target targetType valueType : CheckM Unit).run state).2.env.table.scopes =
      state.env.table.scopes := by
  unfold pushOnto
  cases rule : pushRule targetType valueType with
  | error problem => rfl
  | ok refinement =>
    cases refinement with
    | none => rfl
    | some refined =>
      cases named : target.varName? with
      | none => rfl
      | some name =>
        rcases visible name named with unknown | found
        · rw [unknown, pushRule] at rule
          cases rule
        · exact Environment.scopes_assigned_of_isSome found refined

theorem still_checkPush (position : Position) (target value : Expr) :
    still.holds (checkStmt context (infer context active) (.push position target value) :
      CheckM (List Ty)) := by
  intro state
  let first := (checkExpr context (infer context active) target : CheckM Ty).run state
  let second := (checkExpr context (infer context active) value : CheckM Ty).run first.2
  have kept : second.2.env.table.scopes = state.env.table.scopes :=
    (still_checkExpr context active value first.2).trans
      (still_checkExpr context active target state)
  refine (scopes_pushOnto position target first.1 second.1 second.2 ?_).trans kept
  intro name named
  rw [SymbolTable.locate?_congr kept name]
  cases target with
  | var place variable_ =>
    cases named
    change ((state.env.typeOf? name).getD .unresolved) = .unresolved ∨ _
    rw [Environment.typeOf?, Environment.lookup?]
    cases state.env.table.locate? name with
    | none => exact .inl rfl
    | some location => exact .inr rfl
  | _ => cases named

/-- Every statement leaves the open scopes as they were, except that a plain assignment to a whole
variable binds its target in the innermost scope where that is not visible. -/
theorem scopes_checkStmt (statement : Stmt) (state : State) :
    let after :=
      ((checkStmt context (infer context active) statement : CheckM (List Ty)).run state).2.env
    after.table.scopes = state.env.table.scopes ∨
      ∃ position target operator value scope outer location,
        statement = .assign position target none operator value ∧ operator.isCompound = false ∧
        state.env.table.locate? target = none ∧ state.env.table.scopes = scope :: outer ∧
        after.table.scopes = scope.bind target location :: outer := by
  have inExpr := still_checkExpr context active
  have inConditions := still_checkConditions context active
  have ofBranch (body : List Stmt) := still_inBranch (growing_checkBody context active body)
  cases statement with
  | expr position value | put position value =>
    exact .inl (still.holds_bind (inExpr value) (fun _ => still.holds_pure _) state)
  | assign position target index operator value =>
    cases index with
    | some index =>
      refine .inl (still.holds_bind (inExpr value) (fun _ =>
        still.holds_bind (still.holds_typeOf target) fun _ => ?_) state)
      split
      · exact still.holds_bind (inExpr index) fun _ => still.holds_pure _
      · split
        · exact still.holds_bind (inExpr index) fun _ =>
            still.holds_bind (still.holds_reportAny position _) fun _ => still.holds_pure _
        · exact still.holds_bind (still.holds_report _ position) fun _ => still.holds_pure _
    | none =>
      cases compound : operator.isCompound with
      | true =>
        refine .inl (still.holds_bind (inExpr value) (fun type => ?_) state)
        rw [assignTo, compound]
        exact still.holds_bind (still.holds_bind (still.holds_typeOf target) fun _ =>
          still.holds_reportAny position _) fun _ => still.holds_pure _
      | false =>
        let checked := (checkExpr context (infer context active) value : CheckM Ty).run state
        have kept : checked.2.env.table.scopes = state.env.table.scopes := inExpr value state
        have assigned : ((checkStmt context (infer context active)
            (.assign position target none operator value) : CheckM (List Ty)).run state).2.env =
              checked.2.env.assigned target checked.1 := by
          simp only [checkStmt, assignTo, compound]
          rfl
        rw [assigned]
        rcases checked.2.env.scopes_assigned target checked.1 with
          same | ⟨scope, outer, unseen, open_, bound⟩
        · exact .inl (same.trans kept)
        · rw [SymbolTable.locate?_congr kept] at unseen
          rw [kept] at open_
          exact .inr ⟨position, target, operator, value, scope, outer, _, rfl, compound, unseen,
            open_, bound⟩
  | ifElse position conditions thenBody elseBody =>
    exact .inl (still.holds_bind (inConditions conditions) (fun _ =>
      still.holds_bind (ofBranch thenBody) fun _ =>
        still.holds_bind (ofBranch elseBody) fun _ => still.holds_pure _) state)
  | ret position value =>
    cases value with
    | none => exact .inl rfl
    | some value =>
      exact .inl (still.holds_bind (inExpr value) (fun _ => still.holds_pure _) state)
  | push position target value =>
    exact .inl (still_checkPush context active position target value state)
  | loop position body => exact .inl (ofBranch body state)
  | forEach position iterator range body =>
    refine .inl (still_inBranch ?_ state)
    exact growing.rel_bind
      (growing.rel_checkRange (fun _ => rfl) (growing_infer context active) position range)
      fun _ => growing.rel_bind (growing.rel_rebind iterator _) fun _ =>
        growing_checkBody context active body
  | breakWhen position conditions | nextWhen position conditions =>
    exact .inl (still.holds_bind (inConditions conditions) (fun _ => still.holds_pure _) state)

end Scopes

/-- What checking does to the open scopes, in every environment.  A call or a match leaves the stack
as it was, whether it is followed or not.  An expression leaves the same scopes with the same
variables, and the types as well unless it calls a lambda on the spot.  A statement leaves the same
scopes with the same variables, unless it is a plain assignment to a variable that was not visible,
and then it binds that one at the end of the innermost scope.  Below the nearest body, an expression
or a statement only changes variables that a name stands for.  No check leads to an open scope with
a variable that is not in the store. -/
theorem open_scopes_kept (context : Context) (active : List String) (state : State)
    (grounded : state.env.Grounded) :
    (∀ invocation : Invocation,
      let after := ((infer context active invocation : CheckM Ty).run state).2.env
      after.Grounded ∧ after.stack = state.env.stack) ∧
    (∀ expression : Expr,
      let after :=
        ((checkExpr context (infer context active) expression : CheckM Ty).run state).2.env
      after.Grounded ∧ after.table.scopes = state.env.table.scopes ∧
      state.env.KeepsHidden after ∧
      (expression.callsLambda = false → after.stack = state.env.stack)) ∧
    ∀ statement : Stmt,
      let after :=
        ((checkStmt context (infer context active) statement : CheckM (List Ty)).run state).2.env
      after.Grounded ∧ state.env.KeepsHidden after ∧
      (after.table.scopes = state.env.table.scopes ∨
        ∃ position target operator value scope outer location,
          statement = .assign position target none operator value ∧
          operator.isCompound = false ∧ state.env.table.locate? target = none ∧
          state.env.table.scopes = scope :: outer ∧
          after.table.scopes = scope.bind target location :: outer) := by
  have grounds := grounding_infer context active
  have grows := growing_infer context active
  refine ⟨?_, ?_, ?_⟩
  · intro invocation after
    have untouched := untouching_infer context active invocation state
    exact ⟨grounds invocation state grounded, untouched.stack_eq grounded⟩
  · intro expression after
    have grown : state.env.Grows after :=
      growing.rel_checkExpr (fun _ => rfl) grows expression state
    refine ⟨?_, still_checkExpr context active expression state, grown.keepsHidden grounded, ?_⟩
    · exact grounding.rel_checkExpr (fun _ => rfl) grounds expression state grounded
    · intro plain
      exact (untouched_checkExpr context active plain state).stack_eq grounded
  · intro statement after
    have grown : state.env.Grows after :=
      growing.rel_checkStmt (fun _ => rfl) grows statement state
    refine ⟨?_, grown.keepsHidden grounded, scopes_checkStmt context active statement state⟩
    exact grounding.rel_checkStmt (fun _ => rfl) grounds statement state grounded

/-- A lambda called on the spot, inside a branch, gives a captured variable another type.  The scope
of that name in the body below keeps the type it has. -/
theorem open_scopes_kept_around_lambda :
    let env := ((((({} : Environment).opened .body).declared "x" .int).opened .body).declared "x"
      .int).opened .branch
    let capture : Expr := .call (.atLine 1) (.lambda (.atLine 1) []
      [.assign (.atLine 2) "x" none .set (.string (.atLine 2) "s"),
        .assign (.atLine 3) "y" none .set (.var (.atLine 3) "x")]) []
    let after := ((checkExpr ⟨[], [], [], false⟩ (infer ⟨[], [], [], false⟩ []) capture :
      CheckM Ty).run { env := env, sink := .plain }).2.env
    env.Grounded ∧ after.table.scopes = env.table.scopes ∧
      OpenScope.belowBody after.stack = OpenScope.belowBody env.stack ∧
      OpenScope.belowBody env.stack = [⟨0, .body, [("x", .int)]⟩] ∧
      after.stack = [⟨2, .branch, []⟩, ⟨1, .body, [("x", .string)]⟩,
        ⟨0, .body, [("x", .int)]⟩] := by
  intro env capture after
  have grounded : env.Grounded := by decide
  have apart : ∀ location ∈ env.hiddenLocations, location ∉ env.visibleLocations := by decide
  have kept := (open_scopes_kept ⟨[], [], [], false⟩ [] ⟨env, .empty, .plain⟩ grounded).2.1 capture
  refine ⟨grounded, kept.2.1, kept.2.2.1.stack ?_, by decide, by decide⟩
  intro location member exposed
  exact apart location member exposed.mem_visibleLocations

/-- Copies of a scope have their variables in common, so an assignment, also one in a lambda that is
called on the spot, may change a type below the nearest body. -/
theorem hidden_copy_retyped :
    (¬ ∀ (state : State) (statement : Stmt), state.env.Grounded →
      OpenScope.belowBody ((checkStmt ⟨[], [], [], false⟩ (infer ⟨[], [], [], false⟩ []) statement :
        CheckM (List Ty)).run state).2.env.stack = OpenScope.belowBody state.env.stack) ∧
    ¬ ∀ (state : State) (expression : Expr), state.env.Grounded →
      OpenScope.belowBody ((checkExpr ⟨[], [], [], false⟩ (infer ⟨[], [], [], false⟩ [])
        expression : CheckM Ty).run state).2.env.stack = OpenScope.belowBody state.env.stack := by
  let state : State := { env := Environment.reopenedTwice, sink := .plain }
  let assignment : Stmt := .assign (.atLine 1) "x" none .set (.string (.atLine 1) "a")
  refine ⟨fun kept => ?_, fun kept => ?_⟩
  · have same := kept state assignment (by decide)
    exact absurd same (by decide)
  · have same := kept state (.call (.atLine 1) (.lambda (.atLine 1) [] [assignment]) []) (by decide)
    exact absurd same (by decide)

end Inference

end CallSite
