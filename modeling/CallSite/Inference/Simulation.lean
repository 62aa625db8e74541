import CallSite.Inference.Call

/-!
# Simulations

A simulation relates actions of two monads with the effects of inference.  It holds between equal
results, is kept by sequencing and holds between the two forms of each effect; of reports, only
those that are about types matter, since no check makes another one.  A simulation of bodies knows
the effects that a body has on its own scopes; then it holds between the two runs of every check, as
long as it holds between the two ways to follow an invocation.  A full simulation also knows how a
declaration is entered, and so it holds between the two ways to follow.
-/

namespace CallSite.Inference

structure BodySimulation (m n : Type → Type) [Monad m] [MonadInfer m] [Monad n]
    [MonadInfer n] where
  rel : {α : Type} → m α → n α → Prop
  rel_pure : ∀ {α : Type} (value : α), rel (pure value) (pure value)
  rel_bind : ∀ {α β : Type} {left : m α} {right : n α} {leftNext : α → m β}
    {rightNext : α → n β}, rel left right → (∀ value, rel (leftNext value) (rightNext value)) →
      rel (left >>= leftNext) (right >>= rightNext)
  rel_report : ∀ (problem : Problem) (position : Position), problem.category = .typing →
    rel (report problem position) (report problem position)
  rel_typeOf : ∀ name : String, rel (typeOf name) (typeOf name)
  rel_declare : ∀ (name : String) (type : Ty), rel (declare name type) (declare name type)
  rel_assign : ∀ (name : String) (type : Ty), rel (assign name type) (assign name type)
  rel_rebind : ∀ (name : String) (type : Ty), rel (rebind name type) (rebind name type)
  rel_inBranch : ∀ {α : Type} {left : m α} {right : n α}, rel left right →
    rel (inBranch left) (inBranch right)

structure Simulation (m n : Type → Type) [Monad m] [MonadInfer m] [Monad n] [MonadInfer n]
    extends BodySimulation m n where
  rel_inCall : ∀ (function : String) {left : m (List Ty × Ty)} {right : n (List Ty × Ty)},
    rel left right → rel (inCall function left) (inCall function right)
  rel_inMatch : ∀ (pattern : String) (type : Ty) {left : m Ty} {right : n Ty}, rel left right →
    rel (inMatch pattern type left) (inMatch pattern type right)
  rel_inMain : ∀ {left : m Unit} {right : n Unit}, rel left right →
    rel (inMain left) (inMain right)

namespace BodySimulation

variable {m n : Type → Type} [Monad m] [MonadInfer m] [Monad n] [MonadInfer n]

theorem rel_settle (sim : BodySimulation m n) (position : Position) {rule : Except Problem Ty}
    (typing : FindsTyping rule) :
    sim.rel (settle position rule) (settle position rule) := by
  cases rule with
  | ok type => exact sim.rel_pure type
  | error problem =>
    exact sim.rel_bind (sim.rel_report problem position (typing problem rfl)) fun _ =>
      sim.rel_pure _

theorem rel_reportAny (sim : BodySimulation m n) (position : Position) {found : Option Problem}
    (typing : ∀ problem ∈ found, problem.category = .typing) :
    sim.rel (reportAny position found) (reportAny position found) := by
  cases found with
  | some problem => exact sim.rel_report problem position (typing problem rfl)
  | none => exact sim.rel_pure ()

theorem rel_callPointer (sim : BodySimulation m n) {enter : Invocation → m Ty}
    {other : Invocation → n Ty}
    (entered : ∀ invocation, sim.rel (enter invocation) (other invocation))
    (callee : Ty) (types : List Ty) :
    sim.rel (callPointer enter callee types) (callPointer other callee types) := by
  cases callee with
  | pointer function => exact entered _
  | _ => exact sim.rel_pure _

theorem rel_pushOnto (sim : BodySimulation m n) (position : Position) (target : Expr)
    (targetType valueType : Ty) :
    sim.rel (pushOnto position target targetType valueType)
      (pushOnto position target targetType valueType) := by
  unfold pushOnto
  split
  · next problem found =>
    exact sim.rel_report problem position (findsTyping_pushRule targetType valueType problem found)
  · exact sim.rel_pure ()
  · split
    · exact sim.rel_assign _ _
    · exact sim.rel_pure ()

theorem rel_assignTo (sim : BodySimulation m n) (position : Position) (target : String)
    (operator : AssignOp) (valueType : Ty) :
    sim.rel (assignTo position target operator valueType)
      (assignTo position target operator valueType) := by
  unfold assignTo
  split
  · exact sim.rel_bind (sim.rel_typeOf target) fun _ =>
      sim.rel_reportAny position fun _ => typing_of_compoundRule
  · exact sim.rel_assign target valueType

mutual

theorem rel_checkExpr (sim : BodySimulation m n) {context another : Context}
    (known : ∀ name, context.hasFunction name = another.hasFunction name)
    {enter : Invocation → m Ty} {other : Invocation → n Ty}
    (entered : ∀ invocation, sim.rel (enter invocation) (other invocation)) :
    ∀ expression : Expr,
      sim.rel (checkExpr context enter expression) (checkExpr another other expression)
  | .var _ name => sim.rel_typeOf name
  | .int _ _ | .float _ _ | .bool _ _ | .string _ _ | .pointer _ _ | .lambda _ _ _ =>
    sim.rel_pure _
  | .list position elements =>
    sim.rel_bind (sim.rel_checkExprs known entered elements) fun _ =>
      sim.rel_settle position (findsTyping_listRule _)
  | .binary position _ left right =>
    sim.rel_bind (sim.rel_checkExpr known entered left) fun _ =>
      sim.rel_bind (sim.rel_checkExpr known entered right) fun _ =>
        sim.rel_settle position (findsTyping_binaryRule _ _ _)
  | .unary position _ operand =>
    sim.rel_bind (sim.rel_checkExpr known entered operand) fun _ =>
      sim.rel_settle position (findsTyping_unaryRule _ _)
  | .len position operand =>
    sim.rel_bind (sim.rel_checkExpr known entered operand) fun _ =>
      sim.rel_settle position (findsTyping_lenRule _)
  | .chomp position operand =>
    sim.rel_bind (sim.rel_checkExpr known entered operand) fun _ =>
      sim.rel_settle position (findsTyping_chompRule _)
  | .call _ callee arguments => by
    have related := sim.rel_checkExprs known entered arguments
    cases callee with
    | var place name =>
      refine sim.rel_bind related fun types => ?_
      rw [known name]
      split
      · exact entered _
      · exact sim.rel_bind (sim.rel_typeOf name) fun _ => sim.rel_callPointer entered _ types
    | lambda place params body =>
      exact sim.rel_bind related fun types =>
        sim.rel_bind
          (sim.rel_inBranch
            (sim.rel_bind (sim.rel_bindParams known entered params types) fun _ =>
              sim.rel_checkBody known entered body))
          fun _ => sim.rel_settle place (findsTyping_returnRule rfl _)
    | _ =>
      exact sim.rel_bind related fun types =>
        sim.rel_bind (sim.rel_checkExpr known entered _) fun _ =>
          sim.rel_callPointer entered _ types
  | .index position target indices =>
    sim.rel_bind (sim.rel_checkExpr known entered target) fun type =>
      sim.rel_checkIndices known entered position type indices
  | .append position target values =>
    sim.rel_bind (sim.rel_checkExpr known entered target) fun _ =>
      sim.rel_bind (sim.rel_checkExprs known entered values) fun _ =>
        sim.rel_settle position (findsTyping_appendRule _)
  | .chop _ operand =>
    sim.rel_bind (sim.rel_checkExpr known entered operand) fun _ => sim.rel_pure _
  | .matching _ _ argument =>
    sim.rel_bind (sim.rel_checkExpr known entered argument) fun _ => entered _
termination_by structural expression => expression

theorem rel_checkExprs (sim : BodySimulation m n) {context another : Context}
    (known : ∀ name, context.hasFunction name = another.hasFunction name)
    {enter : Invocation → m Ty} {other : Invocation → n Ty}
    (entered : ∀ invocation, sim.rel (enter invocation) (other invocation)) :
    ∀ expressions : List Expr,
      sim.rel (checkExprs context enter expressions) (checkExprs another other expressions)
  | [] => sim.rel_pure _
  | expression :: expressions =>
    sim.rel_bind (sim.rel_checkExpr known entered expression) fun _ =>
      sim.rel_bind (sim.rel_checkExprs known entered expressions) fun _ => sim.rel_pure _
termination_by structural expressions => expressions

theorem rel_checkIndices (sim : BodySimulation m n) {context another : Context}
    (known : ∀ name, context.hasFunction name = another.hasFunction name)
    {enter : Invocation → m Ty} {other : Invocation → n Ty}
    (entered : ∀ invocation, sim.rel (enter invocation) (other invocation))
    (position : Position) (current : Ty) :
    ∀ indices : List Expr,
      sim.rel (checkIndices context enter position current indices)
        (checkIndices another other position current indices)
  | [] => sim.rel_pure _
  | index :: indices => by
    refine sim.rel_bind (sim.rel_checkExpr known entered index) fun _ =>
      sim.rel_bind (sim.rel_settle position (findsTyping_indexRule current)) fun next => ?_
    split
    · exact sim.rel_checkIndices known entered position next indices
    · exact sim.rel_bind (sim.rel_report _ _ rfl) fun _ => sim.rel_pure _
termination_by structural indices => indices

theorem rel_bindParams (sim : BodySimulation m n) {context another : Context}
    (known : ∀ name, context.hasFunction name = another.hasFunction name)
    {enter : Invocation → m Ty} {other : Invocation → n Ty}
    (entered : ∀ invocation, sim.rel (enter invocation) (other invocation)) :
    ∀ (params : List Param) (types : List Ty),
      sim.rel (bindParams context enter params types) (bindParams another other params types)
  | [], _ => sim.rel_pure _
  | ⟨_, _⟩ :: params, _ :: types =>
    sim.rel_bind (sim.rel_declare _ _) fun _ =>
      sim.rel_bind (sim.rel_bindParams known entered params types) fun _ => sim.rel_pure _
  | ⟨_, some default⟩ :: params, [] =>
    sim.rel_bind (sim.rel_checkExpr known entered default) fun _ =>
      sim.rel_bind (sim.rel_declare _ _) fun _ =>
        sim.rel_bind (sim.rel_bindParams known entered params []) fun _ => sim.rel_pure _
  | ⟨_, none⟩ :: params, [] =>
    sim.rel_bind (sim.rel_declare _ _) fun _ =>
      sim.rel_bind (sim.rel_bindParams known entered params []) fun _ => sim.rel_pure _
termination_by structural params => params

theorem rel_checkRange (sim : BodySimulation m n) {context another : Context}
    (known : ∀ name, context.hasFunction name = another.hasFunction name)
    {enter : Invocation → m Ty} {other : Invocation → n Ty}
    (entered : ∀ invocation, sim.rel (enter invocation) (other invocation))
    (position : Position) :
    ∀ range : Range,
      sim.rel (checkRange context enter position range) (checkRange another other position range)
  | .elements values =>
    sim.rel_bind (sim.rel_checkExprs known entered values) fun _ =>
      sim.rel_bind (sim.rel_settle position (findsTyping_listRule _)) fun _ => sim.rel_pure _
  | .value operand =>
    sim.rel_bind (sim.rel_checkExpr known entered operand) fun _ =>
      sim.rel_settle position (findsTyping_iterateRule _)
  | .span first last =>
    sim.rel_bind (sim.rel_checkExpr known entered first) fun _ =>
      sim.rel_bind (sim.rel_checkExpr known entered last) fun _ =>
        sim.rel_settle position (findsTyping_spanRule _ _)
termination_by structural range => range

theorem rel_checkConditions (sim : BodySimulation m n) {context another : Context}
    (known : ∀ name, context.hasFunction name = another.hasFunction name)
    {enter : Invocation → m Ty} {other : Invocation → n Ty}
    (entered : ∀ invocation, sim.rel (enter invocation) (other invocation)) :
    ∀ conditions : List Expr,
      sim.rel (checkConditions context enter conditions) (checkConditions another other conditions)
  | [] => sim.rel_pure _
  | condition :: conditions =>
    sim.rel_bind (sim.rel_checkExpr known entered condition) fun _ =>
      sim.rel_bind (sim.rel_reportAny _ fun _ => typing_of_conditionRule) fun _ =>
        sim.rel_checkConditions known entered conditions
termination_by structural conditions => conditions

theorem rel_checkStmt (sim : BodySimulation m n) {context another : Context}
    (known : ∀ name, context.hasFunction name = another.hasFunction name)
    {enter : Invocation → m Ty} {other : Invocation → n Ty}
    (entered : ∀ invocation, sim.rel (enter invocation) (other invocation)) :
    ∀ statement : Stmt,
      sim.rel (checkStmt context enter statement) (checkStmt another other statement)
  | .expr _ value | .put _ value | .ret _ (some value) =>
    sim.rel_bind (sim.rel_checkExpr known entered value) fun _ => sim.rel_pure _
  | .assign position target none operator value =>
    sim.rel_bind (sim.rel_checkExpr known entered value) fun type =>
      sim.rel_bind (sim.rel_assignTo position target operator type) fun _ => sim.rel_pure _
  | .assign position target (some index) operator value => by
    refine sim.rel_bind (sim.rel_checkExpr known entered value) fun _ =>
      sim.rel_bind (sim.rel_typeOf target) fun _ => ?_
    split
    · exact sim.rel_bind (sim.rel_checkExpr known entered index) fun _ => sim.rel_pure _
    · split
      · exact sim.rel_bind (sim.rel_checkExpr known entered index) fun _ =>
          sim.rel_bind (sim.rel_reportAny position fun _ => typing_of_storeRule) fun _ =>
            sim.rel_pure _
      · exact sim.rel_bind (sim.rel_report _ position rfl) fun _ => sim.rel_pure _
  | .ifElse _ conditions thenBody elseBody =>
    sim.rel_bind (sim.rel_checkConditions known entered conditions) fun _ =>
      sim.rel_bind (sim.rel_inBranch (sim.rel_checkBody known entered thenBody)) fun _ =>
        sim.rel_bind (sim.rel_inBranch (sim.rel_checkBody known entered elseBody)) fun _ =>
          sim.rel_pure _
  | .ret _ none => sim.rel_pure _
  | .push position target value =>
    sim.rel_bind (sim.rel_checkExpr known entered target) fun _ =>
      sim.rel_bind (sim.rel_checkExpr known entered value) fun _ =>
        sim.rel_bind (sim.rel_pushOnto position target _ _) fun _ => sim.rel_pure _
  | .loop _ body => sim.rel_inBranch (sim.rel_checkBody known entered body)
  | .forEach position iterator range body =>
    sim.rel_inBranch
      (sim.rel_bind (sim.rel_checkRange known entered position range) fun _ =>
        sim.rel_bind (sim.rel_rebind iterator _) fun _ => sim.rel_checkBody known entered body)
  | .breakWhen _ conditions | .nextWhen _ conditions =>
    sim.rel_bind (sim.rel_checkConditions known entered conditions) fun _ => sim.rel_pure _
termination_by structural statement => statement

theorem rel_checkBody (sim : BodySimulation m n) {context another : Context}
    (known : ∀ name, context.hasFunction name = another.hasFunction name)
    {enter : Invocation → m Ty} {other : Invocation → n Ty}
    (entered : ∀ invocation, sim.rel (enter invocation) (other invocation)) :
    ∀ statements : List Stmt,
      sim.rel (checkBody context enter statements) (checkBody another other statements)
  | [] => sim.rel_pure _
  | statement :: statements =>
    sim.rel_bind (sim.rel_checkStmt known entered statement) fun _ =>
      sim.rel_bind (sim.rel_checkBody known entered statements) fun _ => sim.rel_pure _
termination_by structural statements => statements

end

section Enter

variable (sim : BodySimulation m n) {context another : Context}
  (known : ∀ name, context.hasFunction name = another.hasFunction name)
  {enter : Invocation → m Ty} {other : Invocation → n Ty}
  (entered : ∀ invocation, sim.rel (enter invocation) (other invocation))

include known entered

theorem rel_checkFunction (function : Function) (types : List Ty) :
    sim.rel (checkFunction context enter function types)
      (checkFunction another other function types) :=
  sim.rel_bind (sim.rel_bindParams known entered function.params types) fun _ =>
    sim.rel_bind (sim.rel_checkBody known entered function.body) fun _ =>
      sim.rel_bind (sim.rel_settle function.position (findsTyping_returnRule rfl _)) fun _ =>
        sim.rel_pure _

theorem rel_checkCases (conditions : List Expr) :
    sim.rel (checkCases context enter conditions) (checkCases another other conditions) := by
  induction conditions with
  | nil => exact sim.rel_pure true
  | cons condition conditions ih =>
    refine sim.rel_bind (sim.rel_checkExpr known entered condition) fun _ => ?_
    split
    · exact ih
    · exact sim.rel_bind (sim.rel_report _ _ rfl) fun _ => sim.rel_pure _

theorem rel_checkPattern (pattern : Pattern) (type : Ty) :
    sim.rel (checkPattern context enter pattern type)
      (checkPattern another other pattern type) := by
  refine sim.rel_bind (sim.rel_declare _ type) fun _ => ?_
  refine sim.rel_bind (sim.rel_checkCases known entered pattern.conditions) fun _ => ?_
  split
  · exact sim.rel_bind (sim.rel_checkExprs known entered pattern.returns) fun _ =>
      sim.rel_settle pattern.position (findsTyping_returnRule rfl _)
  · exact sim.rel_pure _

theorem rel_checkLambda (position : Position) (params : List Param) (body : List Stmt)
    (types : List Ty) :
    sim.rel (checkLambda context enter position params body types)
      (checkLambda another other position params body types) :=
  sim.rel_bind
    (sim.rel_inBranch
      (sim.rel_bind (sim.rel_bindParams known entered params types) fun _ =>
        sim.rel_checkBody known entered body))
    fun _ => sim.rel_settle position (findsTyping_returnRule rfl _)

end Enter

/-- Two ways to follow an invocation are related when both refuse the same names and the two ways
to enter a declaration that is not refused are. -/
theorem rel_follow (sim : BodySimulation m n) {context another : Context}
    (functions : ∀ name, context.function? name = another.function? name)
    (patterns : ∀ name, context.pattern? name = another.pattern? name)
    {active otherActive : List String}
    (refusals : ∀ name, context.refuses active name = another.refuses otherActive name)
    {enter : List String → Invocation → m Ty} {other : List String → Invocation → n Ty}
    (calls : ∀ {name function} types, context.function? name = some function →
      context.refuses active name = false →
      sim.rel (enterFunction context (enter (name :: active)) function types)
        (enterFunction another (other (name :: otherActive)) function types))
    (matchings : ∀ {name pattern} type, context.pattern? name = some pattern →
      context.refuses active name = false →
      sim.rel (enterPattern context (enter (name :: active)) pattern type)
        (enterPattern another (other (name :: otherActive)) pattern type))
    (invocation : Invocation) :
    sim.rel (follow context enter active invocation)
      (follow another other otherActive invocation) := by
  unfold follow
  rw [← refusals invocation.name]
  cases refused : context.refuses active invocation.name with
  | true => exact sim.rel_pure _
  | false =>
    cases invocation with
    | call name types =>
      cases found : context.function? name with
      | none => simpa [found, ← functions] using sim.rel_pure Ty.unresolved
      | some function => simpa [found, ← functions] using calls types found refused
    | matching name type =>
      cases found : context.pattern? name with
      | none => simpa [found, ← patterns] using sim.rel_pure Ty.unresolved
      | some pattern => simpa [found, ← patterns] using matchings type found refused

end BodySimulation

namespace Simulation

variable {m n : Type → Type} [Monad m] [MonadInfer m] [Monad n] [MonadInfer n]

theorem rel_checkMain (sim : Simulation m n) (context : Context) {enter : Invocation → m Ty}
    {other : Invocation → n Ty}
    (entered : ∀ invocation, sim.rel (enter invocation) (other invocation)) (body : List Stmt) :
    sim.rel (checkMain context enter body) (checkMain context other body) :=
  sim.rel_inMain
    (sim.rel_bind (sim.rel_checkBody (fun _ => rfl) entered body) fun _ => sim.rel_pure _)

theorem rel_inferWithin (sim : Simulation m n) (context : Context) (depth : Nat)
    (active : List String) (invocation : Invocation) :
    sim.rel (inferWithin context depth active invocation)
      (inferWithin context depth active invocation) := by
  induction depth generalizing active invocation with
  | zero => exact sim.rel_pure _
  | succ depth ih =>
    refine sim.rel_follow (fun _ => rfl) (fun _ => rfl) (fun _ => rfl) ?_ ?_ invocation
    · intro name function types _ _
      exact sim.rel_inCall _ (sim.rel_checkFunction (fun _ => rfl) (ih _) function types)
    · intro name pattern type _ _
      exact sim.rel_inMatch _ type (sim.rel_checkPattern (fun _ => rfl) (ih _) pattern type)

/-- Two monads in simulation follow every invocation alike. -/
theorem rel_infer (sim : Simulation m n) (context : Context) (active : List String)
    (invocation : Invocation) :
    sim.rel (infer context active invocation) (infer context active invocation) :=
  sim.rel_inferWithin context _ active invocation

end Simulation

end CallSite.Inference
