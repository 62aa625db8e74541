import CallSite.Inference.Simulation
import CallSite.Proofs.Inference.Pointers
import CallSite.Proofs.Syntax.Uses

/-!
# Simulations of guarded code

Some relations between two runs hold only for code that keeps away from certain names.  A guarded
simulation says which uses it allows, and what it knows of values.  It holds between the two runs of
every check of code whose uses are allowed, as long as it holds between the two ways to follow the
invocations that such code can reach: those of allowed names, and those through pointers, which lead
to allowed functions as well.
-/

namespace CallSite.Inference

/-- Every pointer in the type leads to a function that may be used. -/
def Within (allows : Use → Prop) (type : Ty) : Prop :=
  type.PointsWithin fun name => allows (.function name)

theorem within_of_all {allows : Use → Prop} (all : ∀ name, allows (.function name)) (type : Ty) :
    Within allows type := by
  induction type with
  | list element ih => exact ih
  | pointer function => exact all function
  | _ => trivial

structure GuardedSimulation (m n : Type → Type) [Monad m] [MonadInfer m] [Monad n]
    [MonadInfer n] where
  allows : Use → Prop
  /-- The two actions are related, and their values have the given property. -/
  rel : {α : Type} → m α → n α → (α → Prop) → Prop
  rel_pure : ∀ {α : Type} {value : α} {post : α → Prop}, post value →
    rel (pure value) (pure value) post
  rel_bind : ∀ {α β : Type} {left : m α} {right : n α} {leftNext : α → m β}
    {rightNext : α → n β} {post : α → Prop} {final : β → Prop}, rel left right post →
      (∀ value, post value → rel (leftNext value) (rightNext value) final) →
      rel (left >>= leftNext) (right >>= rightNext) final
  rel_report : ∀ (problem : Problem) (position : Position),
    rel (report problem position) (report problem position) fun _ => True
  rel_typeOf : ∀ name : String, allows (.var name) →
    rel (typeOf name) (typeOf name) (Within allows)
  /-- Scopes and variables change only in a called lambda or in a declaration that is entered. -/
  rel_declare : allows .lambda → ∀ (name : String) {type : Ty}, Within allows type →
    rel (declare name type) (declare name type) fun _ => True
  rel_assign : allows .lambda → ∀ {name : String} {type : Ty}, allows (.var name) →
    Within allows type → rel (assign name type) (assign name type) fun _ => True
  rel_rebind : allows .lambda → ∀ (name : String) {type : Ty}, Within allows type →
    rel (rebind name type) (rebind name type) fun _ => True
  rel_inBranch : allows .lambda → ∀ {α : Type} {left : m α} {right : n α} {post : α → Prop},
    rel left right post → rel (inBranch left) (inBranch right) post

namespace GuardedSimulation

variable {m n : Type → Type} [Monad m] [MonadInfer m] [Monad n] [MonadInfer n]
  {sim : GuardedSimulation m n}

/-! ## Guards -/

def AllowsAll (sim : GuardedSimulation m n) (uses : List Use) : Prop :=
  ∀ use ∈ uses, sim.allows use

namespace AllowsAll

variable {use : Use} {uses first second : List Use}

theorem head (all : sim.AllowsAll (use :: uses)) : sim.allows use := all use List.mem_cons_self

theorem tail (all : sim.AllowsAll (use :: uses)) : sim.AllowsAll uses :=
  fun other member => all other (List.mem_cons_of_mem use member)

theorem left (all : sim.AllowsAll (first ++ second)) : sim.AllowsAll first :=
  fun other member => all other (List.mem_append_left second member)

theorem right (all : sim.AllowsAll (first ++ second)) : sim.AllowsAll second :=
  fun other member => all other (List.mem_append_right first member)

end AllowsAll

def WithinAll (sim : GuardedSimulation m n) (types : List Ty) : Prop :=
  ∀ type ∈ types, Within sim.allows type

theorem withinAll_nil : sim.WithinAll [] := fun _ member => absurd member List.not_mem_nil

theorem withinAll_cons {type : Ty} {types : List Ty} (head : Within sim.allows type)
    (tail : sim.WithinAll types) : sim.WithinAll (type :: types) :=
  List.forall_mem_cons.mpr ⟨head, tail⟩

theorem withinAll_append {first second : List Ty} (left : sim.WithinAll first)
    (right : sim.WithinAll second) : sim.WithinAll (first ++ second) :=
  List.forall_mem_append.mpr ⟨left, right⟩

/-- Code whose uses are allowed can reach the invocation. -/
def Admits (sim : GuardedSimulation m n) : Invocation → Prop
  | .call name types => sim.allows (.function name) ∧ sim.WithinAll types
  | .matching name type => sim.allows (.pattern name) ∧ Within sim.allows type

/-- The two ways to follow admitted invocations are related. -/
def Follows (sim : GuardedSimulation m n) (enter : Invocation → m Ty)
    (other : Invocation → n Ty) : Prop :=
  ∀ invocation, sim.Admits invocation →
    sim.rel (enter invocation) (other invocation) (Within sim.allows)

/-! ## Checks -/

theorem rel_settle (sim : GuardedSimulation m n) (position : Position)
    {rule : Except Problem Ty} (yields : Yields (fun name => sim.allows (.function name)) rule) :
    sim.rel (settle position rule) (settle position rule) (Within sim.allows) := by
  cases rule with
  | ok type => exact sim.rel_pure (yields type rfl)
  | error problem =>
    exact sim.rel_bind (sim.rel_report problem position) fun _ _ =>
      sim.rel_pure Ty.pointsWithin_unresolved

theorem rel_reportAny (sim : GuardedSimulation m n) (position : Position)
    (found : Option Problem) :
    sim.rel (reportAny position found) (reportAny position found) fun _ => True := by
  cases found with
  | some problem => exact sim.rel_report problem position
  | none => exact sim.rel_pure trivial

variable {context : Context} {enter : Invocation → m Ty} {other : Invocation → n Ty}

theorem rel_callPointer (follows : sim.Follows enter other) {callee : Ty} {types : List Ty}
    (pointed : Within sim.allows callee) (supplied : sim.WithinAll types) :
    sim.rel (callPointer enter callee types) (callPointer other callee types)
      (Within sim.allows) := by
  cases callee with
  | pointer function => exact follows (.call function types) ⟨pointed, supplied⟩
  | _ => exact sim.rel_pure Ty.pointsWithin_unresolved

theorem rel_pushOnto (lambdas : sim.allows .lambda) (position : Position) {target : Expr}
    (allowed : ∀ name, target.varName? = some name → sim.allows (.var name))
    {targetType valueType : Ty} (inTarget : Within sim.allows targetType)
    (inValue : Within sim.allows valueType) :
    sim.rel (pushOnto position target targetType valueType)
      (pushOnto position target targetType valueType) fun _ => True := by
  unfold pushOnto
  split
  · exact sim.rel_report _ position
  · exact sim.rel_pure trivial
  · next refined pushed =>
    split
    · next name isVar =>
      exact sim.rel_assign lambdas (allowed name isVar)
        (pointsWithin_pushRule inTarget inValue pushed)
    · exact sim.rel_pure trivial

theorem rel_assignTo (lambdas : sim.allows .lambda) (position : Position) {target : String}
    (operator : AssignOp) (allowed : sim.allows (.var target)) {valueType : Ty}
    (inValue : Within sim.allows valueType) :
    sim.rel (assignTo position target operator valueType)
      (assignTo position target operator valueType) fun _ => True := by
  unfold assignTo
  split
  · exact sim.rel_bind (sim.rel_typeOf target allowed) fun _ _ => sim.rel_reportAny position _
  · exact sim.rel_assign lambdas allowed inValue

mutual

theorem rel_checkExpr (follows : sim.Follows enter other) : ∀ expression : Expr,
    sim.AllowsAll (expression.uses context.hasFunction) →
    sim.rel (checkExpr context enter expression) (checkExpr context other expression)
      (Within sim.allows)
  | .var _ name, allowed => sim.rel_typeOf name allowed.head
  | .int _ _, _ | .float _ _, _ | .bool _ _, _ | .string _ _, _ | .lambda _ _ _, _ =>
    sim.rel_pure trivial
  | .pointer _ _, allowed => sim.rel_pure allowed.head
  | .list position elements, allowed =>
    sim.rel_bind (rel_checkExprs follows elements allowed) fun _ within =>
      sim.rel_settle position (yields_listRule within)
  | .binary position operator left right, allowed =>
    sim.rel_bind (rel_checkExpr follows left allowed.left) fun _ within =>
      sim.rel_bind (rel_checkExpr follows right allowed.right) fun _ _ =>
        sim.rel_settle position (yields_binaryRule operator _ within)
  | .unary position operator operand, allowed =>
    sim.rel_bind (rel_checkExpr follows operand allowed) fun _ within =>
      sim.rel_settle position (yields_unaryRule operator within)
  | .call _ callee arguments, allowed => by
    cases callee with
    | var place name =>
      refine sim.rel_bind (rel_checkExprs follows arguments allowed.tail) fun types within => ?_
      have callable := allowed.head
      split
      · next declared =>
        rw [if_pos declared] at callable
        exact follows (.call name types) ⟨callable, within⟩
      · next undeclared =>
        rw [if_neg undeclared] at callable
        exact sim.rel_bind (sim.rel_typeOf name callable) fun _ pointed =>
          rel_callPointer follows pointed within
    | lambda place params body =>
      have lambdas := allowed.head
      have inside := allowed.tail
      exact sim.rel_bind (rel_checkExprs follows arguments inside.left) fun types within =>
        sim.rel_bind
          (sim.rel_inBranch lambdas
            (sim.rel_bind
              (rel_bindParams follows lambdas params types inside.right.left within) fun _ _ =>
              rel_checkBody follows lambdas body inside.right.right))
          fun _ returned => sim.rel_settle place (yields_returnRule _ returned)
    | _ =>
      exact sim.rel_bind (rel_checkExprs follows arguments allowed.right) fun types within =>
        sim.rel_bind (rel_checkExpr follows _ allowed.left) fun _ pointed =>
          rel_callPointer follows pointed within
  | .index position target indices, allowed =>
    sim.rel_bind (rel_checkExpr follows target allowed.left) fun _ within =>
      rel_checkIndices follows position within indices allowed.right
  | .append position target values, allowed =>
    sim.rel_bind (rel_checkExpr follows target allowed.left) fun _ within =>
      sim.rel_bind (rel_checkExprs follows values allowed.right) fun _ _ =>
        sim.rel_settle position (yields_appendRule within)
  | .len position operand, allowed =>
    sim.rel_bind (rel_checkExpr follows operand allowed) fun type _ =>
      sim.rel_settle position (yields_lenRule type)
  | .chop _ operand, allowed =>
    sim.rel_bind (rel_checkExpr follows operand allowed) fun _ _ => sim.rel_pure trivial
  | .chomp position operand, allowed =>
    sim.rel_bind (rel_checkExpr follows operand allowed) fun type _ =>
      sim.rel_settle position (yields_chompRule type)
  | .matching _ pattern argument, allowed =>
    sim.rel_bind (rel_checkExpr follows argument allowed.tail) fun type within =>
      follows (.matching pattern type) ⟨allowed.head, within⟩
termination_by structural expression => expression

theorem rel_checkExprs (follows : sim.Follows enter other) : ∀ expressions : List Expr,
    sim.AllowsAll (Expr.usesOfAll context.hasFunction expressions) →
    sim.rel (checkExprs context enter expressions) (checkExprs context other expressions)
      sim.WithinAll
  | [], _ => sim.rel_pure withinAll_nil
  | expression :: expressions, allowed =>
    sim.rel_bind (rel_checkExpr follows expression allowed.left) fun _ head =>
      sim.rel_bind (rel_checkExprs follows expressions allowed.right) fun _ tail =>
        sim.rel_pure (withinAll_cons head tail)
termination_by structural expressions => expressions

theorem rel_checkIndices (follows : sim.Follows enter other) (position : Position) {current : Ty}
    (within : Within sim.allows current) : ∀ indices : List Expr,
    sim.AllowsAll (Expr.usesOfAll context.hasFunction indices) →
    sim.rel (checkIndices context enter position current indices)
      (checkIndices context other position current indices) (Within sim.allows)
  | [], _ => sim.rel_pure within
  | index :: indices, allowed => by
    refine sim.rel_bind (rel_checkExpr follows index allowed.left) fun _ _ =>
      sim.rel_bind (sim.rel_settle position (yields_indexRule within)) fun _ inner => ?_
    split
    · exact rel_checkIndices follows position inner indices allowed.right
    · exact sim.rel_bind (sim.rel_report _ _) fun _ _ => sim.rel_pure trivial
termination_by structural indices => indices

theorem rel_bindParams (follows : sim.Follows enter other) (lambdas : sim.allows .lambda) :
    ∀ (params : List Param) (types : List Ty),
    sim.AllowsAll (Param.uses context.hasFunction params) → sim.WithinAll types →
    sim.rel (bindParams context enter params types) (bindParams context other params types)
      sim.WithinAll
  | [], _, _, _ => sim.rel_pure withinAll_nil
  | ⟨_, none⟩ :: params, type :: types, allowed, within =>
    sim.rel_bind (sim.rel_declare lambdas _ (within type List.mem_cons_self)) fun _ _ =>
      sim.rel_bind
        (rel_bindParams follows lambdas params types allowed (List.forall_mem_cons.mp within).2)
        fun _ rest => sim.rel_pure (withinAll_cons (within type List.mem_cons_self) rest)
  | ⟨_, some _⟩ :: params, type :: types, allowed, within =>
    sim.rel_bind (sim.rel_declare lambdas _ (within type List.mem_cons_self)) fun _ _ =>
      sim.rel_bind
        (rel_bindParams follows lambdas params types allowed.right
          (List.forall_mem_cons.mp within).2)
        fun _ rest => sim.rel_pure (withinAll_cons (within type List.mem_cons_self) rest)
  | ⟨_, some default⟩ :: params, [], allowed, _ =>
    sim.rel_bind (rel_checkExpr follows default allowed.left) fun _ within =>
      sim.rel_bind (sim.rel_declare lambdas _ within) fun _ _ =>
        sim.rel_bind (rel_bindParams follows lambdas params [] allowed.right withinAll_nil)
          fun _ rest => sim.rel_pure (withinAll_cons within rest)
  | ⟨_, none⟩ :: params, [], allowed, _ =>
    sim.rel_bind (sim.rel_declare lambdas _ Ty.pointsWithin_unresolved) fun _ _ =>
      sim.rel_bind (rel_bindParams follows lambdas params [] allowed withinAll_nil)
        fun _ rest => sim.rel_pure (withinAll_cons Ty.pointsWithin_unresolved rest)
termination_by structural params => params

theorem rel_checkRange (follows : sim.Follows enter other) (position : Position) :
    ∀ range : Range, sim.AllowsAll (range.uses context.hasFunction) →
    sim.rel (checkRange context enter position range) (checkRange context other position range)
      (Within sim.allows)
  | .elements values, allowed =>
    sim.rel_bind (rel_checkExprs follows values allowed) fun _ within =>
      sim.rel_bind (sim.rel_settle position (yields_listRule within)) fun _ listed =>
        sim.rel_pure (pointsWithin_element? listed)
  | .value operand, allowed =>
    sim.rel_bind (rel_checkExpr follows operand allowed) fun _ within =>
      sim.rel_settle position (yields_iterateRule within)
  | .span first last, allowed =>
    sim.rel_bind (rel_checkExpr follows first allowed.left) fun _ _ =>
      sim.rel_bind (rel_checkExpr follows last allowed.right) fun _ _ =>
        sim.rel_settle position (yields_spanRule _ _)
termination_by structural range => range

theorem rel_checkConditions (follows : sim.Follows enter other) : ∀ conditions : List Expr,
    sim.AllowsAll (Expr.usesOfAll context.hasFunction conditions) →
    sim.rel (checkConditions context enter conditions) (checkConditions context other conditions)
      fun _ => True
  | [], _ => sim.rel_pure trivial
  | condition :: conditions, allowed =>
    sim.rel_bind (rel_checkExpr follows condition allowed.left) fun _ _ =>
      sim.rel_bind (sim.rel_reportAny _ _) fun _ _ =>
        rel_checkConditions follows conditions allowed.right
termination_by structural conditions => conditions

theorem rel_checkStmt (follows : sim.Follows enter other) (lambdas : sim.allows .lambda) :
    ∀ statement : Stmt, sim.AllowsAll (statement.uses context.hasFunction) →
    sim.rel (checkStmt context enter statement) (checkStmt context other statement) sim.WithinAll
  | .expr _ value, allowed | .put _ value, allowed =>
    sim.rel_bind (rel_checkExpr follows value allowed) fun _ _ => sim.rel_pure withinAll_nil
  | .assign position target none operator value, allowed =>
    sim.rel_bind (rel_checkExpr follows value allowed.tail) fun _ within =>
      sim.rel_bind (rel_assignTo lambdas position operator allowed.head within) fun _ _ =>
        sim.rel_pure withinAll_nil
  | .assign position target (some index) operator value, allowed => by
    refine sim.rel_bind (rel_checkExpr follows value allowed.tail.left) fun _ _ =>
      sim.rel_bind (sim.rel_typeOf target allowed.head) fun _ _ => ?_
    split
    · exact sim.rel_bind (rel_checkExpr follows index allowed.tail.right) fun _ _ =>
        sim.rel_pure withinAll_nil
    · split
      · exact sim.rel_bind (rel_checkExpr follows index allowed.tail.right) fun _ _ =>
          sim.rel_bind (sim.rel_reportAny position _) fun _ _ => sim.rel_pure withinAll_nil
      · exact sim.rel_bind (sim.rel_report _ position) fun _ _ => sim.rel_pure withinAll_nil
  | .ifElse _ conditions thenBody elseBody, allowed =>
    sim.rel_bind (rel_checkConditions follows conditions allowed.left) fun _ _ =>
      sim.rel_bind
        (sim.rel_inBranch lambdas (rel_checkBody follows lambdas thenBody allowed.right.left))
        fun _ first =>
          sim.rel_bind
            (sim.rel_inBranch lambdas
              (rel_checkBody follows lambdas elseBody allowed.right.right))
            fun _ second => sim.rel_pure (withinAll_append first second)
  | .ret _ none, _ => sim.rel_pure (withinAll_cons trivial withinAll_nil)
  | .ret _ (some value), allowed =>
    sim.rel_bind (rel_checkExpr follows value allowed) fun _ within =>
      sim.rel_pure (withinAll_cons within withinAll_nil)
  | .push position target value, allowed => by
    refine sim.rel_bind (rel_checkExpr follows target allowed.left) fun _ inTarget =>
      sim.rel_bind (rel_checkExpr follows value allowed.right) fun _ inValue =>
        sim.rel_bind (rel_pushOnto lambdas position ?_ inTarget inValue) fun _ _ =>
          sim.rel_pure withinAll_nil
    intro name isVar
    cases target with
    | var place other =>
      cases isVar
      exact allowed.left.head
    | _ => cases isVar
  | .loop _ body, allowed => sim.rel_inBranch lambdas (rel_checkBody follows lambdas body allowed)
  | .forEach position iterator range body, allowed =>
    sim.rel_inBranch lambdas
      (sim.rel_bind (rel_checkRange follows position range allowed.left) fun _ within =>
        sim.rel_bind (sim.rel_rebind lambdas iterator within) fun _ _ =>
          rel_checkBody follows lambdas body allowed.right)
  | .breakWhen _ conditions, allowed | .nextWhen _ conditions, allowed =>
    sim.rel_bind (rel_checkConditions follows conditions allowed) fun _ _ =>
      sim.rel_pure withinAll_nil
termination_by structural statement => statement

theorem rel_checkBody (follows : sim.Follows enter other) (lambdas : sim.allows .lambda) :
    ∀ statements : List Stmt, sim.AllowsAll (Stmt.usesOfAll context.hasFunction statements) →
    sim.rel (checkBody context enter statements) (checkBody context other statements)
      sim.WithinAll
  | [], _ => sim.rel_pure withinAll_nil
  | statement :: statements, allowed =>
    sim.rel_bind (rel_checkStmt follows lambdas statement allowed.left) fun _ first =>
      sim.rel_bind (rel_checkBody follows lambdas statements allowed.right) fun _ rest =>
        sim.rel_pure (withinAll_append first rest)
termination_by structural statements => statements

end

/-! ## Declarations -/

theorem rel_checkFunction (follows : sim.Follows enter other) (lambdas : sim.allows .lambda)
    {function : Function} (allowed : sim.AllowsAll (function.uses context.hasFunction))
    {types : List Ty} (within : sim.WithinAll types) :
    sim.rel (checkFunction context enter function types)
      (checkFunction context other function types)
      fun result => Within sim.allows result.2 :=
  sim.rel_bind (rel_bindParams follows lambdas function.params types allowed.left within)
    fun _ _ =>
      sim.rel_bind (rel_checkBody follows lambdas function.body allowed.right) fun _ returned =>
        sim.rel_bind (sim.rel_settle function.position (yields_returnRule _ returned))
          fun _ agreed => sim.rel_pure agreed

theorem rel_checkCases (follows : sim.Follows enter other) {conditions : List Expr}
    (allowed : sim.AllowsAll (Expr.usesOfAll context.hasFunction conditions)) :
    sim.rel (checkCases context enter conditions) (checkCases context other conditions)
      fun _ => True := by
  induction conditions with
  | nil => exact sim.rel_pure trivial
  | cons condition conditions ih =>
    refine sim.rel_bind (rel_checkExpr follows condition allowed.left) fun _ _ => ?_
    split
    · exact ih allowed.right
    · exact sim.rel_bind (sim.rel_report _ _) fun _ _ => sim.rel_pure trivial

theorem rel_checkPattern (follows : sim.Follows enter other) (lambdas : sim.allows .lambda)
    {pattern : Pattern} (allowed : sim.AllowsAll (pattern.uses context.hasFunction)) {type : Ty}
    (within : Within sim.allows type) :
    sim.rel (checkPattern context enter pattern type) (checkPattern context other pattern type)
      (Within sim.allows) := by
  refine sim.rel_bind (sim.rel_declare lambdas _ within) fun _ _ =>
    sim.rel_bind (rel_checkCases follows allowed.left) fun _ _ => ?_
  split
  · exact sim.rel_bind (rel_checkExprs follows pattern.returns allowed.right) fun _ returned =>
      sim.rel_settle pattern.position (yields_returnRule _ returned)
  · exact sim.rel_pure trivial

/-- The two ways to follow are related where the same admitted names are refused, and what is entered
is related. -/
theorem follows_follow {active otherActive : List String}
    (refusals : ∀ invocation, sim.Admits invocation →
      context.refuses active invocation.name = context.refuses otherActive invocation.name)
    {enter : List String → Invocation → m Ty} {other : List String → Invocation → n Ty}
    (calls : ∀ {name function types}, context.function? name = some function →
      context.refuses active name = false → sim.Admits (.call name types) →
      sim.rel (enterFunction context (enter (name :: active)) function types)
        (enterFunction context (other (name :: otherActive)) function types) (Within sim.allows))
    (matchings : ∀ {name pattern type}, context.pattern? name = some pattern →
      context.refuses active name = false → sim.Admits (.matching name type) →
      sim.rel (enterPattern context (enter (name :: active)) pattern type)
        (enterPattern context (other (name :: otherActive)) pattern type) (Within sim.allows)) :
    sim.Follows (follow context enter active) (follow context other otherActive) := by
  intro invocation admitted
  have unresolved : sim.rel (pure Ty.unresolved) (pure Ty.unresolved) (Within sim.allows) :=
    sim.rel_pure Ty.pointsWithin_unresolved
  unfold follow
  rw [← refusals invocation admitted]
  cases refused : context.refuses active invocation.name with
  | true => exact unresolved
  | false =>
    cases invocation with
    | call name types =>
      cases found : context.function? name with
      | none => simpa [found] using unresolved
      | some function => simpa [found] using calls found refused admitted
    | matching name type =>
      cases found : context.pattern? name with
      | none => simpa [found] using unresolved
      | some pattern => simpa [found] using matchings found refused admitted

end GuardedSimulation

end CallSite.Inference
