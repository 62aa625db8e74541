import CallSite.Inference.Call

/-!
# What an expression can do

Where no lambda is called on the spot, the check of an expression only reports, looks up variables
and follows invocations.  So a property of actions that is kept by sequencing, and that reports,
lookups and followed invocations have, holds of the check of every such expression.  With called
lambdas it holds if it holds of those.
-/

namespace CallSite

mutual

/-- A lambda is called on the spot, outside the bodies of other lambdas. -/
def Expr.callsLambda : Expr → Bool
  | .var _ _ | .int _ _ | .float _ _ | .bool _ _ | .string _ _ | .pointer _ _
  | .lambda _ _ _ => false
  | .list _ elements => Expr.anyCallsLambda elements
  | .binary _ _ left right => left.callsLambda || right.callsLambda
  | .unary _ _ operand | .len _ operand | .chop _ operand | .chomp _ operand
  | .matching _ _ operand => operand.callsLambda
  | .call _ (.lambda _ _ _) _ => true
  | .call _ callee arguments => callee.callsLambda || Expr.anyCallsLambda arguments
  | .index _ target indices => target.callsLambda || Expr.anyCallsLambda indices
  | .append _ target values => target.callsLambda || Expr.anyCallsLambda values
termination_by structural expression => expression

def Expr.anyCallsLambda : List Expr → Bool
  | [] => false
  | expression :: expressions => expression.callsLambda || Expr.anyCallsLambda expressions
termination_by structural expressions => expressions

end

theorem Expr.callsLambda_call (position : Position) {callee : Expr} {arguments : List Expr}
    (calls : (callee.callsLambda || Expr.anyCallsLambda arguments) = true) :
    (Expr.call position callee arguments).callsLambda = true := by
  cases callee with
  | lambda place params body => rfl
  | _ => exact calls

namespace Inference

/-- A property of actions that sequences keep and that reports and lookups have. -/
structure ExprInvariant (m : Type → Type) [Monad m] [MonadInfer m] where
  holds : {α : Type} → m α → Prop
  holds_pure : ∀ {α : Type} (value : α), holds (pure value)
  holds_bind : ∀ {α β : Type} {action : m α} {next : α → m β}, holds action →
    (∀ value, holds (next value)) → holds (action >>= next)
  holds_report : ∀ (problem : Problem) (position : Position), holds (report problem position)
  holds_typeOf : ∀ name : String, holds (typeOf name)

namespace ExprInvariant

variable {m : Type → Type} [Monad m] [MonadInfer m] (property : ExprInvariant m)

theorem holds_reportAny (position : Position) (problem : Option Problem) :
    property.holds (reportAny position problem) := by
  cases problem with
  | none => exact property.holds_pure ()
  | some problem => exact property.holds_report problem position

theorem holds_settle (position : Position) (outcome : Except Problem Ty) :
    property.holds (settle position outcome) := by
  cases outcome with
  | ok type => exact property.holds_pure type
  | error problem =>
    exact property.holds_bind (property.holds_report problem position) fun _ =>
      property.holds_pure _

variable {context : Context} {enter : Invocation → m Ty}

theorem holds_callPointer (entered : ∀ invocation, property.holds (enter invocation))
    (callee : Ty) (types : List Ty) : property.holds (callPointer enter callee types) := by
  cases callee with
  | pointer function => exact entered _
  | _ => exact property.holds_pure _

mutual

theorem holds_checkExpr (entered : ∀ invocation, property.holds (enter invocation)) :
    ∀ expression : Expr,
      (expression.callsLambda = true → ∀ position params body types,
        property.holds (checkLambda context enter position params body types)) →
      property.holds (checkExpr context enter expression)
  | .var _ name, _ => property.holds_typeOf name
  | .int _ _, _ | .float _ _, _ | .bool _ _, _ | .string _ _, _ | .pointer _ _, _
  | .lambda _ _ _, _ => property.holds_pure _
  | .list position elements, lambdas =>
    property.holds_bind (holds_checkExprs entered elements lambdas) fun _ =>
      property.holds_settle position _
  | .binary position _ left right, lambdas => by
    have inLeft := holds_checkExpr entered left fun calls =>
      lambdas (by simp [Expr.callsLambda, calls])
    have inRight := holds_checkExpr entered right fun calls =>
      lambdas (by simp [Expr.callsLambda, calls])
    exact property.holds_bind inLeft fun _ => property.holds_bind inRight fun _ =>
      property.holds_settle position _
  | .unary position _ operand, lambdas | .len position operand, lambdas
  | .chomp position operand, lambdas =>
    property.holds_bind (holds_checkExpr entered operand lambdas) fun _ =>
      property.holds_settle position _
  | .call _ callee arguments, lambdas => by
    cases callee with
    | lambda place params body =>
      have calls := lambdas rfl
      have inArguments := holds_checkExprs entered arguments fun _ => calls
      exact property.holds_bind inArguments fun types => calls place params body types
    | var place name =>
      have inArguments := holds_checkExprs entered arguments lambdas
      refine property.holds_bind inArguments fun types => ?_
      split
      · exact entered _
      · exact property.holds_bind (property.holds_typeOf name) fun _ =>
          property.holds_callPointer entered _ types
    | _ =>
      have inArguments := holds_checkExprs entered arguments fun calls =>
        lambdas (Expr.callsLambda_call _ (by simp [calls]))
      refine property.holds_bind inArguments fun types => property.holds_bind
        (holds_checkExpr entered _ fun calls => ?_) fun _ =>
          property.holds_callPointer entered _ types
      exact lambdas (Expr.callsLambda_call _ (by simp [calls]))
  | .index position target indices, lambdas => by
    have inTarget := holds_checkExpr entered target fun calls =>
      lambdas (by simp [Expr.callsLambda, calls])
    have inIndices type := holds_checkIndices entered position type indices fun calls =>
      lambdas (by simp [Expr.callsLambda, calls])
    exact property.holds_bind inTarget inIndices
  | .append position target values, lambdas => by
    have inTarget := holds_checkExpr entered target fun calls =>
      lambdas (by simp [Expr.callsLambda, calls])
    have inValues := holds_checkExprs entered values fun calls =>
      lambdas (by simp [Expr.callsLambda, calls])
    exact property.holds_bind inTarget fun _ => property.holds_bind inValues fun _ =>
      property.holds_settle position _
  | .chop _ operand, lambdas =>
    property.holds_bind (holds_checkExpr entered operand lambdas) fun _ => property.holds_pure _
  | .matching _ _ argument, lambdas =>
    property.holds_bind (holds_checkExpr entered argument lambdas) fun _ => entered _
termination_by structural expression => expression

theorem holds_checkExprs (entered : ∀ invocation, property.holds (enter invocation)) :
    ∀ expressions : List Expr,
      (Expr.anyCallsLambda expressions = true → ∀ position params body types,
        property.holds (checkLambda context enter position params body types)) →
      property.holds (checkExprs context enter expressions)
  | [], _ => property.holds_pure _
  | expression :: expressions, lambdas => by
    have first := holds_checkExpr entered expression fun calls =>
      lambdas (by simp [Expr.anyCallsLambda, calls])
    have rest := holds_checkExprs entered expressions fun calls =>
      lambdas (by simp [Expr.anyCallsLambda, calls])
    exact property.holds_bind first fun _ => property.holds_bind rest fun _ =>
      property.holds_pure _
termination_by structural expressions => expressions

theorem holds_checkIndices (entered : ∀ invocation, property.holds (enter invocation))
    (position : Position) (current : Ty) :
    ∀ indices : List Expr,
      (Expr.anyCallsLambda indices = true → ∀ position params body types,
        property.holds (checkLambda context enter position params body types)) →
      property.holds (checkIndices context enter position current indices)
  | [], _ => property.holds_pure _
  | index :: indices, lambdas => by
    have first := holds_checkExpr entered index fun calls =>
      lambdas (by simp [Expr.anyCallsLambda, calls])
    refine property.holds_bind first fun _ =>
      property.holds_bind (property.holds_settle position _) fun next => ?_
    split
    · exact holds_checkIndices entered position next indices fun calls =>
        lambdas (by simp [Expr.anyCallsLambda, calls])
    · exact property.holds_bind (property.holds_report _ _) fun _ => property.holds_pure _
termination_by structural indices => indices

end

/-- Without a lambda that is called on the spot. -/
theorem holds_plainExpr (entered : ∀ invocation, property.holds (enter invocation))
    {expression : Expr} (plain : expression.callsLambda = false) :
    property.holds (checkExpr context enter expression) := by
  refine property.holds_checkExpr entered expression fun calls => ?_
  rw [plain] at calls
  cases calls

end ExprInvariant

end Inference

end CallSite
