import CallSite.Analysis
import CallSite.Inference.Simulation

/-!
# The types that a check finds

The check of a body goes on with the types of its expressions and does not keep them.  A second form
of the check returns them: the type of each value that is evaluated, put or returned and of each
condition, and next to these each return statement with the type that it returns, all in the order
in which they are found.  Apart from these it is the same check.
-/

namespace CallSite

namespace Inference

/-- What a check finds. -/
structure Findings where
  values : List (Expr × Ty) := []
  /-- The return statements outside lambdas, each with the type it returns. -/
  returns : List (Stmt × Ty) := []

namespace Findings

instance : Append Findings where
  append first second := ⟨first.values ++ second.values, first.returns ++ second.returns⟩

def types (found : Findings) : List Ty := found.returns.map Prod.snd

theorem values_append (first second : Findings) :
    (first ++ second).values = first.values ++ second.values := rfl

theorem types_append (first second : Findings) :
    (first ++ second).types = first.types ++ second.types := List.map_append

end Findings

section Answers

variable {m : Type → Type} [Monad m] [MonadInfer m] (context : Context)
  (enter : Invocation → m Ty)

/-- Check conditions and return their types. -/
def answerConditions : List Expr → m (List (Expr × Ty))
  | [] => pure []
  | condition :: conditions => do
    let type ← checkExpr context enter condition
    reportAny condition.position (conditionRule type)
    let rest ← answerConditions conditions
    pure ((condition, type) :: rest)

mutual

/-- Check a statement and return what was found. -/
def answerStmt : Stmt → m Findings
  | .expr _ value | .put _ value => do
    let type ← checkExpr context enter value
    pure { values := [(value, type)] }
  | .assign position target index operator value => do
    let _ ← checkStmt context enter (.assign position target index operator value)
    pure {}
  | .ifElse _ conditions thenBody elseBody => do
    let asked ← answerConditions context enter conditions
    let first ← inBranch (answerBody thenBody)
    let second ← inBranch (answerBody elseBody)
    pure ⟨asked ++ first.values ++ second.values, first.returns ++ second.returns⟩
  | .ret position none => pure { returns := [(.ret position none, .noValue)] }
  | .ret position (some value) => do
    let type ← checkExpr context enter value
    pure ⟨[(value, type)], [(.ret position (some value), type)]⟩
  | .push position target value => do
    let _ ← checkStmt context enter (.push position target value)
    pure {}
  | .loop _ body => inBranch (answerBody body)
  | .forEach position iterator range body =>
    inBranch do
      let type ← checkRange context enter position range
      rebind iterator type
      answerBody body
  | .breakWhen _ conditions | .nextWhen _ conditions => do
    let asked ← answerConditions context enter conditions
    pure { values := asked }
termination_by structural statement => statement

def answerBody : List Stmt → m Findings
  | [] => pure {}
  | statement :: statements => do
    let first ← answerStmt statement
    let rest ← answerBody statements
    pure (first ++ rest)
termination_by structural statements => statements

end

end Answers

/-! ## The same check -/

section Same

variable (context : Context) (enter : Invocation → CheckM Ty)

theorem map_inBranch {α β : Type} (view : α → β) (action : CheckM α) :
    view <$> inBranch action = (inBranch (view <$> action) : CheckM β) := rfl

theorem map_answerConditions (conditions : List Expr) :
    (fun _ => ()) <$> answerConditions context enter conditions =
      checkConditions context enter conditions := by
  induction conditions with
  | nil => rfl
  | cons condition conditions ih =>
    rw [answerConditions, checkConditions, ← ih]
    simp only [map_bind, bind_pure_comp, Functor.map_map]

/-- An assignment returns nothing. -/
theorem map_checkAssign (position : Position) (target : String) (index : Option Expr)
    (operator : AssignOp) (value : Expr) :
    (fun _ => []) <$> checkStmt context enter (.assign position target index operator value) =
      checkStmt context enter (.assign position target index operator value) := by
  cases index with
  | none => simp only [checkStmt, map_bind, map_pure]
  | some index =>
    simp only [checkStmt, map_bind]
    refine congrArg _ (funext fun type => congrArg _ (funext fun targetType => ?_))
    split
    · simp only [map_bind, map_pure]
    · split <;> simp only [map_bind, map_pure]

mutual

theorem map_answerStmt : ∀ statement : Stmt,
    Findings.types <$> answerStmt context enter statement = checkStmt context enter statement
  | .expr _ value | .put _ value | .ret _ (some value) => by
    simp only [answerStmt, checkStmt, map_bind, map_pure]
    rfl
  | .assign position target index operator value => by
    rw [answerStmt, ← map_checkAssign]
    simp only [map_bind, map_pure, bind_map_left]
    rfl
  | .push position target value => by
    simp only [answerStmt, checkStmt, map_bind, map_pure, bind_assoc, pure_bind]
    rfl
  | .ifElse _ conditions thenBody elseBody => by
    rw [checkStmt, ← map_answerConditions, ← map_answerBody thenBody, ← map_answerBody elseBody,
      answerStmt]
    simp only [map_bind, map_pure, bind_map_left, ← map_inBranch, Findings.types,
      List.map_append]
  | .ret _ none => rfl
  | .loop _ body => by
    rw [answerStmt, checkStmt, map_inBranch, map_answerBody body]
  | .forEach position iterator range body => by
    rw [answerStmt, checkStmt, map_inBranch, ← map_answerBody body]
    simp only [map_bind]
  | .breakWhen _ conditions | .nextWhen _ conditions => by
    rw [answerStmt, checkStmt, ← map_answerConditions]
    simp only [map_bind, map_pure, bind_map_left]
    rfl
termination_by structural statement => statement

theorem map_answerBody : ∀ statements : List Stmt,
    Findings.types <$> answerBody context enter statements = checkBody context enter statements
  | [] => rfl
  | statement :: statements => by
    rw [answerBody, checkBody, ← map_answerStmt statement, ← map_answerBody statements]
    simp only [map_bind, map_pure, bind_map_left, Findings.types_append]
termination_by structural statements => statements

end

end Same

/-! ## Simulations -/

namespace BodySimulation

variable {m n : Type → Type} [Monad m] [MonadInfer m] [Monad n] [MonadInfer n]
  (sim : BodySimulation m n) (context : Context) {enter : Invocation → m Ty}
  {other : Invocation → n Ty}

theorem rel_answerConditions
    (entered : ∀ invocation, sim.rel (enter invocation) (other invocation))
    (conditions : List Expr) :
    sim.rel (answerConditions context enter conditions)
      (answerConditions context other conditions) := by
  induction conditions with
  | nil => exact sim.rel_pure _
  | cons condition conditions ih =>
    exact sim.rel_bind (sim.rel_checkExpr (fun _ => rfl) entered condition) fun _ =>
      sim.rel_bind (sim.rel_reportAny _ fun _ => typing_of_conditionRule) fun _ =>
        sim.rel_bind ih fun _ => sim.rel_pure _

mutual

theorem rel_answerStmt (entered : ∀ invocation, sim.rel (enter invocation) (other invocation)) :
    ∀ statement : Stmt,
      sim.rel (answerStmt context enter statement) (answerStmt context other statement)
  | .expr _ value | .put _ value | .ret _ (some value) =>
    sim.rel_bind (sim.rel_checkExpr (fun _ => rfl) entered value) fun _ => sim.rel_pure _
  | .assign position target index operator value =>
    sim.rel_bind
      (sim.rel_checkStmt (fun _ => rfl) entered (.assign position target index operator value))
      fun _ => sim.rel_pure _
  | .push position target value =>
    sim.rel_bind (sim.rel_checkStmt (fun _ => rfl) entered (.push position target value))
      fun _ => sim.rel_pure _
  | .ifElse _ conditions thenBody elseBody =>
    sim.rel_bind (rel_answerConditions sim context entered conditions) fun _ =>
      sim.rel_bind (sim.rel_inBranch (rel_answerBody entered thenBody)) fun _ =>
        sim.rel_bind (sim.rel_inBranch (rel_answerBody entered elseBody)) fun _ =>
          sim.rel_pure _
  | .ret _ none => sim.rel_pure _
  | .loop _ body => sim.rel_inBranch (rel_answerBody entered body)
  | .forEach position iterator range body =>
    sim.rel_inBranch
      (sim.rel_bind (sim.rel_checkRange (fun _ => rfl) entered position range) fun _ =>
        sim.rel_bind (sim.rel_rebind iterator _) fun _ => rel_answerBody entered body)
  | .breakWhen _ conditions | .nextWhen _ conditions =>
    sim.rel_bind (rel_answerConditions sim context entered conditions) fun _ => sim.rel_pure _
termination_by structural statement => statement

theorem rel_answerBody (entered : ∀ invocation, sim.rel (enter invocation) (other invocation)) :
    ∀ statements : List Stmt,
      sim.rel (answerBody context enter statements) (answerBody context other statements)
  | [] => sim.rel_pure _
  | statement :: statements =>
    sim.rel_bind (rel_answerStmt entered statement) fun _ =>
      sim.rel_bind (rel_answerBody entered statements) fun _ => sim.rel_pure _
termination_by structural statements => statements

end

end BodySimulation

end Inference

namespace Checker

open Inference

/-- Register the declarations of a program and check its main body, and return the types that were
found together with the state. -/
def answerProgram (checker : Checker) (program : Program) : List (Expr × Ty) × State :=
  let start := checker.register program
  let body := answerBody start.context (infer start.context []) program.main.body
  let result := (CheckM.inScope .body body).run start.state
  (result.1.1.values, result.2.recordMain result.1.2)

/-- Apart from the types that it returns, this is the check of the program. -/
theorem state_answerProgram (checker : Checker) (program : Program) :
    (checker.answerProgram program).2 = (checker.checkProgram program).state := by
  rw [checkProgram, perform, checkMain, ← map_answerBody]
  rfl

end Checker

end CallSite
