import CallSite.Proofs.Inference.Answers
import CallSite.Proofs.Inference.Realization
import CallSite.Proofs.Inference.Trace
import CallSite.Proofs.Resolution.Registration
import CallSite.Proofs.Scope.Contents

/-!
# Replaying the main body

Whoever walks the main body of an analysed program with a query, asks for the types of its
expressions and records the statements that bind variables, is told the types that the analysis
found, and ends with the variables that the analysis kept.
-/

namespace CallSite

open Inference

/-- A run leaves the declarations, so that a later task has the same context. -/
theorem Inference.Leaves.ofTable_eq {apart : Scope → Prop} {events : List Event}
    {before after : State} (leaves : Leaves apart events before after) (blocked : List String)
    (infersCyclic : Bool) :
    Context.ofTable after.env.table blocked infersCyclic =
      Context.ofTable before.env.table blocked infersCyclic := by
  rw [Context.ofTable, Context.ofTable, leaves.functions, leaves.patterns]

namespace Query

/-! ## The walk -/

/-- Ask for the type of an expression. -/
def ask (expression : Expr) : StateM Query (Expr × Ty) := do
  let type ← modifyGet (·.typeOf expression)
  pure (expression, type)

def askAll : List Expr → StateM Query (List (Expr × Ty))
  | [] => pure []
  | expression :: expressions => do
    let answer ← ask expression
    let rest ← askAll expressions
    pure (answer :: rest)

/-- Walk a part of the body between entering and leaving a branch. -/
def inBranch {α : Type} (action : StateM Query α) : StateM Query α := do
  modify (·.enterBranch)
  let result ← action
  modify (·.exitBranch)
  pure result

mutual

/-- Walk a statement and return the answers. -/
def replayStmt : Stmt → StateM Query (List (Expr × Ty))
  | .expr _ value | .put _ value | .ret _ (some value) => do
    let answer ← ask value
    pure [answer]
  | .assign position target index operator value => do
    modify (·.record (.assign position target index operator value))
    pure []
  | .push position target value => do
    modify (·.record (.push position target value))
    pure []
  | .ifElse _ conditions thenBody elseBody => do
    let asked ← askAll conditions
    let first ← inBranch (replayBody thenBody)
    let second ← inBranch (replayBody elseBody)
    pure (asked ++ first ++ second)
  | .ret _ none => pure []
  | .loop _ body => inBranch (replayBody body)
  | .forEach position iterator range body =>
    inBranch do
      modify (·.record (.forEach position iterator range body))
      replayBody body
  | .breakWhen _ conditions | .nextWhen _ conditions => askAll conditions
termination_by structural statement => statement

/-- Walk statements in order and return the answers. -/
def replayBody : List Stmt → StateM Query (List (Expr × Ty))
  | [] => pure []
  | statement :: statements => do
    let first ← replayStmt statement
    let rest ← replayBody statements
    pure (first ++ rest)
termination_by structural statements => statements

end

/-! ## Steps of the walk -/

/-- What stays fixed in each task of a query. -/
def context (query : Query) : Context :=
  .ofTable query.env.table query.cycles.flatten query.infersCyclic

/-- A query in a given context, with a scope open. -/
structure Ready (context : Context) (query : Query) : Prop where
  sound : query.env.Sound
  opened : query.env.table.scopes ≠ []
  context_eq : query.context = context

/-- From any query in the context, the walk goes as the check is read. -/
def Follows {α β : Type} (context : Context) (check : LocalM α) (walk : StateM Query β)
    (same : α → β → Prop) : Prop :=
  ∀ query, Ready context query →
    same (check query.env.frames).value (walk.run query).1 ∧
    query.env.Becomes (walk.run query).2.env (check query.env.frames).frames ∧
    Ready context (walk.run query).2

namespace Follows

variable {α β : Type} {context : Context}

theorem pure {value : α} {answer : β} {same : α → β → Prop} (related : same value answer) :
    Follows context (Pure.pure value) (Pure.pure answer) same :=
  fun _ ready => ⟨related, .refl ready.sound, ready⟩

theorem bind {γ δ : Type} {check : LocalM α} {walk : StateM Query β} {same : α → β → Prop}
    {nextCheck : α → LocalM γ} {nextWalk : β → StateM Query δ} {later : γ → δ → Prop}
    (first : Follows context check walk same)
    (second : ∀ value answer, same value answer →
      Follows context (nextCheck value) (nextWalk answer) later) :
    Follows context (check >>= nextCheck) (walk >>= nextWalk) later := by
  intro query ready
  obtain ⟨related, becomes, between⟩ := first query ready
  obtain ⟨final, more, after⟩ := second _ _ related _ between
  rw [becomes.frames_eq] at final more
  exact ⟨final, becomes.trans more, after⟩

/-- One task of the query. -/
theorem perform {check : LocalM α}
    {task : Context → (Invocation → CheckM Ty) → CheckM α}
    (reads : Reads check (task context (infer context []))) :
    Follows context check (modifyGet (·.perform task)) Eq := by
  intro query ready
  have ran := reads { env := query.env, sink := .silent } ready.sound
  have whole : query.perform task =
      (((task query.context (infer query.context [])).run { env := query.env, sink := .silent }).1,
        { query with env := ((task query.context (infer query.context [])).run
            { env := query.env, sink := .silent }).2.env }) := rfl
  rw [ready.context_eq] at whole
  change _ = (query.perform task).1 ∧ query.env.Becomes (query.perform task).2.env _ ∧
    Ready context (query.perform task).2
  rw [whole]
  refine ⟨ran.value.symm, ran.becomes, ran.becomes.sound, ran.becomes.grows.opened ready.opened,
    Eq.trans ?_ ready.context_eq⟩
  exact ran.leaves.ofTable_eq _ _

theorem inBranch {check : LocalM α} {walk : StateM Query β} {same : α → β → Prop}
    (inner : Follows context check walk same) :
    Follows context (Inference.inBranch check) (Query.inBranch walk) same := by
  intro query ready
  obtain ⟨related, becomes, after⟩ := inner query.enterBranch
    ⟨Environment.sound_opened_branch ready.sound, List.cons_ne_nil _ _, ready.context_eq⟩
  have closed : (walk.run query.enterBranch).2.exitBranch =
      { (walk.run query.enterBranch).2 with
        env := (walk.run query.enterBranch).2.env.close } := by
    obtain ⟨added, scopes, _⟩ := Environment.Grows.scopes_opened becomes.grows
    have outer : 0 < query.env.table.scopes.length := List.length_pos_of_ne_nil ready.opened
    refine if_pos ?_
    rw [SymbolTable.depth, scopes, List.length_cons]
    omega
  have whole : (Query.inBranch walk).run query =
      ((walk.run query.enterBranch).1, (walk.run query.enterBranch).2.exitBranch) := rfl
  have shut : query.env.Becomes (walk.run query.enterBranch).2.env.close _ := becomes.close_branch
  rw [whole, closed]
  exact ⟨related, shut, shut.sound, shut.grows.opened ready.opened, after.context_eq⟩

/-- To record is to perform a task whose value is not asked for. -/
theorem record {check : LocalM α} {record : Query → Query}
    {task : Context → (Invocation → CheckM Ty) → CheckM α}
    (recorded : ∀ query, record query = (query.perform task).2)
    (reads : Reads check (task context (infer context []))) :
    Follows context check (modify record) fun _ _ => True := by
  intro query ready
  obtain ⟨_, becomes, after⟩ := perform reads query ready
  have whole : (modify record : StateM Query Unit).run query = ((), record query) := rfl
  rw [whole, recorded query]
  exact ⟨trivial, becomes, after⟩

/-- The check may report; a walk never does. -/
theorem afterReport {check : LocalM α} {walk : StateM Query β} {same : α → β → Prop}
    (rest : Follows context check walk same) (position : Position) (found : Option Problem) :
    Follows context (reportAny position found >>= fun _ => check) walk same := by
  cases found with
  | none => exact rest
  | some problem => exact rest

end Follows

/-! ## The walk follows the check -/

section Walk

variable (context : Context)

theorem follows_ask (expression : Expr) :
    Follows context (checkExpr context (infer context []) expression) (ask expression)
      fun type answer => (expression, type) = answer := by
  intro query ready
  have reads : Reads (checkExpr context (infer context []) expression)
      (checkExpr context (infer context []) expression) :=
    reading.rel_checkExpr (fun _ => rfl) (reading.rel_infer context []) expression
  have asked : Follows context _ (modifyGet (·.typeOf expression)) Eq := .perform reads
  obtain ⟨same, becomes, after⟩ := asked query ready
  exact ⟨congrArg (Prod.mk expression) same, becomes, after⟩

theorem follows_askAll (conditions : List Expr) :
    Follows context (answerConditions context (infer context []) conditions) (askAll conditions)
      Eq := by
  induction conditions with
  | nil => exact .pure rfl
  | cons condition conditions ih =>
    refine (follows_ask context condition).bind fun type answer same => .afterReport ?_ _ _
    refine ih.bind fun types answers rest => .pure ?_
    rw [same, rest]

/-- A statement whose record is its check: an assignment or a push. -/
theorem follows_record {statement : Stmt}
    (recorded : ∀ query : Query, query.record statement =
      (query.perform fun context enter => checkStmt context enter statement).2) :
    Follows context (checkStmt context (infer context []) statement)
      (modify (·.record statement)) fun _ _ => True :=
  .record recorded (reading.rel_checkStmt (fun _ => rfl) (reading.rel_infer context []) statement)

theorem follows_record_forEach (position : Position) (iterator : String) (range : Range)
    (body : List Stmt) :
    Follows context
      (checkRange context (infer context []) position range >>= fun type => rebind iterator type)
      (modify (·.record (.forEach position iterator range body))) fun _ _ => True :=
  .record (fun _ => rfl)
    (reading.rel_bind
      (reading.rel_checkRange (fun _ => rfl) (reading.rel_infer context []) position range)
      fun _ => reading.rel_rebind iterator _)

mutual

theorem follows_replayStmt : ∀ statement : Stmt,
    Follows context (answerStmt context (infer context []) statement) (replayStmt statement)
      fun found answers => found.values = answers
  | .expr _ value | .put _ value | .ret _ (some value) =>
    (follows_ask context value).bind fun _ _ same => .pure (congrArg List.singleton same)
  | .assign position target index operator value =>
    (follows_record context fun _ => rfl).bind fun _ _ _ => .pure rfl
  | .push position target value =>
    (follows_record context fun _ => rfl).bind fun _ _ _ => .pure rfl
  | .ifElse _ conditions thenBody elseBody => by
    refine (follows_askAll context conditions).bind fun _ _ asked => ?_
    refine (follows_replayBody thenBody).inBranch.bind fun _ _ first => ?_
    refine (follows_replayBody elseBody).inBranch.bind fun _ _ second => .pure ?_
    rw [asked, first, second]
  | .ret _ none => .pure rfl
  | .loop _ body => (follows_replayBody body).inBranch
  | .forEach position iterator range body => by
    refine Follows.inBranch fun query ready => ?_
    exact (follows_record_forEach context position iterator range body).bind
      (fun _ _ _ => follows_replayBody body) query ready
  | .breakWhen _ conditions | .nextWhen _ conditions =>
    (follows_askAll context conditions).bind fun _ _ asked => .pure asked
termination_by structural statement => statement

theorem follows_replayBody : ∀ statements : List Stmt,
    Follows context (answerBody context (infer context []) statements) (replayBody statements)
      fun found answers => found.values = answers
  | [] => .pure rfl
  | statement :: statements => by
    refine (follows_replayStmt statement).bind fun _ _ first => ?_
    refine (follows_replayBody statements).bind fun _ _ rest => .pure ?_
    rw [Findings.values_append, first, rest]
termination_by structural statements => statements

end

end Walk

end Query

/-! ## What the check of the main body leaves -/

namespace Checker

theorem scopes_register (checker : Checker) (program : Program) :
    (checker.register program).state.env.table.scopes = checker.state.env.table.scopes := by
  rw [register, SymbolTable.declarePatterns_eq, SymbolTable.declareFunctions_eq]

/-- The check of the main body as it is read: it starts from one empty frame. -/
def readMain (checker : Checker) (program : Program) : Outcome Findings :=
  let context := (checker.register program).context
  (answerBody context (infer context []) program.main.body : LocalM _) [[]]

/-- The environment at the end of a check of the main body. -/
structure Ends (checker : Checker) (program : Program) (env : Environment) : Prop where
  scopes : env.table.scopes = checker.state.env.table.scopes
  /-- A later task finds the same declarations. -/
  context : Context.ofTable env.table = Context.ofTable (checker.register program).state.env.table
  main : ∃ scope, env.table.mainScope = some scope ∧
    scope.Holds env.store ((checker.readMain program).frames.headD [])

theorem ends_answerProgram (checker : Checker) (program : Program) :
    (checker.answerProgram program).1 = (checker.readMain program).value.values ∧
      checker.Ends program (checker.answerProgram program).2.env := by
  have reads := reading.rel_answerBody (checker.register program).context
    (reading.rel_infer (checker.register program).context []) program.main.body
  obtain ⟨scope, ran, holds, _⟩ := Reads.inBody reads (checker.register program).state []
  rw [answerProgram, ran.value]
  refine ⟨rfl, ?_, ?_, scope, rfl, holds⟩
  · exact ran.untouched.scopes.trans (checker.scopes_register program)
  · exact funext₂ ran.leaves.ofTable_eq

end Checker

/-! ## The replay -/

namespace Query

/-- A query on an analysis begins where the check of the main body began: in the context of the
registered declarations, with one empty frame. -/
theorem ready_start {program : Program} {config : Config}
    (ends : (program.checker config).Ends (program.analyze config).program
      (program.analyze config).env) :
    Ready ((program.checker config).register (program.analyze config).program).context
      (start (program.analyze config) .main config) where
  sound := Environment.sound_opened_body _
  opened := List.cons_ne_nil _ _
  context_eq := congrFun₂ ends.context _ _

/-- The replay of the main body gives, for each expression in order, the type that the engine found
there.  In the end one scope is open, and it holds the variables that the analysis kept for the main
body, under the same names, with the same types and in the same order; those that were kept have not
changed by the replay. -/
theorem replay_main_reproduces (program : Program) (config : Config) :
    let analysis := program.analyze config
    let engine := (program.checker config).answerProgram analysis.program
    let replay := (replayBody analysis.program.main.body).run (start analysis .main config)
    Program.KeptBy engine.2 analysis ∧ replay.1 = engine.1 ∧
      ∃ scope kept, replay.2.env.table.scopes = [scope] ∧
        analysis.env.table.mainScope = some kept ∧
        scope.frame replay.2.env.store = kept.frame analysis.env.store ∧
        kept.frame replay.2.env.store = kept.frame analysis.env.store := by
  intro analysis engine replay
  have same : Program.KeptBy engine.2 analysis := by
    have state : engine.2 = _ := Checker.state_answerProgram _ _
    rw [state]
    exact program.keptBy_analyze config
  obtain ⟨answers, ends⟩ := (program.checker config).ends_answerProgram analysis.program
  have env_eq : engine.2.env = analysis.env := same.1
  rw [env_eq] at ends
  obtain ⟨related, becomes, _⟩ := follows_replayBody _ analysis.program.main.body _
    (ready_start ends)
  obtain ⟨kept, stored, holds⟩ := ends.main
  obtain ⟨scope, content, current, only, held, _⟩ := Environment.Becomes.holds_body becomes
  have kept_eq : kept.frame analysis.env.store = content := by
    rw [holds.frame, Checker.readMain]
    exact congrArg (List.headD · []) only
  have alone : replay.2.env.table.scopes = [scope] := by
    obtain ⟨_, scopes, _⟩ := Environment.Grows.scopes_opened becomes.grows
    have outer : analysis.env.table.scopes = [] := ends.scopes
    rw [SymbolTable.current?, scopes, List.head?_cons, Option.some_inj] at current
    rw [← current, ← outer]
    exact scopes
  have undisturbed := becomes.grows.holds holds fun _ _ => List.not_mem_nil
  exact ⟨same, related.symm.trans answers.symm, scope, kept, alone, stored,
    held.frame.trans kept_eq.symm, undisturbed.frame.trans holds.frame.symm⟩

end Query

end CallSite
