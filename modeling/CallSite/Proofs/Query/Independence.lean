import CallSite.Proofs.Inference.Framing
import CallSite.Proofs.Inference.History
import CallSite.Proofs.Query.Replay
import CallSite.Proofs.Scope.OpenScopes

/-!
# Questions do not disturb a query

Whatever is done with a query, its open scopes are branches above the body that it began with, so
that every one of them is visible.  Each step is therefore read off the frames: the answer and the
frames after the step depend on the frames before it and on nothing else in the environment.  A
question leaves the frames as they were unless it calls a lambda on the spot, and then all later
steps go as if it had not been asked.
-/

namespace CallSite

open Inference

theorem Program.ends_analyze (program : Program) (config : Config) :
    (program.checker config).Ends (program.analyze config).program
      (program.analyze config).env := by
  have ends := ((program.checker config).ends_answerProgram (program.analyze config).program).2
  rwa [Checker.state_answerProgram, (program.keptBy_analyze config).1] at ends

namespace Query

/-! ## Steps -/

/-- What can be done with a query. -/
inductive Step where
  | ask (expression : Expr)
  | record (statement : Stmt)
  | enter
  | exit

/-- The answer, where the step asks for one, and the query after the step. -/
def take (query : Query) : Step → List Ty × Query
  | .ask expression =>
    let answer := query.typeOf expression
    ([answer.1], answer.2)
  | .record statement => ([], query.record statement)
  | .enter => ([], query.enterBranch)
  | .exit => ([], query.exitBranch)

/-- The answers in order and the query after all steps. -/
def walk (query : Query) : List Step → List Ty × Query
  | [] => ([], query)
  | step :: steps =>
    let first := query.take step
    let rest := first.2.walk steps
    (first.1 ++ rest.1, rest.2)

/-- The kinds of the open scopes with their names and types, the innermost one first. -/
def openScopes (query : Query) : List (ScopeKind × Frame) :=
  query.env.stack.map fun scope => (scope.kind, scope.content)

/-! ## Steps as they are read -/

/-- To record a statement is to make its bindings. -/
def bindings (context : Context) : Stmt → LocalM Unit
  | .assign position target index operator value => do
    let _ ← checkStmt context (infer context []) (.assign position target index operator value)
  | .push position target value => do
    let _ ← checkStmt context (infer context []) (.push position target value)
  | .forEach position iterator range _ => do
    let type ← checkRange context (infer context []) position range
    rebind iterator type
  | _ => pure ()

/-- What a step does to the frames.  The last frame is never closed. -/
def Step.read (context : Context) : Step → LocalM (List Ty)
  | ask expression => do
    let type ← checkExpr context (infer context []) expression
    pure [type]
  | record statement => do
    bindings context statement
    pure []
  | enter => do
    LocalM.change ([] :: ·)
    pure []
  | exit => do
    LocalM.change fun frames => if 1 < frames.length then frames.tail else frames
    pure []

def readAll (context : Context) : List Step → LocalM (List Ty)
  | [] => pure []
  | step :: steps => do
    let first ← step.read context
    let rest ← readAll context steps
    pure (first ++ rest)

/-! ## Branches above one body -/

/-- The innermost scopes are branches, and the last one is the body with the number `root`. -/
inductive Upon (root : Nat) : List Scope → Prop where
  | body (bindings : List (String × Location)) : Upon root [⟨root, .body, bindings⟩]
  | branch {outer : List Scope} (id : Nat) (bindings : List (String × Location))
      (inner : Upon root outer) : Upon root (⟨id, .branch, bindings⟩ :: outer)

namespace Upon

variable {root : Nat} {scopes : List Scope}

theorem visible_eq (upon : Upon root scopes) : Scope.visible scopes = scopes := by
  induction upon with
  | body bindings => rfl
  | branch id bindings inner ih => rw [Scope.visible_cons, ih]

theorem ne_nil (upon : Upon root scopes) : scopes ≠ [] := by
  cases upon <;> exact List.cons_ne_nil _ _

theorem of_extends (upon : Upon root scopes) {size : Nat} {after : List Scope}
    (extends_ : Scope.Extends size scopes after) : Upon root after := by
  cases extends_ with
  | nil => exact upon
  | cons scope outer added fresh =>
    cases upon with
    | body bindings => exact .body _
    | branch id bindings inner => exact .branch id _ inner

theorem tail (upon : Upon root scopes) (several : 1 < scopes.length) : Upon root scopes.tail := by
  cases upon with
  | body bindings => exact absurd several (Nat.lt_irrefl 1)
  | branch id bindings inner => exact inner

theorem kinds_eq (upon : Upon root scopes) :
    scopes.map Scope.kind = List.replicate (scopes.length - 1) .branch ++ [.body] := by
  induction upon with
  | body bindings => rfl
  | @branch outer id bindings inner ih =>
    have counted : outer.length - 1 + 1 = outer.length :=
      Nat.sub_add_cancel (List.length_pos_of_ne_nil inner.ne_nil)
    rw [List.map_cons, ih, List.length_cons, Nat.add_sub_cancel, ← counted, List.replicate_succ]
    rfl

theorem label_getLast? (upon : Upon root scopes) :
    scopes.getLast?.map (fun scope => (scope.id, scope.kind)) = some (root, .body) := by
  induction upon with
  | body bindings => rfl
  | branch id bindings inner ih =>
    obtain ⟨last, found, label⟩ := Option.map_eq_some_iff.mp ih
    rw [List.getLast?_cons, found]
    exact congrArg some label

end Upon

/-- A query in a given context that has only branches open above its own body. -/
structure Rooted (context : Context) (root : Nat) (query : Query) : Prop where
  sound : query.env.Sound
  scopes : Upon root query.env.table.scopes
  context_eq : query.context = context

namespace Rooted

variable {context : Context} {root : Nat} {query : Query}

theorem ready (rooted : Rooted context root query) : Ready context query :=
  ⟨rooted.sound, rooted.scopes.ne_nil, rooted.context_eq⟩

/-- All open scopes are visible. -/
theorem frames_eq (rooted : Rooted context root query) :
    query.env.frames = query.env.table.scopes.map (Scope.frame query.env.store) := by
  rw [Environment.frames, rooted.scopes.visible_eq]
  rfl

theorem length_frames (rooted : Rooted context root query) :
    query.env.frames.length = query.env.table.depth := by
  rw [rooted.frames_eq, List.length_map, SymbolTable.depth]

/-- What can be read off the open scopes depends on the frames alone. -/
theorem openScopes_eq (rooted : Rooted context root query) :
    query.openScopes =
      (List.replicate (query.env.frames.length - 1) ScopeKind.branch ++ [ScopeKind.body]).zip
        query.env.frames := by
  rw [rooted.frames_eq, List.length_map, ← rooted.scopes.kinds_eq, List.zip_map', openScopes,
    Environment.stack, List.map_map]
  rfl

/-- A step that works on the open scopes leaves the same ones open. -/
theorem of_becomes (rooted : Rooted context root query) {after : Query} {frames : Frames}
    (becomes : query.env.Becomes after.env frames) (ready : Ready context after) :
    Rooted context root after :=
  ⟨ready.sound, rooted.scopes.of_extends becomes.grows.scopes, ready.context_eq⟩

theorem enterBranch (rooted : Rooted context root query) :
    Rooted context root query.enterBranch where
  sound := Environment.sound_opened_branch rooted.sound
  scopes := .branch _ _ rooted.scopes
  context_eq := rooted.context_eq

theorem exitBranch (rooted : Rooted context root query) :
    Rooted context root query.exitBranch ∧
      query.exitBranch.env.frames =
        if 1 < query.env.frames.length then query.env.frames.tail else query.env.frames := by
  rw [rooted.length_frames, Query.exitBranch]
  split
  · next several =>
    have scopes : Upon root query.env.close.table.scopes := rooted.scopes.tail several
    have sound := rooted.sound
    obtain ⟨scope, outer, open_⟩ := List.exists_cons_of_ne_nil rooted.scopes.ne_nil
    rw [Environment.Sound, rooted.scopes.visible_eq, open_] at sound
    have closed : Rooted context root { query with env := query.env.close } := by
      refine ⟨⟨?_, ?_⟩, scopes, rooted.context_eq⟩
      · rw [scopes.visible_eq, Environment.scopes_close, open_]
        exact (List.nodup_append.mp sound.distinct).2.1
      · rw [scopes.visible_eq, Environment.scopes_close, open_]
        exact fun location member => sound.within location (List.mem_append_right _ member)
    refine ⟨closed, ?_⟩
    rw [closed.frames_eq, rooted.frames_eq]
    exact List.map_tail
  · exact ⟨rooted, rfl⟩

end Rooted

/-! ## Steps go as they are read -/

section Reading

variable {context : Context} {root : Nat} {query : Query}

/-- One step gives the answer and leads to the frames that are read. -/
theorem take_reads (rooted : Rooted context root query) (step : Step) :
    (query.take step).1 = (step.read context query.env.frames).value ∧
      (query.take step).2.env.frames = (step.read context query.env.frames).frames ∧
      Rooted context root (query.take step).2 := by
  cases step with
  | ask expression =>
    obtain ⟨same, becomes, ready⟩ := follows_ask context expression query rooted.ready
    have answer : _ = (query.typeOf expression).1 := congrArg Prod.snd same
    exact ⟨congrArg (fun type => [type]) answer.symm, becomes.frames_eq,
      rooted.of_becomes becomes ready⟩
  | record statement =>
    cases statement with
    | assign position target index operator value =>
      have recorded : Follows context _ (modify (·.record
          (.assign position target index operator value))) _ := follows_record context fun _ => rfl
      obtain ⟨_, becomes, ready⟩ := recorded query rooted.ready
      exact ⟨rfl, becomes.frames_eq, rooted.of_becomes becomes ready⟩
    | push position target value =>
      have recorded : Follows context _ (modify (·.record (.push position target value))) _ :=
        follows_record context fun _ => rfl
      obtain ⟨_, becomes, ready⟩ := recorded query rooted.ready
      exact ⟨rfl, becomes.frames_eq, rooted.of_becomes becomes ready⟩
    | forEach position iterator range body =>
      obtain ⟨_, becomes, ready⟩ :=
        follows_record_forEach context position iterator range body query rooted.ready
      exact ⟨rfl, becomes.frames_eq, rooted.of_becomes becomes ready⟩
    | _ => exact ⟨rfl, rfl, rooted⟩
  | enter => exact ⟨rfl, rfl, rooted.enterBranch⟩
  | exit =>
    obtain ⟨after, frames⟩ := rooted.exitBranch
    exact ⟨rfl, frames, after⟩

/-- A walk gives the answers and leads to the frames that are read. -/
theorem walk_reads (rooted : Rooted context root query) (steps : List Step) :
    (query.walk steps).1 = (readAll context steps query.env.frames).value ∧
      (query.walk steps).2.env.frames = (readAll context steps query.env.frames).frames ∧
      Rooted context root (query.walk steps).2 := by
  induction steps generalizing query with
  | nil => exact ⟨rfl, rfl, rooted⟩
  | cons step steps ih =>
    obtain ⟨answer, between, after⟩ := take_reads rooted step
    obtain ⟨answers, frames, last⟩ := ih after
    rw [between] at answers frames
    refine ⟨?_, frames, last⟩
    rw [walk, answer, answers]
    rfl

/-- Plain questions leave the frames as they were, and each gets the answer it gets alone. -/
theorem readAll_ask (context : Context) {expressions : List Expr}
    (plain : ∀ expression ∈ expressions, expression.callsLambda = false) (frames : Frames) :
    (readAll context (expressions.map .ask) frames).frames = frames ∧
      (readAll context (expressions.map .ask) frames).value = expressions.map fun expression =>
        ((checkExpr context (infer context []) expression : LocalM Ty) frames).value := by
  induction expressions with
  | nil => exact ⟨rfl, rfl⟩
  | cons expression expressions ih =>
    obtain ⟨here, later⟩ := List.forall_mem_cons.mp plain
    let answer : Outcome Ty := (checkExpr context (infer context []) expression : LocalM Ty) frames
    have kept : answer.frames = frames := frames_checkExpr (frames_infer context []) here frames
    obtain ⟨unchanged, answers⟩ := ih later
    change (readAll context (expressions.map .ask) answer.frames).frames = frames ∧
      answer.value :: (readAll context (expressions.map .ask) answer.frames).value = _
    rw [kept, unchanged, answers]
    exact ⟨rfl, rfl⟩

end Reading

/-! ## Questions -/

theorem declareAll_becomes {env : Environment} (sound : env.Sound) (slots : List Slot) :
    env.Becomes (slots.foldl (fun env slot => env.declared slot.name slot.type) env)
      (slots.foldl (fun frames slot => frames.declare slot.name slot.type) env.frames) := by
  induction slots generalizing env with
  | nil => exact .refl sound
  | cons slot slots ih =>
    have first := Environment.declared_becomes sound slot.name slot.type
    have rest := ih first.sound
    rw [first.frames_eq] at rest
    exact first.trans rest

/-- A query begins in one body, whose number is the next one after the analysis. -/
theorem rooted_start (program : Program) (config : Config) (owner : Owner) (given : Config) :
    let query := start (program.analyze config) owner given
    Rooted query.context (program.analyze config).env.table.nextScopeId query := by
  intro query
  let analysis := program.analyze config
  have becomes := declareAll_becomes
    (Environment.sound_opened_body analysis.env) (owner.slots analysis.env.table)
  refine ⟨becomes.sound, Upon.of_extends ?_ becomes.grows.scopes, rfl⟩
  have none_ : analysis.env.table.scopes = [] := (program.ends_analyze config).scopes
  rw [Environment.opened, SymbolTable.openScope, none_]
  exact .body []

/-- Questions that call no lambda on the spot can be asked in any state of a query, in any order and
any number of times.  Each is answered as if it were asked alone, and whatever is done later goes as
if none had been asked: the answers are the same, and so are the names and types in all open
scopes.  The last open scope is always the body that the query began with. -/
theorem questions_leave_query (program : Program) (config given : Config) (owner : Owner)
    (earlier later : List Step) (asked : List Expr)
    (plain : ∀ expression ∈ asked, expression.callsLambda = false) :
    let analysis := program.analyze config
    let query := ((start analysis owner given).walk earlier).2
    let questioned := query.walk (asked.map .ask)
    questioned.1 = asked.map (fun expression => (query.typeOf expression).1) ∧
      (questioned.2.walk later).1 = (query.walk later).1 ∧
      (questioned.2.walk later).2.openScopes = (query.walk later).2.openScopes ∧
      query.env.table.scopes.getLast?.map (fun scope => (scope.id, scope.kind)) =
        some (analysis.env.table.nextScopeId, .body) := by
  intro analysis query questioned
  obtain ⟨_, _, rooted⟩ := walk_reads (rooted_start program config owner given) earlier
  obtain ⟨answers, frames, after⟩ := walk_reads rooted (asked.map .ask)
  obtain ⟨unchanged, alone⟩ := readAll_ask (start analysis owner given).context plain
    query.env.frames
  obtain ⟨answersAfter, framesAfter, rootedAfter⟩ := walk_reads after later
  obtain ⟨answersLater, framesLater, rootedLater⟩ := walk_reads rooted later
  rw [unchanged] at frames
  rw [frames] at answersAfter framesAfter
  refine ⟨?_, answersAfter.trans answersLater.symm, ?_, rooted.scopes.label_getLast?⟩
  · rw [answers, alone]
    refine List.map_congr_left fun expression _ => ?_
    exact (List.cons.inj (take_reads rooted (.ask expression)).1).1.symm
  · rw [rootedAfter.openScopes_eq, rootedLater.openScopes_eq, framesAfter, framesLater]

/-- A function is asked for with a string and then with a whole number, below a branch that was left
once too often.  The answers do not mix, and the variable keeps its type for what comes later. -/
theorem identity_questions :
    let call (argument : Expr) : Expr := .call (.atLine 4) (.var (.atLine 4) "id") [argument]
    let asked := [call (.string (.atLine 4) "s"), call (.var (.atLine 4) "x")]
    let query := ((start (Checker.identity.analyze {}) .main {}).walk
      [.record (.assign (.atLine 3) "x" none .set (.int (.atLine 3) 1)), .enter, .exit, .exit]).2
    (∀ expression ∈ asked, expression.callsLambda = false) ∧
      (query.walk (asked.map .ask)).1 = [.string, .int] ∧
      ((query.walk (asked.map .ask)).2.walk [.ask (call (.var (.atLine 5) "x"))]).1 =
        (query.walk [.ask (call (.var (.atLine 5) "x"))]).1 := by
  intro call asked query
  have plain : ∀ expression ∈ asked, expression.callsLambda = false := by decide
  have answers : (query.walk (asked.map .ask)).1 = [.string, .int] := by decide +kernel
  have later := (questions_leave_query Checker.identity {} {} .main
    [.record (.assign (.atLine 3) "x" none .set (.int (.atLine 3) 1)), .enter, .exit, .exit]
    [.ask (call (.var (.atLine 5) "x"))] asked plain).2.1
  exact ⟨plain, answers, later⟩

end Query

end CallSite
