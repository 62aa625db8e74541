import CallSite.Proofs.Inference.Consistency
import CallSite.Proofs.Query.Independence

/-!
# Replaying functions

Whoever walks the body of a function with a query, starting from the slots that its entry keeps, and
asks for the types of what it returns, is told types that agree on the return type of the entry.  No
lambda may be called on the spot, since a query passes over whatever does not bind a variable.
-/

namespace CallSite

/-! ## Code without calls of lambdas -/

def Expr.isLambdaCall : Expr → Bool
  | .call _ (.lambda _ _ _) _ => true
  | _ => false

/-- No part of the program is a call of a lambda. -/
def Program.LambdaCallFree (program : Program) : Prop :=
  ∀ part ∈ program.parts, part.isLambdaCall = false

instance (program : Program) : Decidable program.LambdaCallFree :=
  inferInstanceAs (Decidable (∀ part ∈ program.parts, part.isLambdaCall = false))

/-- The functions of the analysed program have the code that was written. -/
theorem Program.LambdaCallFree.of_declared {program : Program} (free : program.LambdaCallFree)
    {config : Config} {function : Function}
    (declared : function ∈ (program.analyze config).program.functions) :
    ∀ part ∈ function.parts, part.isLambdaCall = false := by
  intro part member
  refine free part ?_
  rw [← (program.resolves_resolve (.recording config.deduplicates)).parts_eq]
  exact List.mem_append_left _
    (List.mem_append_left _ (List.mem_flatMap.mpr ⟨function, declared, member⟩))

mutual

theorem Expr.callsLambda_of_parts : ∀ expression : Expr,
    (∀ part ∈ expression.parts, part.isLambdaCall = false) → expression.callsLambda = false
  | .var _ _, _ | .int _ _, _ | .float _ _, _ | .bool _ _, _ | .string _ _, _ | .pointer _ _, _
  | .lambda _ _ _, _ => rfl
  | .list _ elements, all => Expr.anyCallsLambda_of_parts elements (List.forall_mem_cons.mp all).2
  | .binary _ _ left right, all => by
    obtain ⟨inLeft, inRight⟩ := List.forall_mem_append.mp (List.forall_mem_cons.mp all).2
    rw [callsLambda, left.callsLambda_of_parts inLeft, right.callsLambda_of_parts inRight]
    rfl
  | .unary _ _ operand, all | .len _ operand, all | .chop _ operand, all | .chomp _ operand, all
  | .matching _ _ operand, all => operand.callsLambda_of_parts (List.forall_mem_cons.mp all).2
  | .call _ callee arguments, all => by
    obtain ⟨here, inside⟩ := List.forall_mem_cons.mp all
    obtain ⟨inCallee, inArguments⟩ := List.forall_mem_append.mp inside
    have plainCallee := callee.callsLambda_of_parts inCallee
    have plainArguments := Expr.anyCallsLambda_of_parts arguments inArguments
    cases callee with
    | lambda place params body => cases here
    | _ =>
      rw [callsLambda, plainCallee, plainArguments]
      · rfl
      · intro place params body same
        cases same
  | .index _ target indices, all => by
    obtain ⟨inTarget, inIndices⟩ := List.forall_mem_append.mp (List.forall_mem_cons.mp all).2
    rw [callsLambda, target.callsLambda_of_parts inTarget,
      Expr.anyCallsLambda_of_parts indices inIndices]
    rfl
  | .append _ target values, all => by
    obtain ⟨inTarget, inValues⟩ := List.forall_mem_append.mp (List.forall_mem_cons.mp all).2
    rw [callsLambda, target.callsLambda_of_parts inTarget,
      Expr.anyCallsLambda_of_parts values inValues]
    rfl
termination_by structural expression => expression

theorem Expr.anyCallsLambda_of_parts : ∀ expressions : List Expr,
    (∀ part ∈ Expr.partsOfAll expressions, part.isLambdaCall = false) →
      Expr.anyCallsLambda expressions = false
  | [], _ => rfl
  | expression :: expressions, all => by
    obtain ⟨inFirst, inRest⟩ := List.forall_mem_append.mp all
    rw [Expr.anyCallsLambda, expression.callsLambda_of_parts inFirst,
      Expr.anyCallsLambda_of_parts expressions inRest]
    rfl
termination_by structural expressions => expressions

end

open Inference

namespace Query

/-! ## The walk -/

mutual

/-- Walk a statement and return the types of its returns. -/
def askReturns : Stmt → StateM Query (List Ty)
  | .expr _ _ | .put _ _ | .breakWhen _ _ | .nextWhen _ _ => pure []
  | .assign position target index operator value => do
    modify (·.record (.assign position target index operator value))
    pure []
  | .push position target value => do
    modify (·.record (.push position target value))
    pure []
  | .ifElse _ _ thenBody elseBody => do
    let first ← inBranch (askReturnsOfAll thenBody)
    let second ← inBranch (askReturnsOfAll elseBody)
    pure (first ++ second)
  | .ret _ none => pure [.noValue]
  | .ret _ (some value) => do
    let type ← modifyGet (·.typeOf value)
    pure [type]
  | .loop _ body => inBranch (askReturnsOfAll body)
  | .forEach position iterator range body =>
    inBranch do
      modify (·.record (.forEach position iterator range body))
      askReturnsOfAll body
termination_by structural statement => statement

/-- Walk statements in order and return the types of their returns. -/
def askReturnsOfAll : List Stmt → StateM Query (List Ty)
  | [] => pure []
  | statement :: statements => do
    let first ← askReturns statement
    let rest ← askReturnsOfAll statements
    pure (first ++ rest)
termination_by structural statements => statements

end

namespace Follows

variable {α β γ : Type} {context : Context}

/-- What leaves the frames alone may be passed over. -/
theorem afterKept {check : LocalM γ} {next : γ → LocalM α} {walk : StateM Query β}
    {same : α → β → Prop} (still : Keeps id check)
    (rest : ∀ value, Follows context (next value) walk same) :
    Follows context (check >>= next) walk same := by
  intro query ready
  let first := check query.env.frames
  have kept : first.frames = query.env.frames := still query.env.frames
  change same (next first.value first.frames).value _ ∧
    query.env.Becomes _ (next first.value first.frames).frames ∧ _
  rw [kept]
  exact rest first.value query ready

/-- A statement that is recorded has no returns. -/
theorem recorded {check : LocalM (List Ty)} {walk : StateM Query Unit}
    (follows : Follows context check walk fun _ _ => True)
    (none_ : ∀ frames, (check frames).value = []) :
    Follows context check (do walk; Pure.pure []) Eq := by
  intro query ready
  obtain ⟨_, becomes, after⟩ := follows query ready
  exact ⟨none_ _, becomes, after⟩

end Follows

/-! ## The walk follows the check -/

theorem returns_checkAssign (context : Context) (enter : Invocation → LocalM Ty)
    (position : Position) (target : String) (index : Option Expr) (operator : AssignOp)
    (value : Expr) (frames : Frames) :
    (checkStmt context enter (.assign position target index operator value) frames).value = [] := by
  cases index with
  | none => rfl
  | some index =>
    change ((ite _ _ (ite _ _ _) : LocalM (List Ty)) _).value = []
    split
    · rfl
    · split <;> rfl

section Walk

variable (context : Context)

theorem frames_checkConditions {conditions : List Expr}
    (plain : Expr.anyCallsLambda conditions = false) :
    Keeps id (checkConditions context (infer context []) conditions) := by
  induction conditions with
  | nil => exact .pure ()
  | cons condition conditions ih =>
    rw [Expr.anyCallsLambda, Bool.or_eq_false_iff] at plain
    exact (frames_checkExpr (frames_infer context []) plain.1).bind fun _ =>
      (Keeps.reportAny _ _).bind fun _ => ih plain.2

mutual

theorem follows_askReturns : ∀ statement : Stmt,
    (∀ part ∈ statement.parts, part.isLambdaCall = false) →
    Follows context (checkStmt context (infer context []) statement) (askReturns statement) Eq
  | .expr _ value, all | .put _ value, all =>
    .afterKept (frames_checkExpr (frames_infer context []) (value.callsLambda_of_parts all))
      fun _ => .pure rfl
  | .breakWhen _ conditions, all | .nextWhen _ conditions, all =>
    .afterKept (frames_checkConditions context (Expr.anyCallsLambda_of_parts conditions all))
      fun _ => .pure rfl
  | .assign position target index operator value, _ =>
    (follows_record context fun _ => rfl).recorded
      (returns_checkAssign context _ position target index operator value)
  | .push position target value, _ =>
    (follows_record context fun _ => rfl).recorded fun _ => rfl
  | .ifElse _ conditions thenBody elseBody, all => by
    obtain ⟨inside, inElse⟩ := List.forall_mem_append.mp all
    obtain ⟨inConditions, inThen⟩ := List.forall_mem_append.mp inside
    refine .afterKept (frames_checkConditions context
      (Expr.anyCallsLambda_of_parts conditions inConditions)) fun _ => ?_
    refine (follows_askReturnsOfAll thenBody inThen).inBranch.bind fun _ _ first => ?_
    refine (follows_askReturnsOfAll elseBody inElse).inBranch.bind fun _ _ second => .pure ?_
    rw [first, second]
  | .ret _ none, _ => .pure rfl
  | .ret _ (some value), _ => by
    refine Follows.bind (.perform ?_) fun _ _ same => .pure (congrArg List.singleton same)
    exact reading.rel_checkExpr (fun _ => rfl) (reading.rel_infer context []) value
  | .loop _ body, all => (follows_askReturnsOfAll body all).inBranch
  | .forEach position iterator range body, all => by
    refine Follows.inBranch fun query ready => ?_
    exact (follows_record_forEach context position iterator range body).bind
      (fun _ _ _ => follows_askReturnsOfAll body (List.forall_mem_append.mp all).2) query ready
termination_by structural statement => statement

theorem follows_askReturnsOfAll : ∀ statements : List Stmt,
    (∀ part ∈ Stmt.partsOfAll statements, part.isLambdaCall = false) →
    Follows context (checkBody context (infer context []) statements)
      (askReturnsOfAll statements) Eq
  | [], _ => .pure rfl
  | statement :: statements, all => by
    obtain ⟨inFirst, inRest⟩ := List.forall_mem_append.mp all
    refine (follows_askReturns statement inFirst).bind fun _ _ first => ?_
    refine (follows_askReturnsOfAll statements inRest).bind fun _ _ rest => .pure ?_
    rw [first, rest]
termination_by structural statements => statements

end

end Walk

/-! ## Where a query on a function begins -/

theorem context_start (analysis : Analysis) (owner : Owner) (config : Config) :
    (start analysis owner config).context =
      .ofTable analysis.env.table analysis.cycles.flatten config.infersCyclic := by
  have same : ∀ (slots : List Slot) (env : Environment), env.table.SameGlobals
      (slots.foldl (fun env slot => env.declared slot.name slot.type) env).table := by
    intro slots
    induction slots with
    | nil => exact fun _ => ⟨rfl, rfl, rfl⟩
    | cons slot slots ih =>
      intro env
      have first := env.sameGlobals_declared slot.name slot.type
      have rest := ih (env.declared slot.name slot.type)
      exact ⟨rest.functions.trans first.functions, rest.patterns.trans first.patterns,
        rest.mainScope.trans first.mainScope⟩
  have globals := same (owner.slots analysis.env.table) analysis.env.openBody
  have functions : (start analysis owner config).env.table.functions =
      analysis.env.table.functions := globals.functions
  have patterns : (start analysis owner config).env.table.patterns =
      analysis.env.table.patterns := globals.patterns
  rw [context, Context.ofTable, functions, patterns]
  rfl

/-- A call binds its parameters as a query binds the slots that the call leaves. -/
theorem frames_bindParams (context : Context) {params : List Param}
    (plain : ∀ part ∈ Param.parts params, part.isLambdaCall = false) (types : List Ty)
    (frames : Frames) {slots : List Slot}
    (names : slots.map (·.name) = params.map (·.name.name))
    (filled : ((bindParams context (infer context []) params types : LocalM _) frames).value =
      slots.map (·.type)) :
    ((bindParams context (infer context []) params types : LocalM _) frames).frames =
      slots.foldl (fun frames slot => frames.declare slot.name slot.type) frames := by
  induction params generalizing types frames slots with
  | nil =>
    rw [List.map_nil, List.map_eq_nil_iff] at names
    rw [names]
    rfl
  | cons param params ih =>
    obtain ⟨name, default⟩ := param
    cases slots with
    | nil => cases names
    | cons slot slots =>
      obtain ⟨slotName, slotType⟩ := slot
      obtain ⟨here, later⟩ := List.cons.inj names
      change slotName = name.name at here
      subst here
      cases types with
      | cons type types =>
        obtain ⟨rfl, rest⟩ := List.cons.inj filled
        have plainRest : ∀ part ∈ Param.parts params, part.isLambdaCall = false := by
          cases default with
          | none => exact plain
          | some default => exact (List.forall_mem_append.mp plain).2
        exact ih plainRest types _ later rest
      | nil =>
        cases default with
        | none =>
          obtain ⟨rfl, rest⟩ := List.cons.inj filled
          exact ih plain [] _ later rest
        | some default =>
          obtain ⟨inDefault, inRest⟩ := List.forall_mem_append.mp plain
          obtain ⟨rfl, rest⟩ := List.cons.inj filled
          let first : Outcome Ty :=
            (checkExpr context (infer context []) default : LocalM Ty) frames
          have kept : first.frames = frames := frames_checkExpr (frames_infer context [])
            (default.callsLambda_of_parts inDefault) frames
          refine (ih inRest [] _ later rest).trans ?_
          change slots.foldl _ (first.frames.declare name.name first.value) =
            slots.foldl _ (frames.declare name.name first.value)
          rw [kept]

/-- A query on a function begins with the frames that a call of it makes for the slots. -/
theorem ready_start_function {program : Program} {config : Config} {name : String}
    {entry : FunctionEntry}
    (found : (program.analyze config).env.table.function? name = some entry) :
    let query := start (program.analyze config) (.function name) config
    Ready ((program.checker config).register (program.analyze config).program).context query ∧
      query.env.frames =
        entry.params.foldl (fun (frames : Frames) slot => frames.declare slot.name slot.type)
          [[]] := by
  intro query
  let analysis := program.analyze config
  have slots : Owner.slots (.function name) analysis.env.table = entry.params := by
    rw [Owner.slots, found]
    rfl
  have begun : query.env = entry.params.foldl
      (fun env slot => env.declared slot.name slot.type) (analysis.env.opened .body) := by
    rw [← slots]
    rfl
  have becomes := declareAll_becomes (Environment.sound_opened_body analysis.env) entry.params
  rw [← begun] at becomes
  refine ⟨⟨becomes.sound, becomes.grows.opened (List.cons_ne_nil _ _), ?_⟩, becomes.frames_eq⟩
  exact (context_start analysis _ config).trans
    (congrFun₂ (program.ends_analyze config).context _ _)

/-- The replay of a function that inference reached, from the slots of its entry, gives types for
its returns that agree on the return type of the entry; where they do not agree, the entry has
none. -/
theorem replay_function_reproduces (program : Program) (config : Config)
    (pointerFree : program.PointerFree) (matchFree : program.MatchFree)
    (lambdaCallFree : program.LambdaCallFree) (checks : config.checksDependencies = true)
    (acyclic : (program.analyze config).cycles = []) (name : String)
    (visited : name ∈ (program.analyze config).visited.names) :
    let analysis := program.analyze config
    ∃ function entry, analysis.program.function? name = some function ∧
      analysis.env.table.function? name = some entry ∧
      let replay := (askReturnsOfAll function.body).run (start analysis (.function name) config)
      (∃ type, Ty.unifyReturns replay.1 = some type ∧ entry.returns = type) ∨
        Ty.unifyReturns replay.1 = none ∧ entry.returns = .unresolved := by
  intro analysis
  let context := ((program.checker config).register analysis.program).context
  obtain ⟨registers, checked⟩ :=
    Program.checked_of_visited pointerFree matchFree checks acyclic
  obtain ⟨entry, types, found, outcome⟩ := checked name visited
  have function : analysis.program.function? name = some entry.declaration := by
    have declared := registers.declared name
    rw [found, Checker.context, Context.function?_ofTable, Checker.table_register rfl,
      Program.function?_table] at declared
    exact declared.symm
  obtain ⟨plainParams, plainBody⟩ := List.forall_mem_append.mp
    (lambdaCallFree.of_declared (List.mem_of_find?_eq_some function))
  obtain ⟨ready, frames⟩ := ready_start_function found
  let bound := (bindParams context (infer context []) entry.declaration.params types : LocalM _)
    [[]]
  let body := (checkBody context (infer context []) entry.declaration.body : LocalM _) bound.frames
  obtain ⟨filled, returned⟩ := Prod.mk.inj outcome
  have begun : bound.frames = (start analysis (.function name) config).env.frames :=
    (frames_bindParams context plainParams types [[]] (registers.slots name entry found)
      filled).trans frames.symm
  have replayed : body.value = ((askReturnsOfAll entry.declaration.body).run
      (start analysis (.function name) config)).1 := by
    obtain ⟨same, _⟩ := follows_askReturnsOfAll context entry.declaration.body plainBody _ ready
    rw [← begun] at same
    exact same
  let problem : Problem := .functionReturnsDiffer entry.declaration.name.baseName
  have settled : (Ty.unifyReturns body.value).getD .unresolved = entry.returns := by
    rw [← (returnRule_spec problem entry.declaration.position body.value).1]
    exact (congrArg Outcome.value (read_settle _ _ body.frames)).symm.trans returned
  rw [replayed] at settled
  refine ⟨entry.declaration, entry, function, found, ?_⟩
  intro replay
  cases agreed : Ty.unifyReturns replay.1 with
  | some type =>
    rw [agreed] at settled
    exact .inl ⟨type, rfl, settled.symm⟩
  | none =>
    rw [agreed] at settled
    exact .inr ⟨rfl, settled.symm⟩

/-- A function with a default that calls another one, which it also calls in a branch of a loop. -/
def rooms : Program where
  functions := [
    .ofName ⟨"twice", .atLine 1⟩ [⟨⟨"x", .atLine 1⟩, none⟩]
      [.ret (.atLine 2) (some (.binary (.atLine 2) .add (.var (.atLine 2) "x")
        (.var (.atLine 2) "x")))],
    .ofName ⟨"area", .atLine 3⟩
      [⟨⟨"w", .atLine 3⟩, none⟩,
        ⟨⟨"h", .atLine 3⟩, some (.call (.atLine 3) (.var (.atLine 3) "twice")
          [.var (.atLine 3) "w"])⟩]
      [.forEach (.atLine 4) "i" (.elements [.var (.atLine 4) "h"])
          [.assign (.atLine 5) "last" none .set (.var (.atLine 5) "i"),
            .ret (.atLine 6) (some (.call (.atLine 6) (.var (.atLine 6) "twice")
              [.var (.atLine 6) "last"]))],
        .ret (.atLine 7) (some (.var (.atLine 7) "w"))]]
  patterns := []
  main := ⟨[.put (.atLine 9) (.call (.atLine 9) (.var (.atLine 9) "area")
      [.string (.atLine 9) "s"]),
    .put (.atLine 10) (.call (.atLine 10) (.var (.atLine 10) "area") [.int (.atLine 10) 2])],
    .atLine 8⟩

theorem rooms_replay :
    let analysis := rooms.analyze {}
    rooms.PointerFree ∧ rooms.MatchFree ∧ rooms.LambdaCallFree ∧ analysis.cycles = [] ∧
      "area" ∈ analysis.visited.names ∧
      ∃ function entry, analysis.program.function? "area" = some function ∧
        analysis.env.table.function? "area" = some entry ∧
        let replay := (askReturnsOfAll function.body).run (start analysis (.function "area") {})
        (∃ type, Ty.unifyReturns replay.1 = some type ∧ entry.returns = type) ∨
          Ty.unifyReturns replay.1 = none ∧ entry.returns = .unresolved := by
  have pointerFree : rooms.PointerFree := by decide
  have matchFree : rooms.MatchFree := by decide
  have lambdaCallFree : rooms.LambdaCallFree := by decide
  have acyclic : (rooms.analyze {}).cycles = [] := by decide +kernel
  have visited : "area" ∈ (rooms.analyze {}).visited.names := by decide +kernel
  exact ⟨pointerFree, matchFree, lambdaCallFree, acyclic, visited,
    replay_function_reproduces rooms {} pointerFree matchFree lambdaCallFree rfl acyclic "area"
      visited⟩

end Query

end CallSite
