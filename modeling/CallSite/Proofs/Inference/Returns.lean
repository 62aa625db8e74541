import CallSite.Proofs.Inference.Answers
import CallSite.Proofs.Inference.Attempts
import CallSite.Proofs.Inference.History
import CallSite.Proofs.SymbolTable.Records
import CallSite.Proofs.Ty.Unification

/-!
# What a call returns

The check of a body finds one type for each of its return statements, at any depth of branches and
loops but not inside lambdas, in reading order.  A call has the type that these types agree on, it
reports where they do not agree, and the entry of the function keeps the type.
-/

namespace CallSite

mutual

/-- The return statements in a statement, outside lambdas and in reading order. -/
def Stmt.returns : Stmt → List Stmt
  | .ret position value => [.ret position value]
  | .ifElse _ _ thenBody elseBody => Stmt.returnsOfAll thenBody ++ Stmt.returnsOfAll elseBody
  | .loop _ body | .forEach _ _ _ body => Stmt.returnsOfAll body
  | .expr _ _ | .put _ _ | .assign _ _ _ _ _ | .push _ _ _ | .breakWhen _ _ | .nextWhen _ _ => []
termination_by structural statement => statement

def Stmt.returnsOfAll : List Stmt → List Stmt
  | [] => []
  | statement :: statements => statement.returns ++ Stmt.returnsOfAll statements
termination_by structural statements => statements

end

namespace Inference

section Bodies

variable (context : Context) (enter : Invocation → CheckM Ty)

theorem types_answerBody (statements : List Stmt) (state : State) :
    ((answerBody context enter statements).run state).1.types =
      ((checkBody context enter statements).run state).1 := by
  rw [← map_answerBody]
  rfl

mutual

/-- Each type is found for one return statement, and in the order in which they are read. -/
theorem statements_answerStmt : ∀ (statement : Stmt) (state : State),
    ((answerStmt context enter statement).run state).1.returns.map Prod.fst = statement.returns
  | .ret _ none, _ | .ret _ (some _), _ | .expr _ _, _ | .put _ _, _ | .assign _ _ _ _ _, _
  | .push _ _ _, _ | .breakWhen _ _, _ | .nextWhen _ _, _ => rfl
  | .ifElse _ conditions thenBody elseBody, state => by
    rw [Stmt.returns, ← statements_answerBody thenBody, ← statements_answerBody elseBody]
    exact List.map_append
  | .loop _ body, state => statements_answerBody body _
  | .forEach _ _ _ body, state => statements_answerBody body _
termination_by structural statement => statement

theorem statements_answerBody : ∀ (statements : List Stmt) (state : State),
    ((answerBody context enter statements).run state).1.returns.map Prod.fst =
      Stmt.returnsOfAll statements
  | [], _ => rfl
  | statement :: statements, state => by
    rw [Stmt.returnsOfAll, ← statements_answerStmt statement state,
      ← statements_answerBody statements _]
    exact List.map_append
termination_by structural statements => statements

end

mutual

/-- Each type is what the check of its return statement finds, in a state that the check reaches. -/
theorem found_answerStmt : ∀ (statement : Stmt) (state : State),
    ∀ entry ∈ ((answerStmt context enter statement).run state).1.returns,
      ∃ reached, ((checkStmt context enter entry.1).run reached).1 = [entry.2]
  | .ret _ none, state | .ret _ (some _), state => by
    intro entry member
    obtain rfl := List.mem_singleton.mp member
    exact ⟨state, rfl⟩
  | .expr _ _, _ | .put _ _, _ | .assign _ _ _ _ _, _ | .push _ _ _, _ | .breakWhen _ _, _
  | .nextWhen _ _, _ => fun _ member => absurd member List.not_mem_nil
  | .ifElse _ _ thenBody elseBody, _ => by
    intro entry member
    rcases List.mem_append.mp member with first | second
    · exact found_answerBody thenBody _ entry first
    · exact found_answerBody elseBody _ entry second
  | .loop _ body, _ | .forEach _ _ _ body, _ => found_answerBody body _
termination_by structural statement => statement

theorem found_answerBody : ∀ (statements : List Stmt) (state : State),
    ∀ entry ∈ ((answerBody context enter statements).run state).1.returns,
      ∃ reached, ((checkStmt context enter entry.1).run reached).1 = [entry.2]
  | [], _ => fun _ member => absurd member List.not_mem_nil
  | statement :: statements, state => by
    intro entry member
    rcases List.mem_append.mp member with first | rest
    · exact found_answerStmt statement state entry first
    · exact found_answerBody statements _ entry rest
termination_by structural statements => statements

end

theorem noValue_answerBody (statements : List Stmt) (state : State) (position : Position)
    (type : Ty) (member : (.ret position none, type) ∈
      ((answerBody context enter statements).run state).1.returns) : type = .noValue := by
  obtain ⟨reached, found⟩ := found_answerBody context enter statements state _ member
  exact (List.singleton_inj.mp found).symm

/-- The check of a body goes on from where the check of its first part ends, and adds to what that
part returned. -/
theorem checkBody_append (first second : List Stmt) :
    checkBody context enter (first ++ second) = (do
      let early ← checkBody context enter first
      let late ← checkBody context enter second
      pure (early ++ late)) := by
  induction first with
  | nil => simp only [List.nil_append, checkBody, pure_bind, bind_pure]
  | cons statement statements ih =>
    simp only [List.cons_append, checkBody, ih, bind_assoc, pure_bind, List.append_assoc]

theorem prefix_checkBody (first second : List Stmt) (state : State) :
    ((checkBody context enter first).run state).1 <+:
      ((checkBody context enter (first ++ second)).run state).1 := by
  rw [checkBody_append]
  exact List.prefix_append _ _

end Bodies

/-! ## The type of a call -/

theorem attempted_returns (position : Position) (problem : Problem) (returns : List Ty)
    (state : State) :
    attempted (settle position (returnRule problem returns)) state =
      if Ty.Agreeing (Ty.known returns) then [] else [⟨problem, position⟩] := by
  rw [attempted_settle, (returnRule_spec problem position returns).2, disagreement]
  by_cases agreeing : Ty.Agreeing (Ty.known returns)
  · obtain ⟨type, unified⟩ :=
      Option.isSome_iff_exists.mp ((Ty.isSome_unifyReturns_iff returns).mpr agreeing)
    rw [if_pos agreeing, unified]
  · have apart : Ty.unifyReturns returns = none := by
      rwa [← Option.not_isSome_iff_eq_none, Ty.isSome_unifyReturns_iff]
    rw [if_neg agreeing, apart]

/-- A call that is followed enters the function. -/
theorem infer_call {m : Type → Type} [Monad m] [MonadInfer m] {context : Context}
    {active : List String} {name : String} {function : Function}
    (declared : context.function? name = some function)
    (followed : context.refuses active name = false) (types : List Ty) :
    (infer context active (.call name types) : m Ty) =
      enterFunction context (infer context (name :: active)) function types := by
  rw [infer_eq_follow, follow_call declared followed]

theorem value_enterFunction (context : Context) (enter : Invocation → CheckM Ty)
    (function : Function) (types : List Ty) (state : State) :
    let start := (state.visit function.name.name).openScope .body
    let bound := (bindParams context enter function.params types).run start
    let checked := (checkBody context enter function.body).run bound.2
    ((enterFunction context enter function types).run state).1 =
      (Ty.unifyReturns checked.1).getD .unresolved := by
  intro start bound checked
  let problem : Problem := .functionReturnsDiffer function.name.baseName
  rw [← (returnRule_spec problem function.position checked.1).1]
  exact congrArg Prod.fst (run_settle function.position _ checked.2)

theorem attempted_enterFunction (context : Context) (active : List String) (function : Function)
    (types : List Ty) (state : State) :
    let enter : Invocation → CheckM Ty := infer context active
    let start := (state.visit function.name.name).openScope .body
    let bound := (bindParams context enter function.params types).run start
    let checked := (checkBody context enter function.body).run bound.2
    attempted (enterFunction context enter function types) state =
      attempted (bindParams context enter function.params types) start ++
        attempted (checkBody context enter function.body) bound.2 ++
          attempted (settle function.position
            (returnRule (.functionReturnsDiffer function.name.baseName) checked.1)) checked.2 := by
  intro enter start bound checked
  have inParams : Blind (bindParams context enter function.params types) :=
    blind.rel_bindParams (fun _ => rfl) (blind.rel_infer context active) function.params types
  have inBody : Blind (checkBody context enter function.body) :=
    blind.rel_checkBody (fun _ => rfl) (blind.rel_infer context active) function.body
  have atEnd (returns : List Ty) : Blind (settle function.position
      (returnRule (.functionReturnsDiffer function.name.baseName) returns) : CheckM Ty) :=
    blind.rel_settle function.position (findsTyping_returnRule rfl returns)
  have last (params : List Ty) (returned : Ty) : Blind (pure (params, returned)) := .pure _
  rw [enterFunction, attempted_inCall, checkFunction, inParams.attempted_bind fun params =>
      inBody.bind fun returns => (atEnd returns).bind (last params),
    inBody.attempted_bind fun returns => (atEnd returns).bind (last bound.1),
    (atEnd checked.1).attempted_bind (last bound.1), attempted_pure, List.append_nil,
    List.append_assoc]

/-- The entry of a called function keeps the type of the call. -/
theorem returns_enterFunction (context : Context) (enter : Invocation → CheckM Ty)
    (function : Function) (types : List Ty) (state : State) :
    let call := (enterFunction context enter function types).run state
    ∀ entry ∈ call.2.env.table.function? function.name.name, entry.returns = call.1 := by
  intro call entry member
  let body := (checkFunction context enter function types).run
    ((state.visit function.name.name).openScope .body)
  have updated := body.2.closeScope.env.table.function?_updateFunction function.name.name
    function.name.name (·.record body.1.1 body.1.2 body.2.scope?) fun _ => rfl
  rw [if_pos rfl] at updated
  obtain ⟨before, _, rfl⟩ := Option.map_eq_some_iff.mp (updated.symm.trans member)
  rfl

end Inference

namespace Checker

open Inference

/-- A call that is followed finds one type for each return statement of the function's body, in
reading order and not inside lambdas; a part of the body is checked without regard to what follows
it.  Without returns the call has no value.  Otherwise the known types decide: they have a least
upper bound if they agree pairwise, and that is the type of the call; where they do not agree, the
call makes one report, under the name and at the position of the function.  The entry of the
function keeps the type of the call. -/
theorem call_unifies_returns (checker : Checker) {active : List String} {name : String}
    {entry : FunctionEntry} (declared : checker.state.env.table.function? name = some entry)
    (followed : checker.context.refuses active name = false) (types : List Ty) :
    let function := entry.declaration
    let inner : Invocation → CheckM Ty := infer checker.context (name :: active)
    let start := (checker.state.visit name).openScope .body
    let bound := (bindParams checker.context inner function.params types).run start
    let checked := (checkBody checker.context inner function.body).run bound.2
    let labelled := ((answerBody checker.context inner function.body).run bound.2).1.returns
    let known := Ty.known checked.1
    let call := checker.follow active (.call name types)
    labelled.map Prod.fst = Stmt.returnsOfAll function.body ∧
    labelled.map Prod.snd = checked.1 ∧
    (∀ found ∈ labelled, ∃ reached,
      ((checkStmt checker.context inner found.1).run reached).1 = [found.2]) ∧
    (∀ position type, (Stmt.ret position none, type) ∈ labelled → type = .noValue) ∧
    (∀ first second, function.body = first ++ second →
      ((checkBody checker.context inner first).run bound.2).1 <+: checked.1) ∧
    (checked.1 = [] → call.1 = .noValue) ∧
    (checked.1 ≠ [] → (∀ type ∈ checked.1, type = .unresolved) → call.1 = .unresolved) ∧
    (known ≠ [] → Ty.Agreeing known → IsLUB {type | type ∈ known} call.1) ∧
    (¬ Ty.Agreeing known → call.1 = .unresolved) ∧
    attempted (infer checker.context active (.call name types)) checker.state =
      attempted (bindParams checker.context inner function.params types) start ++
        attempted (checkBody checker.context inner function.body) bound.2 ++
          (if Ty.Agreeing known then []
            else [⟨.functionReturnsDiffer function.name.baseName, function.position⟩]) ∧
    call.2.sink = checker.state.sink.reportAll
      (attempted (infer checker.context active (.call name types)) checker.state) ∧
    ∃ stored, call.2.env.table.function? name = some stored ∧ stored.returns = call.1 := by
  have found : checker.context.function? name = some entry.declaration := by
    rw [context, Context.function?_ofTable, declared]
    rfl
  obtain rfl := Context.name_of_function? found
  intro function inner start bound checked labelled known call
  have entered : (infer checker.context active (.call function.name.name types) : CheckM Ty) =
      enterFunction checker.context inner function types := infer_call found followed types
  have ran : call = (enterFunction checker.context inner function types).run checker.state :=
    congrArg (fun action : CheckM Ty => action.run checker.state) entered
  have value : call.1 = (Ty.unifyReturns checked.1).getD .unresolved := by
    rw [ran]
    exact value_enterFunction checker.context inner function types checker.state
  have unified := Ty.unifyReturns_spec checked.1
  rw [← value] at unified
  obtain ⟨nothing, unknown, bounded, apart⟩ := unified
  refine ⟨statements_answerBody _ _ _ _, types_answerBody _ _ _ _, found_answerBody _ _ _ _,
    noValue_answerBody _ _ _ _, ?_, nothing, unknown, bounded, apart, ?_, ?_, ?_⟩
  · intro first second parts
    have early := prefix_checkBody checker.context inner first second bound.2
    rwa [← parts] at early
  · rw [entered, ← attempted_returns]
    exact attempted_enterFunction checker.context (function.name.name :: active) function types
      checker.state
  · have quiet : Blind (infer checker.context active (.call function.name.name types)) :=
      blind.rel_infer checker.context active _
    exact quiet.sink_run checker.state
  · have notRemoved := (checker.alike_follow active (.call function.name.name types)).function?
      function.name.name
    rw [declared] at notRemoved
    obtain ⟨stored, there, _⟩ := Option.map_eq_some_iff.mp notRemoved.symm
    refine ⟨stored, there, ?_⟩
    change call.2.env.table.function? function.name.name = some stored at there
    rw [ran] at there ⊢
    exact returns_enterFunction checker.context inner function types checker.state stored there

/-- A function that returns from a branch, from a loop inside a branch and from an iteration, and
that has a lambda with a return of its own. -/
def choice : Function :=
  .ofName ⟨"choose", .atLine 1⟩ [⟨⟨"flag", .atLine 1⟩, none⟩]
    [.ifElse (.atLine 2) [.var (.atLine 2) "flag"]
      [.ret (.atLine 3) (some (.list (.atLine 3) []))]
      [.loop (.atLine 4) [.ret (.atLine 5) (some (.list (.atLine 5) [.int (.atLine 5) 1]))]],
    .assign (.atLine 6) "name" none .set
      (.lambda (.atLine 6) [] [.ret (.atLine 6) (some (.string (.atLine 6) "s"))]),
    .forEach (.atLine 7) "item" (.value (.var (.atLine 7) "missing"))
      [.ret (.atLine 8) (some (.var (.atLine 8) "item"))]]

/-- The empty list and the list of whole numbers agree, and the returned element is not known. -/
theorem choice_unifies_lists :
    let checker := ({ state := { sink := .plain } } : Checker).register
      ⟨[choice], [], ⟨[], .atLine 9⟩⟩
    let call := checker.follow [] (.call "choose" [.bool])
    checker.state.env.table.function? "choose" = some (.fresh choice) ∧
      checker.context.refuses [] "choose" = false ∧
      Ty.Agreeing [.list .unresolved, .list .int] ∧
      IsLUB {type | type ∈ [Ty.list .unresolved, .list .int]} call.1 ∧
      ∃ stored, call.2.env.table.function? "choose" = some stored ∧ stored.returns = call.1 := by
  intro checker call
  have declared : checker.state.env.table.function? "choose" = some (.fresh choice) := rfl
  have followed : checker.context.refuses [] "choose" = false := rfl
  have agreeing : Ty.Agreeing [.list .unresolved, .list .int] := by decide
  obtain ⟨_, _, _, _, _, _, _, unified, _, _, _, stored⟩ :=
    call_unifies_returns checker declared followed [.bool]
  let inner : Invocation → CheckM Ty := infer checker.context ["choose"]
  let bound := (bindParams checker.context inner choice.params [.bool]).run
    ((checker.state.visit "choose").openScope .body)
  have types : Ty.known ((checkBody checker.context inner choice.body).run bound.2).1 =
      [.list .unresolved, .list .int] := by decide +kernel
  have least := unified (types ▸ List.cons_ne_nil _ _) (types ▸ agreeing)
  exact ⟨declared, followed, agreeing, types ▸ least, stored⟩

end Checker

end CallSite
