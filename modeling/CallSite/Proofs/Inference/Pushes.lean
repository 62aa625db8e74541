import CallSite.Proofs.Inference.Attempts
import CallSite.Proofs.Inference.Guarded
import CallSite.Proofs.Inference.Realization
import CallSite.Proofs.Inference.Returns
import CallSite.Proofs.Scope.Named
import CallSite.Proofs.Ty.Pushing

/-!
# Building a list by pushes

A list may be written as a literal, or a variable starts out as an empty list and the elements are
pushed onto it.  Where the elements do not use the variable and call no lambda on the spot, both
ways come to the same type, and a push is rejected exactly where the literal is.
-/

namespace CallSite.Inference

/-! ## Named environments -/

/-- Every effect of a check leads from a named environment to a named one. -/
def naming : BodySimulation CheckM CheckM where
  rel action _ := ∀ state : State, state.env.Named → (action.run state).2.env.Named
  rel_pure _ _ named := named
  rel_bind first second state named := second _ _ (first state named)
  rel_report _ _ _ _ named := named
  rel_typeOf _ _ named := named
  rel_declare name type _ named := named.declared name type
  rel_assign name type _ named := named.assigned name type
  rel_rebind name type _ named := named.rebind name type
  rel_inBranch inner state named := (inner (state.openScope .branch) (named.opened .branch)).close

theorem named_checkBody (context : Context) (active : List String) (body : List Stmt)
    {state : State} (named : state.env.Named) :
    ((checkBody context (infer context active) body : CheckM (List Ty)).run state).2.env.Named := by
  have entered : ∀ invocation,
      naming.rel (infer context active invocation) (infer context active invocation) := by
    intro invocation state named
    exact named.untouched (enters_infer context active invocation state []).untouched
  exact naming.rel_checkBody (fun _ => rfl) entered body state named

/-! ## Expressions that do not use a variable -/

/-- The two states may differ in the type of the given variable, but not in those of others. -/
structure Apart (name : String) (one other : State) : Prop where
  named : one.env.Named
  otherNamed : other.env.Named
  types : ∀ variableName, variableName ≠ name →
    one.env.typeOf? variableName = other.env.typeOf? variableName

theorem Apart.untouched {name : String} {one other one' other' : State}
    (apart : Apart name one other) (left : one.env.Untouched one'.env)
    (right : other.env.Untouched other'.env) : Apart name one' other' where
  named := apart.named.untouched left
  otherNamed := apart.otherNamed.untouched right
  types variableName differs := by
    rw [apart.named.typeOf?_untouched left, apart.otherNamed.typeOf?_untouched right,
      apart.types variableName differs]

/-- The actions have the same value in two states that differ only in the given variable, and leave
all variables as they are. -/
def Oblivious {α : Type} (name : String) (left right : CheckM α) (post : α → Prop) : Prop :=
  ∀ one other : State, Apart name one other →
    (left.run one).1 = (right.run other).1 ∧ post (left.run one).1 ∧
      one.env.Untouched (left.run one).2.env ∧ other.env.Untouched (right.run other).2.env

theorem Oblivious.bind {α β : Type} {name : String} {left right : CheckM α}
    {leftNext rightNext : α → CheckM β} {post : α → Prop} {final : β → Prop}
    (first : Oblivious name left right post)
    (second : ∀ value, post value → Oblivious name (leftNext value) (rightNext value) final) :
    Oblivious name (left >>= leftNext) (right >>= rightNext) final := by
  intro one other apart
  obtain ⟨same, holds, leftFirst, rightFirst⟩ := first one other apart
  obtain ⟨result, after, leftSecond, rightSecond⟩ :=
    second _ holds _ _ (apart.untouched leftFirst rightFirst)
  have ran : (right >>= rightNext).run other =
      (rightNext (left.run one).1).run (right.run other).2 := by
    rw [same]
    rfl
  rw [ran]
  exact ⟨result, after, leftFirst.trans leftSecond, rightFirst.trans rightSecond⟩

def oblivious (name : String) : GuardedSimulation CheckM CheckM where
  allows
    | .var other => other ≠ name
    | .lambda => False
    | _ => True
  rel := Oblivious name
  rel_pure holds one other _ := ⟨rfl, holds, .refl one.env, .refl other.env⟩
  rel_bind := .bind
  rel_report problem position one other _ := ⟨rfl, trivial, .refl one.env, .refl other.env⟩
  rel_typeOf variableName differs one other apart := by
    refine ⟨?_, within_of_all (fun _ => trivial) _, .refl one.env, .refl other.env⟩
    change (one.env.typeOf? variableName).getD .unresolved =
      (other.env.typeOf? variableName).getD .unresolved
    rw [apart.types variableName differs]
  rel_declare lambdas := absurd lambdas id
  rel_assign lambdas := absurd lambdas id
  rel_rebind lambdas := absurd lambdas id
  rel_inBranch lambdas := absurd lambdas id

/-- The expression does not use the variable and calls no lambda on the spot. -/
structure AvoidedBy (context : Context) (name : String) (expression : Expr) : Prop where
  unused : .var name ∉ expression.uses context.hasFunction
  plain : .lambda ∉ expression.uses context.hasFunction

theorem AvoidedBy.allowed {context : Context} {name : String} {expression : Expr}
    (avoided : AvoidedBy context name expression) :
    (oblivious name).AllowsAll (expression.uses context.hasFunction) := by
  intro use member
  cases use with
  | var other =>
    rintro rfl
    exact avoided.unused member
  | lambda => exact avoided.plain member
  | _ => trivial

section Runs

variable (context : Context) (active : List String)

/-- The type of an expression in a state. -/
def valueIn (state : State) (expression : Expr) : Ty :=
  ((checkExpr context (infer context active) expression : CheckM Ty).run state).1

/-- The state after an expression was checked. -/
def stateAfter (state : State) (expression : Expr) : State :=
  ((checkExpr context (infer context active) expression : CheckM Ty).run state).2

variable {context}

theorem valueIn_eq_of_apart {name : String} {one other : State} (apart : Apart name one other)
    {expression : Expr} (avoided : AvoidedBy context name expression) :
    valueIn context active one expression = valueIn context active other expression ∧
      one.env.Untouched (stateAfter context active one expression).env := by
  have follows : (oblivious name).Follows (infer context active) (infer context active) := by
    intro invocation _ one other _
    have left := enters_infer context active invocation one []
    have right := enters_infer context active invocation other []
    exact ⟨left.value.trans right.value.symm, within_of_all (fun _ => trivial) _,
      left.untouched, right.untouched⟩
  obtain ⟨same, _, untouched, _⟩ :=
    GuardedSimulation.rel_checkExpr follows expression avoided.allowed one other apart
  exact ⟨same, untouched⟩

/-- The elements of a literal are all checked with the types that the variables have before it. -/
theorem value_checkExprs {name : String} {state : State} (named : state.env.Named)
    {expressions : List Expr} (avoided : ∀ expression ∈ expressions,
      AvoidedBy context name expression) {later : State} (untouched : state.env.Untouched later.env) :
    ((checkExprs context (infer context active) expressions : CheckM (List Ty)).run later).1 =
      expressions.map (valueIn context active state) := by
  induction expressions generalizing later with
  | nil => rfl
  | cons expression expressions ih =>
    have apart : Apart name later state :=
      ⟨named.untouched untouched, named, fun other _ => named.typeOf?_untouched untouched other⟩
    obtain ⟨same, more⟩ := valueIn_eq_of_apart active apart (avoided expression List.mem_cons_self)
    have rest := ih (fun other member => avoided other (List.mem_cons_of_mem _ member))
      (untouched.trans more)
    rw [List.map_cons, ← same, ← rest]
    rfl

/-! ## Pushes -/

/-- A push: where it stands, where its target stands, and the value that is pushed. -/
structure Push where
  position : Position
  spot : Position
  value : Expr

/-- The push as a statement, onto the variable of the given name. -/
def Push.onto (name : String) (push : Push) : Stmt :=
  .push push.position (.var push.spot name) push.value

/-- The variable is made an empty list, and then values are pushed onto it. -/
def building (name : String) (position place : Position) (pushes : List Push) : List Stmt :=
  .assign position name none .set (.list place []) :: pushes.map (·.onto name)

variable (context)

/-- The reports that a push makes itself, after its value was checked. -/
def pushReports (name : String) (state : State) (push : Push) : List Diagnostic :=
  attempted (pushOnto push.position (.var push.spot name)
    ((state.env.typeOf? name).getD .unresolved) (valueIn context active state push.value))
    (stateAfter context active state push.value)

/-- The reports that a list literal makes itself, after its elements were checked. -/
def literalReports (position : Position) (elements : List Expr) (state : State) :
    List Diagnostic :=
  let checked := (checkExprs context (infer context active) elements : CheckM (List Ty)).run state
  attempted (settle position (listRule checked.1)) checked.2

theorem attempted_checkPush (name : String) (push : Push) (state : State) :
    attempted (checkStmt context (infer context active) (push.onto name)) state =
      attempted (checkExpr context (infer context active) push.value) state ++
        pushReports context active name state push := by
  have inValue := blind_checkExpr context active push.value
  have onTarget (targetType valueType : Ty) :
      Blind (pushOnto push.position (.var push.spot name) targetType valueType) :=
    blind.rel_pushOnto push.position _ targetType valueType
  have inTarget := blind_checkExpr context active (.var push.spot name)
  rw [Push.onto, checkStmt, inTarget.attempted_bind fun targetType =>
    inValue.bind fun valueType => (onTarget targetType valueType).bind fun _ => .pure _]
  rw [inValue.attempted_bind fun valueType => (onTarget _ valueType).bind fun _ => .pure _,
    (onTarget _ _).attempted_bind fun _ => .pure _, attempted_pure, List.append_nil]
  rfl

theorem attempted_checkList (position : Position) (elements : List Expr) (state : State) :
    attempted (checkExpr context (infer context active) (.list position elements)) state =
      attempted (checkExprs context (infer context active) elements) state ++
        literalReports context active position elements state := by
  have inside : Blind (checkExprs context (infer context active) elements) :=
    blind.rel_checkExprs (fun _ => rfl) (blind.rel_infer context active) elements
  rw [checkExpr, inside.attempted_bind fun types =>
    blind.rel_settle position (findsTyping_listRule types)]
  rfl

/-! ## The state along the pushes -/

variable {context}

/-- The variable has the given type, and all others have the types they had in the first state. -/
structure Holding (name : String) (type : Ty) (origin state : State) : Prop where
  named : state.env.Named
  open_ : state.env.table.scopes ≠ []
  type : state.env.typeOf? name = some type
  others : ∀ other, other ≠ name → state.env.typeOf? other = origin.env.typeOf? other

theorem Holding.untouched {name : String} {type : Ty} {origin state later : State}
    (holding : Holding name type origin state) (untouched : state.env.Untouched later.env) :
    Holding name type origin later where
  named := holding.named.untouched untouched
  open_ := untouched.scopes ▸ holding.open_
  type := (holding.named.typeOf?_untouched untouched name).trans holding.type
  others other differs :=
    (holding.named.typeOf?_untouched untouched other).trans (holding.others other differs)

theorem Holding.assigned {name : String} {origin state : State} (named : state.env.Named)
    (open_ : state.env.table.scopes ≠ [])
    (others : ∀ other, other ≠ name → state.env.typeOf? other = origin.env.typeOf? other)
    (type : Ty) :
    Holding name type origin { state with env := state.env.assigned name type } where
  named := named.assigned name type
  open_ := Environment.Named.assigned_open open_ name type
  type := (named.typeOf?_assigned open_ name type name).trans (if_pos rfl)
  others other differs := by
    rw [named.typeOf?_assigned open_ name type other, if_neg differs]
    exact others other differs

theorem problem_of_pushRule_list {element value : Ty} {problem : Problem}
    (rejected : pushRule (.list element) value = .error problem) :
    problem = .pushedValueDiffers := by
  rw [pushRule] at rejected
  split at rejected
  · cases rejected
  · split at rejected
    · cases rejected
      rfl
    · cases rejected

/-- What a push onto a list does by itself: it gives the variable the type with one more element, or
it is rejected with one report and leaves the variable as it was. -/
theorem Holding.pushOnto {name : String} {element : Ty} {origin state : State}
    (holding : Holding name (.list element) origin state) (position spot : Position) (value : Ty) :
    Holding name ((Ty.list element).pushed value) origin
        ((pushOnto position (.var spot name) (.list element) value : CheckM Unit).run state).2 ∧
      attempted (pushOnto position (.var spot name) (.list element) value) state =
        if (Ty.list element).pushed? value = none then [⟨.pushedValueDiffers, position⟩]
        else [] := by
  unfold Inference.pushOnto Ty.pushed Ty.pushed?
  cases rule : pushRule (.list element) value with
  | error problem =>
    rw [problem_of_pushRule_list rule]
    exact ⟨⟨holding.named, holding.open_, holding.type, holding.others⟩, rfl⟩
  | ok refined =>
    cases refined with
    | none => exact ⟨holding, rfl⟩
    | some type =>
      exact ⟨.assigned holding.named holding.open_ holding.others type, rfl⟩

/-- One push in a state where the variable holds a list. -/
theorem Holding.push {name : String} {element : Ty} {origin state : State}
    (holding : Holding name (.list element) origin state) (named : origin.env.Named) {push : Push}
    (avoided : AvoidedBy context name push.value) :
    let value := valueIn context active origin push.value
    Holding name ((Ty.list element).pushed value) origin
        ((checkStmt context (infer context active) (push.onto name) :
          CheckM (List Ty)).run state).2 ∧
      pushReports context active name state push =
        if (Ty.list element).pushed? value = none then [⟨.pushedValueDiffers, push.position⟩]
        else [] := by
  intro value
  have apart : Apart name state origin := ⟨holding.named, named, holding.others⟩
  obtain ⟨same, untouched⟩ := valueIn_eq_of_apart active apart avoided
  have pushed := (holding.untouched untouched).pushOnto push.position push.spot value
  have target : (state.env.typeOf? name).getD .unresolved = .list element := by
    rw [holding.type]
    rfl
  constructor
  · have ran : ((checkStmt context (infer context active) (push.onto name) :
        CheckM (List Ty)).run state).2 =
        ((Inference.pushOnto push.position (.var push.spot name)
          ((state.env.typeOf? name).getD .unresolved)
          (valueIn context active state push.value) : CheckM Unit).run
            (stateAfter context active state push.value)).2 := rfl
    rw [ran, target, same]
    exact pushed.1
  · rw [pushReports, target, same]
    exact pushed.2

variable (context)

/-- The state after the variable was made an empty list and the values were pushed onto it. -/
def built (name : String) (position place : Position) (state : State) (pushes : List Push) : State :=
  ((checkBody context (infer context active) (building name position place pushes) :
    CheckM (List Ty)).run state).2

theorem built_concat (name : String) (position place : Position) (state : State)
    (pushes : List Push) (push : Push) :
    built context active name position place state (pushes ++ [push]) =
      ((checkStmt context (infer context active) (push.onto name) : CheckM (List Ty)).run
        (built context active name position place state pushes)).2 := by
  have split : building name position place (pushes ++ [push]) =
      building name position place pushes ++ [push.onto name] := by
    simp [building]
  rw [built, split, checkBody_append]
  rfl

variable {context}

/-- Along the pushes the variable has the type that the values before have come to. -/
theorem holding_built {name : String} {state : State} (named : state.env.Named)
    (open_ : state.env.table.scopes ≠ []) (position place : Position) {pushes : List Push}
    (avoided : ∀ push ∈ pushes, AvoidedBy context name push.value) :
    Holding name ((pushes.map fun push => valueIn context active state push.value).foldl Ty.pushed
      (.list .unresolved)) state (built context active name position place state pushes) := by
  induction pushes using List.reverseRecOn with
  | nil => exact .assigned named open_ (fun _ _ => rfl) (.list .unresolved)
  | append_singleton pushes push ih =>
    have before := ih fun other member => avoided other (List.mem_append_left _ member)
    rw [List.map_append, List.foldl_append, built_concat]
    obtain ⟨element, same⟩ := Ty.exists_foldl_pushed_list .unresolved
      (pushes.map fun push => valueIn context active state push.value)
    rw [same] at before ⊢
    exact (before.push active named (avoided push (by simp))).1

end Runs

/-! ## Pushes and the literal -/

section Literal

variable (context : Context) (active : List String)

/-- The push itself attempts to report that its value does not fit. -/
def PushRejected (name : String) (state : State) (push : Push) : Prop :=
  ⟨.pushedValueDiffers, push.position⟩ ∈ pushReports context active name state push

/-- The literal itself attempts to report that its elements differ. -/
def LiteralRejected (position : Position) (elements : List Expr) (state : State) : Prop :=
  ⟨.elementsDiffer, position⟩ ∈ literalReports context active position elements state

variable {context} {name : String} {state : State}

theorem pushRejected_iff (named : state.env.Named) (open_ : state.env.table.scopes ≠ [])
    (position place : Position) {earlier : List Push}
    (avoided : ∀ push ∈ earlier, AvoidedBy context name push.value) {push : Push}
    (avoidedLast : AvoidedBy context name push.value) :
    PushRejected context active name (built context active name position place state earlier)
        push ↔
      ((earlier.map fun push => valueIn context active state push.value).foldl Ty.pushed
        (.list .unresolved)).pushed? (valueIn context active state push.value) = none := by
  have holding := holding_built active named open_ position place avoided
  obtain ⟨element, same⟩ := Ty.exists_foldl_pushed_list .unresolved
    (earlier.map fun push => valueIn context active state push.value)
  rw [same] at holding ⊢
  rw [PushRejected, (holding.push active named avoidedLast).2]
  split
  · next rejected => simp [rejected]
  · next accepted => simp [accepted]

/-- From one push to the next the type of the variable moves up, or it is the same where the push
is rejected. -/
theorem exists_types_of_push (named : state.env.Named) (open_ : state.env.table.scopes ≠ [])
    (position place : Position) {earlier : List Push}
    (avoided : ∀ push ∈ earlier, AvoidedBy context name push.value) {push : Push}
    (avoidedLast : AvoidedBy context name push.value) :
    ∃ before next,
      (built context active name position place state earlier).env.typeOf? name = some before ∧
      (built context active name position place state (earlier ++ [push])).env.typeOf? name =
        some next ∧ before ≤ next ∧
      (PushRejected context active name (built context active name position place state earlier)
        push → next = before) := by
  have holding := holding_built active named open_ position place avoided
  have rejected := pushRejected_iff active named open_ position place avoided avoidedLast
  obtain ⟨element, same⟩ := Ty.exists_foldl_pushed_list .unresolved
    (earlier.map fun push => valueIn context active state push.value)
  rw [same] at holding rejected
  obtain ⟨refined, pushed, above⟩ :=
    Ty.exists_pushed_list element (valueIn context active state push.value)
  refine ⟨.list element, .list refined, holding.type, ?_, above, fun refused => ?_⟩
  · rw [built_concat, ← pushed]
    exact (holding.push active named avoidedLast).1.type
  · rw [← pushed, Ty.pushed, rejected.mp refused]
    rfl

theorem literalRejected_iff (named : state.env.Named) (position : Position)
    {elements : List Expr} (avoided : ∀ element ∈ elements, AvoidedBy context name element) :
    LiteralRejected context active position elements state ↔
      Ty.listOf? (elements.map (valueIn context active state)) = none := by
  rw [LiteralRejected, literalReports, value_checkExprs active named avoided (.refl state.env),
    attempted_settle, listRule]
  cases Ty.listOf? (elements.map (valueIn context active state)) with
  | none => simp [reported]
  | some type => simp [reported]

theorem valueIn_literal (named : state.env.Named) (position : Position) {elements : List Expr}
    (avoided : ∀ element ∈ elements, AvoidedBy context name element) {type : Ty}
    (listed : Ty.listOf? (elements.map (valueIn context active state)) = some type) :
    valueIn context active state (.list position elements) = type := by
  let checked := (checkExprs context (infer context active) elements : CheckM (List Ty)).run state
  have types : checked.1 = elements.map (valueIn context active state) :=
    value_checkExprs active named avoided (.refl state.env)
  change ((settle position (listRule checked.1) : CheckM Ty).run checked.2).1 = type
  rw [types, listRule, listed]
  rfl

end Literal

/-- To push values onto an empty list and to write them as a literal come to the same.  One of the
pushes is rejected exactly where the literal is, and otherwise the variable has the type of the
literal in the end.  Along the pushes its type only moves up, and a rejected push leaves it as it
was.  What a push or a literal reports by itself comes after the reports of what it holds. -/
theorem pushes_agree_with_literal (context : Context) (active : List String) (state : State)
    (named : state.env.Named) (open_ : state.env.table.scopes ≠ []) (name : String)
    (pushes : List Push) (avoided : ∀ push ∈ pushes, AvoidedBy context name push.value)
    (position place literal : Position) :
    let run := built context active name position place state
    let elements := pushes.map (·.value)
    (∀ earlier push later, pushes = earlier ++ push :: later →
      attempted (checkStmt context (infer context active) (push.onto name)) (run earlier) =
          attempted (checkExpr context (infer context active) push.value) (run earlier) ++
            pushReports context active name (run earlier) push ∧
        ∃ before next, (run earlier).env.typeOf? name = some before ∧
          (run (earlier ++ [push])).env.typeOf? name = some next ∧ before ≤ next ∧
          (PushRejected context active name (run earlier) push → next = before)) ∧
    attempted (checkExpr context (infer context active) (.list literal elements)) state =
      attempted (checkExprs context (infer context active) elements) state ++
        literalReports context active literal elements state ∧
    ((∃ earlier push later, pushes = earlier ++ push :: later ∧
        PushRejected context active name (run earlier) push) ↔
      LiteralRejected context active literal elements state) ∧
    (¬ LiteralRejected context active literal elements state →
      (run pushes).env.typeOf? name =
        some (valueIn context active state (.list literal elements))) := by
  intro run elements
  have inElements : ∀ element ∈ elements, AvoidedBy context name element := by
    intro element member
    obtain ⟨push, inside, rfl⟩ := List.mem_map.mp member
    exact avoided push inside
  have values : elements.map (valueIn context active state) =
      pushes.map fun push => valueIn context active state push.value := by
    rw [List.map_map]
    rfl
  have literalFails := literalRejected_iff active named literal inElements
  rw [values, Ty.listOf?_eq_foldlM] at literalFails
  have keepAway : ∀ {earlier push later}, pushes = earlier ++ push :: later →
      (∀ other ∈ earlier, AvoidedBy context name other.value) ∧
        AvoidedBy context name push.value := by
    rintro earlier push later rfl
    exact ⟨fun other member => avoided other (List.mem_append_left _ member),
      avoided push (by simp)⟩
  refine ⟨?_, attempted_checkList context active literal elements state, ?_, ?_⟩
  · intro earlier push later split
    obtain ⟨before, here⟩ := keepAway split
    exact ⟨attempted_checkPush context active name push (run earlier),
      exists_types_of_push active named open_ position place before here⟩
  · rw [literalFails, Ty.foldlM_pushed?_eq_none_iff]
    constructor
    · rintro ⟨earlier, push, later, split, rejected⟩
      obtain ⟨before, here⟩ := keepAway split
      refine ⟨_, _, _, by rw [split, List.map_append, List.map_cons], ?_⟩
      exact (pushRejected_iff active named open_ position place before here).mp rejected
    · rintro ⟨before, type, rest, split, rejected⟩
      obtain ⟨earlier, tail, whole, rfl, tailSplit⟩ := List.map_eq_append_iff.mp split
      obtain ⟨push, later, rfl, rfl, _⟩ := List.map_eq_cons_iff.mp tailSplit
      obtain ⟨before, here⟩ := keepAway whole
      exact ⟨earlier, push, later, whole,
        (pushRejected_iff active named open_ position place before here).mpr rejected⟩
  · intro accepted
    rw [literalFails] at accepted
    obtain ⟨whole, listed⟩ := Option.ne_none_iff_exists'.mp accepted
    have ended := (holding_built active named open_ position place avoided).type
    rw [Ty.foldl_pushed_of_foldlM listed] at ended
    rw [← Ty.listOf?_eq_foldlM, ← values] at listed
    rw [valueIn_literal active named literal inElements listed]
    exact ended

/-- An empty list, a list that a function makes of a variable, and a string, pushed inside a branch
onto a variable of the body around it that was a string before.  The string does not fit. -/
theorem string_pushed_onto_lists :
    let wrap : Function := .ofName ⟨"wrap", .atLine 1⟩ [⟨⟨"v", .atLine 1⟩, none⟩]
      [.ret (.atLine 2) (some (.list (.atLine 2) [.var (.atLine 2) "v"]))]
    let context : Context := ⟨[wrap], [], [], false⟩
    let before : List Stmt := [.assign (.atLine 3) "n" none .set (.int (.atLine 3) 1),
      .assign (.atLine 4) "xs" none .set (.string (.atLine 4) "a")]
    let body : State := { env := ({} : Environment).opened .body, sink := .plain }
    let outer := ((checkBody context (infer context []) before : CheckM (List Ty)).run body).2
    let state := outer.openScope .branch
    let pushes : List Push := [⟨.atLine 7, .atLine 7, .list (.atLine 7) []⟩,
      ⟨.atLine 8, .atLine 8, .call (.atLine 8) (.var (.atLine 8) "wrap") [.var (.atLine 8) "n"]⟩,
      ⟨.atLine 9, .atLine 9, .string (.atLine 9) "b"⟩]
    let run := built context [] "xs" (.atLine 6) (.atLine 6) state
    state.env.Named ∧ state.env.table.scopes ≠ [] ∧
      (∀ push ∈ pushes, AvoidedBy context "xs" push.value) ∧
      (∃ earlier push later, pushes = earlier ++ push :: later ∧
        PushRejected context [] "xs" (run earlier) push) ∧
      LiteralRejected context [] (.atLine 10) (pushes.map (·.value)) state ∧
      (run pushes).env.typeOf? "xs" = some (.list (.list .int)) := by
  intro wrap context before body outer state pushes run
  have empty : body.env.Named := (Environment.named_of_no_scopes rfl).opened .body
  have named : state.env.Named := (named_checkBody context [] before empty).opened .branch
  have open_ : state.env.table.scopes ≠ [] := List.cons_ne_nil _ _
  have avoided : ∀ push ∈ pushes, AvoidedBy context "xs" push.value := by
    intro push member
    simp only [pushes, List.mem_cons, List.not_mem_nil, or_false] at member
    rcases member with rfl | rfl | rfl
    all_goals exact ⟨by decide, by decide⟩
  have rejected : LiteralRejected context [] (.atLine 10) (pushes.map (·.value)) state := by
    have reports : literalReports context [] (.atLine 10) (pushes.map (·.value)) state =
        [⟨.elementsDiffer, .atLine 10⟩] := by decide +kernel
    rw [LiteralRejected, reports]
    exact List.mem_cons_self
  have agree := pushes_agree_with_literal context [] state named open_ "xs" pushes avoided
    (.atLine 6) (.atLine 6) (.atLine 10)
  exact ⟨named, open_, avoided, agree.2.2.1.mpr rejected, rejected, by decide +kernel⟩

end CallSite.Inference
