import CallSite.Proofs.Inference.Grants
import Mathlib.Logic.Relation

/-!
# What the main body reaches

Code mentions a declaration where it calls a function by its name, points to a function or matches
with a pattern.  The declarations that the main body reaches are those that it mentions and those
that are mentioned, in turn, in the code of what it reaches.  Inference enters nothing else: what it
asks for is mentioned in the code that asks for it, or pointed to in code that was entered before.
-/

namespace CallSite

/-- The declaration that an expression itself mentions, if there is one of that name. -/
def Expr.mentioned? : Expr → Option Owner
  | .call _ (.var _ name) _ | .pointer _ name => some (.function name)
  | .matching _ name _ => some (.pattern name)
  | _ => none

/-- What some code mentions, part by part. -/
def Expr.mentionsIn (parts : List Expr) : List Owner := parts.filterMap Expr.mentioned?

def Owner.DeclaredIn (program : Program) : Owner → Prop
  | main => False
  | function name => name ∈ program.functionNames
  | pattern name => name ∈ program.patternNames

namespace Program

/-- The expressions in the code of an owner.  Of declarations that share a name it is the first. -/
def partsOf (program : Program) : Owner → List Expr
  | .main => Stmt.partsOfAll program.main.body
  | .function name => ((program.function? name).map Function.parts).getD []
  | .pattern name => ((program.pattern? name).map Pattern.parts).getD []

/-- The code of an owner mentions something declared. -/
def Mentions (program : Program) (owner item : Owner) : Prop :=
  item.DeclaredIn program ∧ item ∈ Expr.mentionsIn (program.partsOf owner)

/-- The main body mentions the declaration, or something that it reaches does. -/
def Reaches (program : Program) (item : Owner) : Prop :=
  Relation.TransGen program.Mentions .main item

end Program

namespace Inference

/-! ## What an invocation leads to -/

namespace Context

/-- The context has the first declaration of each name that the program has. -/
structure Presents (context : Context) (program : Program) : Prop where
  functions : ∀ name, context.function? name = program.function? name
  patterns : ∀ name, context.pattern? name = program.pattern? name

theorem presents_ofTable (program : Program) (blocked : List String) (infersCyclic : Bool) :
    (ofTable program.table blocked infersCyclic).Presents program where
  functions name := (function?_ofTable ..).trans (program.function?_table name)
  patterns name := (pattern?_ofTable ..).trans (program.pattern?_table name)

variable {context : Context} {program : Program}

theorem Presents.declares_iff (presents : context.Presents program) (invocation : Invocation) :
    context.Declares invocation ↔ invocation.owner.DeclaredIn program := by
  cases invocation with
  | call name types =>
    rw [Declares, presents.functions]
    exact program.isSome_function?_iff name
  | matching name type =>
    rw [Declares, presents.patterns]
    exact program.isSome_pattern?_iff name

theorem Presents.hasFunction_iff (presents : context.Presents program) (name : String) :
    context.hasFunction name = true ↔ name ∈ program.functionNames :=
  presents.declares_iff (.call name [])

theorem Presents.partsOf_function (presents : context.Presents program) {name : String}
    {function : Function} (found : context.function? name = some function) :
    program.partsOf (.function name) = function.parts := by
  rw [Program.partsOf, ← presents.functions, found]
  rfl

theorem Presents.partsOf_pattern (presents : context.Presents program) {name : String}
    {pattern : Pattern} (found : context.pattern? name = some pattern) :
    program.partsOf (.pattern name) = pattern.parts := by
  rw [Program.partsOf, ← presents.patterns, found]
  rfl

end Context

/-! ## What may be asked for -/

namespace Licence

/-- The licence to ask for what the main body reaches. -/
def reaching (program : Program) : Licence where
  calls _ name := program.Reaches (.function name)
  patterns _ name := name ∈ program.patternNames → program.Reaches (.pattern name)
  pointers name := name ∈ program.functionNames → program.Reaches (.function name)
  unseen _ := True

section Reaching

variable {program : Program} {context : Context} (presents : context.Presents program)

include presents

/-- What is written in the code of the main body or of a declaration that it reaches is granted. -/
theorem grants_reaching {owner : Owner}
    (reached : Relation.ReflTransGen program.Mentions .main owner) {part : Expr}
    (member : part ∈ program.partsOf owner) : (reaching program).Grants context owner part := by
  have mentioned : ∀ item, part.mentioned? = some item → item.DeclaredIn program →
      program.Reaches item := by
    intro item named declared
    exact .tail' reached ⟨declared, List.mem_filterMap.mpr ⟨part, member, named⟩⟩
  cases part with
  | pointer position function => exact mentioned (.function function) rfl
  | matching position pattern argument => exact mentioned (.pattern pattern) rfl
  | call position callee arguments =>
    cases callee with
    | var place name =>
      intro declared
      exact mentioned (.function name) rfl ((presents.hasFunction_iff name).mp declared)
    | _ => trivial
  | _ => trivial

/-- What is declared and may be asked for is reached. -/
theorem reaches_of_admitted {owner : Owner} {invocation : Invocation}
    (admitted : (reaching program).AdmitsInvocation owner invocation)
    (declared : context.Declares invocation) : program.Reaches invocation.owner := by
  rw [presents.declares_iff] at declared
  cases invocation with
  | call name types => exact admitted.1.elim id fun pointed => pointed declared
  | matching name type => exact admitted.1 declared

theorem reaches_of_nested {owner : Owner} {stack : List Owner}
    (nested : (reaching program).Nested context (owner :: stack)) : program.Reaches owner := by
  cases nested with
  | call _ admitted _ declared => exact reaches_of_admitted presents admitted declared
  | matching _ admitted _ declared => exact reaches_of_admitted presents admitted declared

/-- The code that a run can enter asks only for what the main body reaches. -/
theorem coversEntered_reaching :
    (reaching program).CoversEntered context program.main.body where
  functions {stack name function} nested found := by
    have reached := (reaches_of_nested presents nested).to_reflTransGen
    refine admitsFunction_of_parts (fun _ => trivial) fun part member => ?_
    rw [Context.name_of_function? found]
    exact grants_reaching presents reached (presents.partsOf_function found ▸ member)
  patterns {stack name pattern} nested found := by
    have reached := (reaches_of_nested presents nested).to_reflTransGen
    refine admitsPattern_of_parts (fun _ => trivial) fun part member => ?_
    rw [Context.name_of_pattern? found]
    exact grants_reaching presents reached (presents.partsOf_pattern found ▸ member)
  main := admitsBody_of_parts (fun _ => trivial) _ _ fun _ member =>
    grants_reaching presents .refl member

end Reaching

end Licence

/-! ## Visited declarations were asked for -/

/-- Something declared under the name was asked for. -/
def Asked (context : Context) (demands : List Demand) (name : String) : Prop :=
  ∃ stack invocation refused, .invoke stack invocation refused ∈ demands ∧
    invocation.name = name ∧ context.Declares invocation

/-- Every visited name was asked for. -/
def Noted (context : Context) (traced : Traced) : Prop :=
  ∀ name ∈ traced.state.visited.names, Asked context traced.demands name

namespace Noted

variable {context : Context} {traced : Traced}

theorem note (noted : Noted context traced) (demand : Demand) :
    Noted context (traced.note demand) := by
  intro name member
  obtain ⟨stack, invocation, refused, asked, rest⟩ := noted name member
  exact ⟨stack, invocation, refused, List.mem_cons_of_mem demand asked, rest⟩

/-- What was asked for may be visited. -/
theorem visit (noted : Noted context traced) {name : String}
    (asked : Asked context traced.demands name) :
    Noted context { traced with state := traced.state.visit name } := by
  intro other member
  rcases (NameSet.mem_insert _ _ _).mp member with rfl | earlier
  · exact asked
  · exact noted other earlier

end Noted

/-- Every check of a body keeps it so that what is visited was asked for. -/
def noting (context : Context) : BodySimulation TraceM TraceM where
  rel left _ := ∀ traced, Noted context traced → Noted context (left.run traced).2
  rel_pure _ _ noted := noted
  rel_bind first second traced noted := second _ _ (first traced noted)
  rel_report _ _ _ _ noted := noted
  rel_typeOf _ _ noted := noted.note _
  rel_declare _ _ _ noted := noted
  rel_assign _ _ _ noted := noted
  rel_rebind _ _ _ noted := noted
  rel_inBranch inner traced noted :=
    inner { traced with state := traced.state.openScope .branch } noted

theorem noted_inCall {context : Context} {function : String} {action : TraceM (List Ty × Ty)}
    (inner : (noting context).rel action action) {traced : Traced} (noted : Noted context traced)
    (asked : Asked context traced.demands function) :
    Noted context ((inCall function action).run traced).2 :=
  inner { traced with
    state := (traced.state.visit function).openScope .body
    stack := .function function :: traced.stack } (noted.visit asked)

theorem noted_inMatch {context : Context} {pattern : String} (type : Ty) {action : TraceM Ty}
    (inner : (noting context).rel action action) {traced : Traced} (noted : Noted context traced)
    (asked : Asked context traced.demands pattern) :
    Noted context ((inMatch pattern type action).run traced).2 :=
  inner { traced with
    state := (traced.state.visit pattern).openScope .body
    stack := .pattern pattern :: traced.stack } (noted.visit asked)

theorem noted_follow {context : Context} {active : List String}
    {enter : List String → Invocation → TraceM Ty}
    (inner : ∀ name invocation, (noting context).rel (enter (name :: active) invocation)
      (enter (name :: active) invocation))
    {invocation : Invocation} {traced : Traced} (noted : Noted context traced)
    (asked : context.Declares invocation → Asked context traced.demands invocation.name) :
    Noted context ((follow context enter active invocation).run traced).2 := by
  have known : ∀ name, context.hasFunction name = context.hasFunction name := fun _ => rfl
  by_cases declared : context.Declares invocation
  case neg =>
    rw [follow_of_not_declares declared]
    exact noted
  cases refused : context.refuses active invocation.name with
  | true =>
    rw [follow_of_refuses refused]
    exact noted
  | false =>
    cases invocation with
    | call name types =>
      obtain ⟨function, found⟩ := Option.isSome_iff_exists.mp declared
      have checked := (noting context).rel_checkFunction known (inner name) function types
      rw [follow_call found refused, enterFunction, Context.name_of_function? found]
      exact noted_inCall checked noted (asked declared)
    | matching name type =>
      obtain ⟨pattern, found⟩ := Option.isSome_iff_exists.mp declared
      have checked := (noting context).rel_checkPattern known (inner name) pattern type
      rw [follow_matching found refused, enterPattern, Context.name_of_pattern? found]
      exact noted_inMatch type checked noted (asked declared)

theorem noted_watchWithin (context : Context) (depth : Nat) (active : List String)
    (invocation : Invocation) :
    (noting context).rel (watchWithin context depth active invocation)
      (watchWithin context depth active invocation) := by
  induction depth generalizing active invocation with
  | zero => exact fun traced noted => noted.note _
  | succ depth ih =>
    intro traced noted
    exact noted_follow (fun name => ih (name :: active)) (noted.note _) fun declared =>
      ⟨traced.stack, invocation, context.refuses active invocation.name, List.mem_cons_self, rfl,
        declared⟩

end Inference

namespace Checker

open Inference

/-- What a run visits was asked for in it. -/
theorem noted_trace {checker : Checker} (fresh : checker.state.visited = .empty)
    (program : Program) :
    Noted (checker.register program).context (checker.trace program) := by
  let context := (checker.register program).context
  have known : ∀ name, context.hasFunction name = context.hasFunction name := fun _ => rfl
  have followed := noted_watchWithin context (context.unentered []).length []
  have checked := (noting context).rel_checkBody known followed program.main.body
  refine checked { state := (checker.register program).state.openScope .body } ?_
  intro name member
  have empty : checker.state.visited.names = [] := congrArg NameSet.names fresh
  exact absurd (empty ▸ member) List.not_mem_nil

/-- What a run visits is reached. -/
theorem reaches_of_visited {checker : Checker} (fresh : checker.state.env = {})
    (unvisited : checker.state.visited = .empty) {program : Program} {name : String}
    (visited : name ∈ (checker.trace program).state.visited.names) :
    ∃ item, item.name? = some name ∧ program.Reaches item := by
  have presents : (checker.register program).context.Presents program := by
    rw [context, table_register fresh]
    exact Context.presents_ofTable program _ _
  obtain ⟨stack, invocation, refused, asked, rfl, declared⟩ :=
    noted_trace unvisited program name visited
  have permitted := checker.permits_trace_of_entered program
    (Licence.coversEntered_reaching presents) _ asked
  exact ⟨invocation.owner, invocation.name?_owner,
    Licence.reaches_of_admitted presents permitted.2.1 declared⟩

end Checker

end CallSite
