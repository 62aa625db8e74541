import CallSite.Analysis
import CallSite.Proofs.Inference.Realization

/-!
# Calls forget their history

A function is checked anew for each call.  What comes of a call depends on the declarations, on the
names that are refused and on the types supplied, and on nothing that earlier calls left in the
state: not on the open scopes, nor on the entries of the declarations, nor on what was reported.
-/

namespace CallSite.Inference

/-! ## Contexts that look alike -/

namespace Context

/-- Two contexts with the same declaration under each name and the same refusals. -/
structure Alike (context another : Context) : Prop where
  function? : ∀ name, context.function? name = another.function? name
  pattern? : ∀ name, context.pattern? name = another.pattern? name
  refuses : ∀ active name, context.refuses active name = another.refuses active name

theorem Alike.hasFunction {context another : Context} (alike : context.Alike another)
    (name : String) : context.hasFunction name = another.hasFunction name := by
  rw [Context.hasFunction, Context.hasFunction, alike.function? name]

/-- The order of the names being checked does not matter. -/
theorem refuses_congr (context : Context) {active other : List String}
    (same : ∀ name, name ∈ active ↔ name ∈ other) (name : String) :
    context.refuses active name = context.refuses other name := by
  have contained : active.contains name = other.contains name := by
    rw [Bool.eq_iff_iff, List.contains_iff_mem, List.contains_iff_mem]
    exact same name
  rw [refuses, refuses, contained]

@[simp]
theorem function?_ofTable (table : SymbolTable) (blocked : List String) (infersCyclic : Bool)
    (name : String) :
    (ofTable table blocked infersCyclic).function? name =
      (table.function? name).map (·.declaration) :=
  (table.map_declaration_function? name).symm

@[simp]
theorem pattern?_ofTable (table : SymbolTable) (blocked : List String) (infersCyclic : Bool)
    (name : String) :
    (ofTable table blocked infersCyclic).pattern? name =
      (table.pattern? name).map (·.declaration) :=
  (table.map_declaration_pattern? name).symm

/-- Contexts of two tables look alike when the tables have the same declarations under each name and
the same names are not entered on account of cycles. -/
theorem alike_ofTable {table other : SymbolTable} {blocked otherBlocked : List String}
    {infersCyclic otherInfersCyclic : Bool}
    (functions : ∀ name, (table.function? name).map (·.declaration) =
      (other.function? name).map (·.declaration))
    (patterns : ∀ name, (table.pattern? name).map (·.declaration) =
      (other.pattern? name).map (·.declaration))
    (gated : ∀ name, (!infersCyclic && blocked.contains name) =
      (!otherInfersCyclic && otherBlocked.contains name)) :
    (ofTable table blocked infersCyclic).Alike (ofTable other otherBlocked otherInfersCyclic) where
  function? name := by rw [function?_ofTable, function?_ofTable, functions]
  pattern? name := by rw [pattern?_ofTable, pattern?_ofTable, patterns]
  refuses active name := congrArg (active.contains name || ·) (gated name)

end Context

/-- Equal actions are in simulation. -/
def equality (m : Type → Type) [Monad m] [MonadInfer m] : Simulation m m where
  rel left right := left = right
  rel_pure _ := rfl
  rel_bind first second := by rw [first, funext second]
  rel_report _ _ _ := rfl
  rel_typeOf _ := rfl
  rel_declare _ _ := rfl
  rel_assign _ _ := rfl
  rel_rebind _ _ := rfl
  rel_inBranch inner := congrArg inBranch inner
  rel_inCall function _ _ inner := congrArg (inCall function) inner
  rel_inMatch pattern type _ _ inner := congrArg (inMatch pattern type) inner
  rel_inMain inner := congrArg inMain inner

/-- An invocation is followed in the same way in contexts that look alike.  The induction is on the
number of names that may still be entered. -/
theorem infer_eq_of_alike {m : Type → Type} [Monad m] [MonadInfer m] {context another : Context}
    (alike : context.Alike another) {active other : List String}
    (same : ∀ name, name ∈ active ↔ name ∈ other) (invocation : Invocation) :
    (infer context active invocation : m Ty) = infer another other invocation := by
  induction size : (context.unentered active).length using Nat.strongRecOn
    generalizing active other invocation with
  | _ size ih =>
    have nested : ∀ {name}, name ∈ context.names → context.refuses active name = false →
        ∀ invocation, (infer context (name :: active) invocation : m Ty) =
          infer another (name :: other) invocation := by
      intro name declared admitted invocation
      have fewer := Context.length_unentered_cons_lt declared
        (Context.not_mem_of_not_refuses admitted)
      refine ih _ (size ▸ fewer) ?_ invocation rfl
      intro candidate
      rw [List.mem_cons, List.mem_cons, same candidate]
    have refusals : ∀ name, context.refuses active name = another.refuses other name := by
      intro name
      rw [alike.refuses, another.refuses_congr same]
    rw [infer_eq_follow, infer_eq_follow]
    refine (equality m).rel_follow alike.function? alike.pattern? refusals ?_ ?_ invocation
    · intro name function types found admitted
      exact congrArg (inCall _) ((equality m).rel_checkFunction alike.hasFunction
        (nested (Context.mem_names_of_function? found) admitted) function types)
    · intro name pattern type found admitted
      exact congrArg (inMatch _ type) ((equality m).rel_checkPattern alike.hasFunction
        (nested (Context.mem_names_of_pattern? found) admitted) pattern type)

theorem checkMain_eq_of_alike {m : Type → Type} [Monad m] [MonadInfer m]
    {context another : Context} (alike : context.Alike another) (body : List Stmt) :
    (checkMain context (infer context []) body : m Unit) =
      checkMain another (infer another []) body := by
  have followed : ∀ invocation, (infer context [] invocation : m Ty) =
      infer another [] invocation := infer_eq_of_alike alike fun _ => Iff.rfl
  have checked := (equality m).rel_checkBody alike.hasFunction followed body
  exact (equality m).rel_inMain ((equality m).rel_bind checked fun _ => (equality m).rel_pure ())

end CallSite.Inference

namespace CallSite.Checker

open Inference

/-- Two checkers with the same declarations registered, the same names blocked and the same way with
cyclic functions.  Everything else in their states may differ. -/
structure Alike (checker other : Checker) : Prop where
  function? : ∀ name, (checker.state.env.table.function? name).map (·.declaration) =
    (other.state.env.table.function? name).map (·.declaration)
  pattern? : ∀ name, (checker.state.env.table.pattern? name).map (·.declaration) =
    (other.state.env.table.pattern? name).map (·.declaration)
  blocked : ∀ name, name ∈ checker.blocked ↔ name ∈ other.blocked
  infersCyclic : checker.infersCyclic = other.infersCyclic

theorem Alike.context {checker other : Checker} (alike : checker.Alike other) :
    checker.context.Alike other.context where
  function? name := by
    rw [Checker.context, Checker.context, Context.function?_ofTable, Context.function?_ofTable,
      alike.function? name]
  pattern? name := by
    rw [Checker.context, Checker.context, Context.pattern?_ofTable, Context.pattern?_ofTable,
      alike.pattern? name]
  refuses active name := by
    have contained : checker.blocked.contains name = other.blocked.contains name := by
      rw [Bool.eq_iff_iff, List.contains_iff_mem, List.contains_iff_mem]
      exact alike.blocked name
    rw [Context.refuses, Context.refuses]
    simp only [Checker.context, Context.ofTable]
    rw [contained, alike.infersCyclic]

theorem Alike.refl (checker : Checker) : checker.Alike checker :=
  ⟨fun _ => rfl, fun _ => rfl, fun _ => Iff.rfl, rfl⟩

theorem Alike.trans {first second third : Checker} (left : first.Alike second)
    (right : second.Alike third) : first.Alike third :=
  ⟨fun name => (left.function? name).trans (right.function? name),
    fun name => (left.pattern? name).trans (right.pattern? name),
    fun name => (left.blocked name).trans (right.blocked name),
    left.infersCyclic.trans right.infersCyclic⟩

/-- The outcome of one call or match, made while the given names are being checked. -/
def follow (checker : Checker) (active : List String) (invocation : Invocation) : Ty × State :=
  (infer checker.context active invocation : CheckM Ty).run checker.state

/-- No call changes what is declared. -/
theorem alike_follow (checker : Checker) (active : List String) (invocation : Invocation) :
    checker.Alike { checker with state := (checker.follow active invocation).2 } := by
  have leaves := (enters_infer checker.context active invocation checker.state []).leaves
  refine ⟨fun name => ?_, fun name => ?_, fun _ => Iff.rfl, rfl⟩
  · rw [SymbolTable.map_declaration_function?, SymbolTable.map_declaration_function?]
    exact congrArg (List.find? _) leaves.functions.symm
  · rw [SymbolTable.map_declaration_pattern?, SymbolTable.map_declaration_pattern?]
    exact congrArg (List.find? _) leaves.patterns.symm

/-- The checker after calls and matches, each made while the given names were being checked. -/
def afterCalls (checker : Checker) (calls : List (List String × Invocation)) : Checker :=
  calls.foldl
    (fun checker call => { checker with state := (checker.follow call.1 call.2).2 }) checker

theorem alike_afterCalls (checker : Checker) (calls : List (List String × Invocation)) :
    checker.Alike (checker.afterCalls calls) := by
  induction calls generalizing checker with
  | nil => exact .refl checker
  | cons call calls ih =>
    exact (checker.alike_follow call.1 call.2).trans
      (ih { checker with state := (checker.follow call.1 call.2).2 })

/-- A call or a match has one outcome for all checkers that are alike and are checking the same set
of names: its type, and the events that it leaves.  So the same reports are attempted in the same
order, the same names are noted as entered, and each record that is written has the same types and
a scope with the same variables; the other records are as they were.  The same call made again has
the same type, whatever calls were made in between. -/
theorem follow_forgets_history (checker : Checker) (active : List String)
    (invocation : Invocation) :
    ∃ (type : Ty) (events : List Event),
      (∀ (other : Checker) (otherActive : List String), checker.Alike other →
        (∀ name, name ∈ active ↔ name ∈ otherActive) →
        (other.follow otherActive invocation).1 = type ∧
        Leaves (fun _ => True) events other.state (other.follow otherActive invocation).2) ∧
      ∀ calls, ((checker.afterCalls calls).follow active invocation).1 = type := by
  let outcome := (infer checker.context active invocation : LocalM Ty) []
  have all : ∀ (other : Checker) (otherActive : List String), checker.Alike other →
      (∀ name, name ∈ active ↔ name ∈ otherActive) →
      (other.follow otherActive invocation).1 = outcome.value ∧
      Leaves (fun _ => True) outcome.events other.state
        (other.follow otherActive invocation).2 := by
    intro other otherActive alike same
    have enters := enters_infer other.context otherActive invocation other.state []
    rw [← infer_eq_of_alike alike.context same] at enters
    exact ⟨enters.value, enters.leaves⟩
  refine ⟨outcome.value, outcome.events, all, ?_⟩
  intro calls
  exact (all _ active (checker.alike_afterCalls calls) fun _ => Iff.rfl).1

/-- A function that returns its argument, with nothing to do in the main body. -/
def identity : Program where
  functions := [.ofName ⟨"id", .atLine 1⟩ [⟨⟨"x", .atLine 1⟩, none⟩]
    [.ret (.atLine 2) (some (.var (.atLine 2) "x"))]]
  patterns := []
  main := ⟨[], .atLine 3⟩

/-- The entry of `id` holds a string from the call before, inside a body that is still open, and a
call with a whole number has the type of a whole number all the same. -/
theorem identity_forgets_string :
    let fresh := ({ state := { sink := .plain } } : Checker).register identity
    let called := fresh.afterCalls [([], .call "id" [.string])]
    let later : Checker := { called with state := called.state.openScope .body }
    fresh.Alike later ∧ (later.follow [] (.call "id" [.int])).1 = .int := by
  intro fresh called later
  have calls : fresh.Alike called := fresh.alike_afterCalls _
  have alike : fresh.Alike later := ⟨calls.function?, calls.pattern?, calls.blocked, rfl⟩
  obtain ⟨type, events, all, _⟩ := follow_forgets_history fresh [] (.call "id" [.int])
  have first : (fresh.follow [] (.call "id" [.int])).1 = .int := by decide
  refine ⟨alike, ?_⟩
  rw [(all later [] alike fun _ => Iff.rfl).1, ← first,
    (all fresh [] (.refl fresh) fun _ => Iff.rfl).1]

end CallSite.Checker
