import CallSite.Analysis
import CallSite.Resolution.Basic
import Mathlib.Data.List.Induction
import Mathlib.Data.List.TakeDrop

/-!
# Arity and binding

Resolution counts the arguments of a call against the defaults at the end of a parameter list, and
inference walks the list from its beginning and takes arguments as long as there are any.  Both see
the same calls as complete: no parameter is left without a type, and no argument is left over.
-/

namespace CallSite.Inference

/-- Where the type of a parameter comes from. -/
inductive Source where
  | argument (type : Ty)
  | ownDefault (value : Expr)
  | nothing

namespace Source

def argument? : Source → Option Ty
  | argument type => some type
  | _ => none

/-- The source of a parameter, given the argument at its place. -/
def ofParam (param : Param) : Option Ty → Source
  | some type => argument type
  | none => (param.default.map ownDefault).getD nothing

theorem ofParam_eq_nothing_iff (param : Param) (type : Option Ty) :
    ofParam param type = nothing ↔ type = none ∧ param.default = none := by
  cases type with
  | some type => simp [ofParam]
  | none => cases found : param.default <;> simp [ofParam, found]

@[simp]
theorem argument?_ofParam (param : Param) (type : Option Ty) :
    (ofParam param type).argument? = type := by
  cases type with
  | some type => rfl
  | none => cases found : param.default <;> simp [ofParam, found, argument?]

end Source

/-- The source of each parameter, by its place in the list. -/
def sources (params : List Param) (types : List Ty) : List Source :=
  params.mapIdx fun place param => Source.ofParam param types[place]?

/-- The arguments that parameters take their types from. -/
def usedArguments (params : List Param) (types : List Ty) : List Ty :=
  (sources params types).filterMap Source.argument?

/-- Every parameter has an argument or a default, and every argument is used. -/
def Supplies (params : List Param) (types : List Ty) : Prop :=
  Source.nothing ∉ sources params types ∧ usedArguments params types = types

/-! ## Binding goes by the sources -/

theorem sources_cons (param : Param) (params : List Param) (types : List Ty) :
    sources (param :: params) types = .ofParam param types.head? :: sources params types.tail := by
  rw [sources, List.mapIdx_cons, sources, List.head?_eq_getElem?]
  simp only [List.getElem?_tail]

theorem sources_concat (params : List Param) (param : Param) (types : List Ty) :
    sources (params ++ [param]) types =
      sources params types ++ [.ofParam param types[params.length]?] := by
  rw [sources, List.mapIdx_concat, sources]

section Binding

variable {m : Type → Type} [Monad m] [MonadInfer m]
variable (context : Context) (enter : Invocation → m Ty)

def Source.check : Source → m Ty
  | argument type => pure type
  | ownDefault value => checkExpr context enter value
  | nothing => pure .unresolved

/-- Declare one parameter with the type that its source gives. -/
def bindFrom (bound : Param × Source) : m Ty := do
  let type ← bound.2.check context enter
  declare bound.1.name.name type
  pure type

theorem bindParams_eq_mapM [LawfulMonad m] (params : List Param) (types : List Ty) :
    bindParams context enter params types =
      (params.zip (sources params types)).mapM (bindFrom context enter) := by
  induction params generalizing types with
  | nil => simp [bindParams]
  | cons param params ih =>
    obtain ⟨name, default⟩ := param
    rw [sources_cons, List.zip_cons_cons, List.mapM_cons, ← ih]
    cases types with
    | cons type types => simp [bindParams, bindFrom, Source.ofParam, Source.check]
    | nil => cases default <;> simp [bindParams, bindFrom, Source.ofParam, Source.check]

end Binding

/-! ## Counting from the end of the list -/

theorem trailingDefaults_concat (params : List Param) (param : Param) :
    Param.trailingDefaults (params ++ [param]) =
      if param.default.isSome then Param.trailingDefaults params + 1 else 0 := by
  rw [Param.trailingDefaults, List.reverse_concat, List.takeWhile_cons]
  split <;> rfl

theorem leastArguments_concat (params : List Param) (param : Param) :
    Param.leastArguments (params ++ [param]) =
      if param.default.isSome then Param.leastArguments params else params.length + 1 := by
  rw [Param.leastArguments, trailingDefaults_concat, List.length_append, List.length_singleton]
  split
  · rw [Nat.add_sub_add_right, Param.leastArguments]
  · rfl

/-- Arguments run out before a parameter that needs one exactly when there are too few.  The count
of those needed goes by the last parameter, and so does the induction. -/
theorem nothing_mem_sources_iff (params : List Param) (types : List Ty) :
    Source.nothing ∈ sources params types ↔ types.length < Param.leastArguments params := by
  induction params using List.reverseRecOn with
  | nil => exact iff_of_false List.not_mem_nil (Nat.not_lt_zero _)
  | append_singleton params param ih =>
    rw [sources_concat, List.mem_append, List.mem_singleton, ih, eq_comm,
      Source.ofParam_eq_nothing_iff, List.getElem?_eq_none_iff, leastArguments_concat]
    cases param.default with
    | some value => simp
    | none =>
      have least : Param.leastArguments params ≤ params.length := Nat.sub_le _ _
      simp only [Option.isSome_none, Bool.false_eq_true, ↓reduceIte, and_true]
      omega

theorem usedArguments_eq_take (params : List Param) (types : List Ty) :
    usedArguments params types = types.take params.length := by
  induction params generalizing types with
  | nil => rfl
  | cons param params ih =>
    rw [usedArguments, sources_cons, List.filterMap_cons, Source.argument?_ofParam,
      ← usedArguments, ih]
    cases types with
    | nil => simp
    | cons type types => rfl

/-- An argument is left over exactly when there are too many. -/
theorem usedArguments_ne_iff (params : List Param) (types : List Ty) :
    usedArguments params types ≠ types ↔ Param.mostArguments params < types.length := by
  rw [usedArguments_eq_take, ne_eq, List.take_eq_self_iff, Nat.not_le, Param.mostArguments]

theorem supplies_iff_acceptsArguments (params : List Param) (types : List Ty) :
    Supplies params types ↔ Resolution.acceptsArguments params types.length = true := by
  rw [Supplies, nothing_mem_sources_iff, Nat.not_lt, ← not_ne_iff, usedArguments_ne_iff,
    Nat.not_lt, Resolution.acceptsArguments, decide_eq_true_iff]

instance (params : List Param) (types : List Ty) : Decidable (Supplies params types) :=
  decidable_of_iff _ (supplies_iff_acceptsArguments params types).symm

/-! ## Calls -/

/-- An argument list has as many types as arguments. -/
theorem length_checkExprs (context : Context) (enter : Invocation → CheckM Ty)
    (arguments : List Expr) (state : State) :
    ((checkExprs context enter arguments).run state).1.length = arguments.length := by
  induction arguments generalizing state with
  | nil => rfl
  | cons argument arguments ih =>
    exact congrArg (· + 1) (ih ((checkExpr context enter argument).run state).2)

theorem run_requireArity (callee : String) (params : List Param) (types : List Ty)
    (position : Position) (state : Resolution.State) :
    (Resolution.requireArity callee params types.length position).run state =
      ((), if Supplies params types then state
        else { state with sink := state.sink.report ⟨.arity callee (Param.leastArguments params)
          (Param.mostArguments params) types.length, position⟩ }) := by
  rw [Resolution.requireArity, Resolution.require]
  by_cases supplied : Supplies params types
  · rw [if_pos supplied, if_pos ((supplies_iff_acceptsArguments params types).mp supplied)]
    rfl
  · rw [if_neg supplied, if_neg (mt (supplies_iff_acceptsArguments params types).mpr supplied)]
    rfl

/-- Resolution reports nothing in an environment. -/
def Accepts (action : Resolution.ResolveM Unit) (env : Environment) : Prop :=
  (action.run { env := env, sink := .plain }).2.sink.recorded = []

theorem accepts_requireArity_iff (callee : String) (params : List Param) (types : List Ty)
    (position : Position) (env : Environment) :
    Accepts (Resolution.requireArity callee params types.length position) env ↔
      Supplies params types := by
  rw [Accepts, run_requireArity]
  by_cases supplied : Supplies params types
  · simp [supplied, Sink.plain]
  · simp [supplied, Sink.plain, Sink.report, Sink.drops]

theorem run_useCallee {env : Environment} {name : String} {entry : FunctionEntry}
    (found : env.table.function? name = some entry) (supplied : Nat) (position : Position)
    (sink : Sink) :
    (Resolution.useCallee name supplied position).run ⟨env, sink⟩ =
      (Resolution.requireArity name entry.declaration.params supplied position).run
        ⟨env, sink⟩ := by
  have read : Resolution.getTable.run ⟨env, sink⟩ = pure (env.table, ⟨env, sink⟩) := rfl
  rw [Resolution.useCallee, StateT.run_bind, read]
  simp only [pure_bind, found]

/-- The check of a call hands its arguments to the invocation, and they supply the parameters. -/
def HandsOver (params : List Param) (context : Context) (enter : Invocation → CheckM Ty)
    (call : Expr) (arguments : List Expr) (next : List Ty → CheckM Ty) : Prop :=
  ∀ state : State,
    let checked := (checkExprs context enter arguments).run state
    (checkExpr context enter call).run state = (next checked.1).run checked.2 ∧
      Supplies params checked.1

theorem handsOver_of_accepts {callee : String} {params : List Param} {arguments : List Expr}
    {position : Position} {env : Environment}
    (accepted : Accepts (Resolution.requireArity callee params arguments.length position) env)
    {context : Context} {enter : Invocation → CheckM Ty} {call : Expr}
    {next : List Ty → CheckM Ty}
    (checks : checkExpr context enter call = checkExprs context enter arguments >>= next) :
    HandsOver params context enter call arguments next := by
  intro state checked
  refine ⟨by rw [checks]; rfl, (accepts_requireArity_iff callee params _ position env).mp ?_⟩
  rw [length_checkExprs]
  exact accepted

/-- Counting arguments and binding them agree, for every parameter list and every list of arguments.
The defaults at the end are no more than the parameters, so the least number of arguments is a
difference of natural numbers.  Binding takes each parameter from its source, and a parameter has
neither an argument nor a default exactly when there are fewer arguments than the least number; an
argument is not used exactly when there are more than the most.  A report is attempted exactly in
these cases.  So a call of a declared function or of a lambda that is accepted hands over types that
supply its parameters. -/
theorem arity_agrees_with_binding (params : List Param) (types : List Ty) :
    (Param.trailingDefaults params ≤ params.length ∧
      Param.leastArguments params + Param.trailingDefaults params = Param.mostArguments params) ∧
    (∀ (context : Context) (enter : Invocation → CheckM Ty),
      bindParams context enter params types =
        (params.zip (sources params types)).mapM (bindFrom context enter)) ∧
    (Source.nothing ∈ sources params types ↔ types.length < Param.leastArguments params) ∧
    (usedArguments params types <+: types ∧
      (usedArguments params types ≠ types ↔ Param.mostArguments params < types.length)) ∧
    (∀ (callee : String) (position : Position) (state : Resolution.State),
      (Resolution.requireArity callee params types.length position).run state =
        ((), if Supplies params types then state
          else { state with sink := state.sink.report ⟨.arity callee (Param.leastArguments params)
            (Param.mostArguments params) types.length, position⟩ })) ∧
    ∀ (arguments : List Expr) (place position : Position) (env : Environment) (context : Context)
      (enter : Invocation → CheckM Ty),
      (∀ (name : String) (entry : FunctionEntry), env.table.function? name = some entry →
        entry.declaration.params = params → context.function? name = some entry.declaration →
        Accepts (Resolution.useCallee name arguments.length position) env →
        HandsOver params context enter (.call place (.var position name) arguments) arguments
          fun supplied => enter (.call name supplied)) ∧
      (∀ body : List Stmt,
        Accepts (Resolution.requireArity lambdaName params arguments.length position) env →
        HandsOver params context enter (.call place (.lambda position params body) arguments)
          arguments (checkLambda context enter position params body)) := by
  have bounded := Param.trailingDefaults_le_length params
  refine ⟨⟨bounded, Nat.sub_add_cancel bounded⟩, ?_, nothing_mem_sources_iff params types,
    ⟨?_, usedArguments_ne_iff params types⟩, ?_, ?_⟩
  · intro context enter
    exact bindParams_eq_mapM context enter params types
  · rw [usedArguments_eq_take]
    exact List.take_prefix _ types
  · intro callee position state
    exact run_requireArity callee params types position state
  · intro arguments place position env context enter
    refine ⟨?_, ?_⟩
    · rintro name entry found rfl known accepted
      rw [Accepts, run_useCallee found] at accepted
      refine handsOver_of_accepts accepted ?_
      have declared : context.hasFunction name = true := by rw [Context.hasFunction, known]; rfl
      rw [checkExpr]
      simp only [declared, ↓reduceIte]
    · intro body accepted
      refine handsOver_of_accepts accepted ?_
      rw [checkExpr]
      rfl

/-- The first default stands before a parameter that needs an argument, so only the last one
counts. -/
def scale : Function :=
  .ofName ⟨"scale", .atLine 1⟩
    [⟨⟨"factor", .atLine 1⟩, some (.int (.atLine 1) 1)⟩, ⟨⟨"value", .atLine 1⟩, none⟩,
      ⟨⟨"unit", .atLine 1⟩, some (.string (.atLine 1) "m")⟩]
    [.ret (.atLine 2) (some (.var (.atLine 2) "value"))]

/-- Two arguments are enough for `scale`, and one is not. -/
theorem scale_supplied :
    let env : Environment := { table := SymbolTable.empty.declareFunctions [scale] }
    let context : Context := ⟨[scale], [], [], false⟩
    let arguments : List Expr := [.int (.atLine 3) 2, .int (.atLine 3) 5]
    env.table.function? "scale" = some (.fresh scale) ∧
      context.function? "scale" = some scale ∧
      Accepts (Resolution.useCallee "scale" arguments.length (.atLine 3)) env ∧
      HandsOver scale.params context (infer context [])
        (.call (.atLine 3) (.var (.atLine 3) "scale") arguments) arguments
        (fun supplied => infer context [] (.call "scale" supplied)) ∧
      ¬ Supplies scale.params [.int] := by
  intro env context arguments
  have found : env.table.function? "scale" = some (.fresh scale) := rfl
  have known : context.function? "scale" = some scale := rfl
  have accepted : Accepts (Resolution.useCallee "scale" arguments.length (.atLine 3)) env := rfl
  have calls := (arity_agrees_with_binding scale.params [.int]).2.2.2.2.2 arguments (.atLine 3)
    (.atLine 3) env context (infer context [])
  exact ⟨found, known, accepted, calls.1 "scale" (.fresh scale) found rfl known accepted,
    by decide⟩

end CallSite.Inference
