import CallSite.Proofs.Inference.OpenScopes
import CallSite.Proofs.Scope.Levels
import CallSite.Resolution.Body

/-!
# Default values in both passes

Resolution and inference bind the same parameters one after the other, and visit a default in
between.  Resolution declares a parameter before it visits the default of the parameter, inference
afterwards.  So the default sees the same variables in both, at the same levels, except for the name
of its own parameter.
-/

namespace CallSite

namespace Resolution

/-! ## Resolution and the open scopes -/

/-- The action lets the environment grow. -/
def Growing {α : Type} (action : ResolveM α) : Prop :=
  ∀ state : State, state.env.Grows (action.run state).2.env

/-- The action leaves the open scopes as they were. -/
structure Still {α : Type} (action : ResolveM α) : Prop where
  scopes : ∀ state : State, (action.run state).2.env.table.scopes = state.env.table.scopes
  growing : Growing action

namespace Still

theorem of_env {α : Type} {action : ResolveM α}
    (same : ∀ state : State, (action.run state).2.env = state.env) : Still action :=
  ⟨fun state => by rw [same], fun state => same state ▸ .refl state.env⟩

theorem pure {α : Type} (value : α) : Still (Pure.pure value : ResolveM α) := of_env fun _ => rfl

theorem bind {α β : Type} {action : ResolveM α} {next : α → ResolveM β} (first : Still action)
    (second : ∀ value, Still (next value)) : Still (action >>= next) :=
  ⟨fun state => ((second _).scopes _).trans (first.scopes state),
    fun state => (first.growing state).trans ((second _).growing _)⟩

theorem getTable : Still getTable := of_env fun _ => rfl

theorem require (condition : Bool) (problem : Problem) (position : Position) :
    Still (Resolution.require condition problem position) := by
  cases condition <;> exact of_env fun _ => rfl

theorem useVariable (name : String) (position : Position) :
    Still (Resolution.useVariable name position) :=
  getTable.bind fun _ => .require _ _ _

theorem useFunction (name : String) (position : Position) :
    Still (Resolution.useFunction name position) :=
  getTable.bind fun _ => .require _ _ _

theorem usePattern (name : String) (position : Position) :
    Still (Resolution.usePattern name position) :=
  getTable.bind fun _ => .require _ _ _

theorem useCallee (name : String) (supplied : Nat) (position : Position) :
    Still (Resolution.useCallee name supplied position) := by
  refine getTable.bind fun table => ?_
  cases table.function? name with
  | some entry => exact .require _ _ _
  | none => exact .require _ _ _

/-- What is declared in a scope of its own is gone with that scope. -/
theorem inScope (kind : ScopeKind) {action : ResolveM Unit} (growing : Growing action) :
    Still (Resolution.inScope kind action) :=
  ⟨fun state => (growing { state with env := state.env.opened kind }).scopes_closed,
    fun state => (growing { state with env := state.env.opened kind }).close⟩

end Still

namespace Growing

theorem bind {α β : Type} {action : ResolveM α} {next : α → ResolveM β} (first : Growing action)
    (second : ∀ value, Growing (next value)) : Growing (action >>= next) :=
  fun state => (first state).trans (second _ _)

theorem declare (name : String) : Growing (Resolution.declare name) :=
  fun state => state.env.grows_declared name .unresolved

theorem declareIfAbsent (name : String) : Growing (Resolution.declareIfAbsent name) := by
  refine Still.getTable.growing.bind fun table => ?_
  split
  · exact (Still.pure ()).growing
  · exact .declare name

end Growing

mutual

theorem still_resolveExpr : ∀ expression : Expr, Still (resolveExpr expression)
  | .var position name => .useVariable name position
  | .int _ _ | .float _ _ | .bool _ _ | .string _ _ => .pure ()
  | .list _ elements => still_resolveExprs elements
  | .pointer position function => .useFunction function position
  | .binary _ _ left right => (still_resolveExpr left).bind fun _ => still_resolveExpr right
  | .unary _ _ operand | .len _ operand | .chop _ operand | .chomp _ operand =>
    still_resolveExpr operand
  | .call _ callee arguments => by
    have inArguments := still_resolveExprs arguments
    cases callee with
    | var place name => exact (Still.useCallee name _ place).bind fun _ => inArguments
    | lambda place params body =>
      have inBody : Growing (do resolveParams params; resolveBody body) :=
        (growing_resolveParams params).bind fun _ => growing_resolveBody body
      exact (Still.inScope .branch inBody).bind fun _ =>
        (Still.require _ _ _).bind fun _ => inArguments
    | _ => exact (still_resolveExpr _).bind fun _ => inArguments
  | .index _ target indices =>
    (still_resolveExpr target).bind fun _ => still_resolveExprs indices
  | .lambda _ params body =>
    .inScope .branch ((growing_resolveParams params).bind fun _ => growing_resolveBody body)
  | .append _ target values =>
    (still_resolveExpr target).bind fun _ => still_resolveExprs values
  | .matching position pattern argument =>
    (Still.usePattern pattern position).bind fun _ => still_resolveExpr argument
termination_by structural expression => expression

theorem still_resolveExprs : ∀ expressions : List Expr, Still (resolveExprs expressions)
  | [] => .pure ()
  | expression :: expressions =>
    (still_resolveExpr expression).bind fun _ => still_resolveExprs expressions
termination_by structural expressions => expressions

theorem growing_resolveParams : ∀ params : List Param, Growing (resolveParams params)
  | [] => (Still.pure ()).growing
  | ⟨name, none⟩ :: params => (Growing.declare name.name).bind fun _ => growing_resolveParams params
  | ⟨name, some default⟩ :: params =>
    (Growing.declare name.name).bind fun _ =>
      (still_resolveExpr default).growing.bind fun _ => growing_resolveParams params
termination_by structural params => params

theorem still_resolveRange : ∀ range : Range, Still (resolveRange range)
  | .elements values => still_resolveExprs values
  | .value operand => still_resolveExpr operand
  | .span first last => (still_resolveExpr first).bind fun _ => still_resolveExpr last
termination_by structural range => range

theorem growing_resolveStmt : ∀ statement : Stmt, Growing (resolveStmt statement)
  | .expr _ value | .put _ value => (still_resolveExpr value).growing
  | .assign position target (some index) _ value =>
    ((still_resolveExpr index).bind fun _ => (still_resolveExpr value).bind fun _ =>
      .useVariable target position).growing
  | .assign position target none operator value => by
    refine (still_resolveExpr value).growing.bind fun _ => ?_
    split
    · exact (Still.useVariable target position).growing
    · exact .declareIfAbsent target
  | .ifElse _ conditions thenBody elseBody =>
    ((still_resolveExprs conditions).bind fun _ =>
      (Still.inScope .branch (growing_resolveBody thenBody)).bind fun _ =>
        .inScope .branch (growing_resolveBody elseBody)).growing
  | .ret _ none => (Still.pure ()).growing
  | .ret _ (some value) => (still_resolveExpr value).growing
  | .push _ target value =>
    ((still_resolveExpr target).bind fun _ => still_resolveExpr value).growing
  | .loop _ body => (Still.inScope .branch (growing_resolveBody body)).growing
  | .forEach _ iterator range body =>
    (Still.inScope .branch ((still_resolveRange range).growing.bind fun _ =>
      (Growing.declare iterator).bind fun _ => growing_resolveBody body)).growing
  | .breakWhen _ conditions | .nextWhen _ conditions => (still_resolveExprs conditions).growing
termination_by structural statement => statement

theorem growing_resolveBody : ∀ statements : List Stmt, Growing (resolveBody statements)
  | [] => (Still.pure ()).growing
  | statement :: statements =>
    (growing_resolveStmt statement).bind fun _ => growing_resolveBody statements
termination_by structural statements => statements

end

theorem tops_resolveParams {kind : ScopeKind} {names : List String} {outer : List Scope}
    (params : List Param) (state : State)
    (tops : Scope.Tops kind names outer state.env.table.scopes) :
    Scope.Tops kind (names ++ params.map (·.name.name)) outer
      ((resolveParams params).run state).2.env.table.scopes := by
  induction params generalizing names state with
  | nil => rwa [List.map_nil, List.append_nil]
  | cons param params ih =>
    obtain ⟨name, default⟩ := param
    let bound := ((declare name.name).run state).2
    have inserted : Scope.Tops kind (names ++ [name.name]) outer bound.env.table.scopes :=
      Environment.tops_declared tops name.name .unresolved
    rw [List.map_cons, List.append_cons]
    cases default with
    | none => exact ih bound inserted
    | some default =>
      refine ih ((resolveExpr default).run bound).2 ?_
      rw [(still_resolveExpr default).scopes bound]
      exact inserted

theorem resolveParams_append (earlier later : List Param) (own : Identifier) (default : Expr) :
    resolveParams (earlier ++ ⟨own, some default⟩ :: later) = (do
      resolveParams earlier
      declare own.name
      resolveExpr default
      resolveParams later) := by
  induction earlier with
  | nil => simp only [List.nil_append, resolveParams, pure_bind]
  | cons param earlier ih =>
    obtain ⟨name, _ | other⟩ := param <;>
      simp only [List.cons_append, resolveParams, ih, bind_assoc]

end Resolution

namespace Inference

/-! ## Inference and the open scopes -/

section Scopes

variable (context : Context) (active : List String)

theorem tops_bindParams {kind : ScopeKind} {names : List String} {outer : List Scope}
    (params : List Param) (types : List Ty) (state : State)
    (tops : Scope.Tops kind names outer state.env.table.scopes) :
    Scope.Tops kind (names ++ params.map (·.name.name)) outer
      ((bindParams context (infer context active) params types : CheckM (List Ty)).run
        state).2.env.table.scopes := by
  induction params generalizing names types state with
  | nil => rwa [List.map_nil, List.append_nil]
  | cons param params ih =>
    obtain ⟨name, default⟩ := param
    have bound (type : Ty) (before : State)
        (same : before.env.table.scopes = state.env.table.scopes) :
        Scope.Tops kind (names ++ [name.name]) outer
          (before.env.declared name.name type).table.scopes :=
      Environment.tops_declared (same ▸ tops) name.name type
    rw [List.map_cons, List.append_cons]
    cases types with
    | cons type types => exact ih types _ (bound type state rfl)
    | nil =>
      cases default with
      | none => exact ih [] _ (bound .unresolved state rfl)
      | some default =>
        exact ih [] _ (bound _ _ (still_checkExpr context active default state))

theorem bindParams_append (enter : Invocation → CheckM Ty) (earlier later : List Param)
    (own : Identifier) (default : Expr) (types : List Ty)
    (lacking : types.length ≤ earlier.length) :
    bindParams context enter (earlier ++ ⟨own, some default⟩ :: later) types = (do
      let before ← bindParams context enter earlier types
      let type ← checkExpr context enter default
      declare own.name type
      let rest ← bindParams context enter later []
      pure (before ++ type :: rest)) := by
  induction earlier generalizing types with
  | nil =>
    obtain rfl : types = [] := List.eq_nil_of_length_eq_zero (Nat.le_zero.mp lacking)
    simp only [List.nil_append, bindParams, pure_bind]
  | cons param earlier ih =>
    obtain ⟨name, default⟩ := param
    cases types with
    | cons type types =>
      simp only [List.cons_append, bindParams, ih types (Nat.le_of_succ_le_succ lacking),
        bind_assoc, pure_bind]
    | nil =>
      cases default with
      | none =>
        simp only [List.cons_append, bindParams, ih [] (Nat.zero_le _), bind_assoc, pure_bind]
      | some default =>
        simp only [List.cons_append, bindParams, ih [] (Nat.zero_le _), bind_assoc, pure_bind]

end Scopes

end Inference

/-! ## What a default sees -/

/-- What a name in the default of a parameter stands for. -/
inductive Binder where
  | own
  | earlier
  | enclosing (level : Nat)
deriving DecidableEq, Repr

namespace Scope

/-- What a name stands for where the innermost scope is that of the parameters, and those with the
given names come before the one whose default is visited. -/
def binder? (scopes : List Scope) (earlier : List String) (name : String) : Option Binder :=
  (level? scopes name).map fun
    | 0 => if name ∈ earlier then .earlier else .own
    | level + 1 => .enclosing level

theorem isSome_binder? (table : SymbolTable) (earlier : List String) (name : String) :
    (binder? table.scopes earlier name).isSome = table.hasVariable name := by
  rw [binder?, Option.isSome_map, isSome_level?]

/-- What a name stands for outside the scope of the parameters. -/
def outside? (kind : ScopeKind) (outer : List Scope) (name : String) : Option Binder :=
  match kind with
  | .body => none
  | .branch => (level? outer name).map .enclosing

theorem outside?_ne_own (kind : ScopeKind) (outer : List Scope) (name : String) :
    outside? kind outer name ≠ some .own := by
  cases kind with
  | body => exact nofun
  | branch =>
    intro same
    obtain ⟨level, _, differs⟩ := Option.map_eq_some_iff.mp same
    cases differs

theorem Tops.binder?_eq {kind : ScopeKind} {names : List String} {outer scopes : List Scope}
    (tops : Tops kind names outer scopes) (earlier : List String) (name : String) :
    binder? scopes earlier name =
      if name ∈ names then some (if name ∈ earlier then .earlier else .own)
      else outside? kind outer name := by
  rw [binder?, tops.level? name]
  by_cases bound : name ∈ names
  · rw [if_pos bound, if_pos bound]
    rfl
  · rw [if_neg bound, if_neg bound]
    cases kind with
    | body => rfl
    | branch =>
      rw [outside?, Option.map_map]
      rfl

/-- Before a parameter is bound. -/
theorem Tops.binder?_before {kind : ScopeKind} {names : List String} {outer scopes : List Scope}
    (tops : Tops kind names outer scopes) (name : String) :
    binder? scopes names name =
      if name ∈ names then some .earlier else outside? kind outer name := by
  rw [tops.binder?_eq]
  by_cases bound : name ∈ names
  · rw [if_pos bound, if_pos bound, if_pos bound]
  · rw [if_neg bound, if_neg bound]

/-- After a parameter is bound. -/
theorem Tops.binder?_after {kind : ScopeKind} {names : List String} {own : String}
    {outer scopes : List Scope} (tops : Tops kind (names ++ [own]) outer scopes) (name : String) :
    binder? scopes names name =
      if name ∈ names then some .earlier
      else if name = own then some .own
      else outside? kind outer name := by
  rw [tops.binder?_eq]
  by_cases bound : name ∈ names
  · rw [if_pos (List.mem_append_left _ bound), if_pos bound, if_pos bound]
  · rw [if_neg bound, if_neg bound]
    simp only [List.mem_append, List.mem_singleton, bound, false_or]

end Scope

section Defaults

open Inference Resolution

/-- In the default of a parameter a name stands for the same in both passes, exactly if it is not
the name of the parameter itself or an earlier parameter bears it too.  Resolution finds the
parameter itself; inference, which has not bound it yet, finds what the name stands for outside. -/
theorem default_sees_same_iff (context : Context) (active : List String)
    (earlier later : List Param) (own : Identifier) (default : Expr) (types : List Ty)
    (lacking : types.length ≤ earlier.length) (kind : ScopeKind) (state : Inference.State)
    (resolver : Resolution.State)
    (around : kind = .branch → Scope.SameNames (Scope.visible state.env.table.scopes)
      (Scope.visible resolver.env.table.scopes)) :
    let enter : Invocation → CheckM Ty := infer context active
    let names := earlier.map (·.name.name)
    let checked := ((bindParams context enter earlier types).run (state.openScope kind)).2.env.table
    let resolved := ((do resolveParams earlier; Resolution.declare own.name).run
      { resolver with env := resolver.env.opened kind }).2.env.table
    bindParams context enter (earlier ++ ⟨own, some default⟩ :: later) types = (do
      let before ← bindParams context enter earlier types
      let type ← checkExpr context enter default
      Inference.declare own.name type
      let rest ← bindParams context enter later []
      pure (before ++ type :: rest)) ∧
    resolveParams (earlier ++ ⟨own, some default⟩ :: later) = (do
      resolveParams earlier
      Resolution.declare own.name
      resolveExpr default
      resolveParams later) ∧
    (∀ name, checked.hasVariable name = (Scope.binder? checked.scopes names name).isSome ∧
      resolved.hasVariable name = (Scope.binder? resolved.scopes names name).isSome) ∧
    (∀ name, Scope.binder? checked.scopes names name = Scope.binder? resolved.scopes names name ↔
      name ≠ own.name ∨ name ∈ names) ∧
    (own.name ∉ names →
      Scope.binder? resolved.scopes names own.name = some .own ∧
      Scope.binder? checked.scopes names own.name =
        Scope.outside? kind state.env.table.scopes own.name) := by
  intro enter names checked resolved
  have outer (name : String) : Scope.outside? kind state.env.table.scopes name =
      Scope.outside? kind resolver.env.table.scopes name := by
    cases kind with
    | body => rfl
    | branch => rw [Scope.outside?, Scope.outside?, (around rfl).level?_eq]
  have ofChecked (name : String) : Scope.binder? checked.scopes names name =
      if name ∈ names then some .earlier
      else Scope.outside? kind state.env.table.scopes name :=
    (tops_bindParams context active earlier types (state.openScope kind)
      (state.env.tops_opened kind)).binder?_before name
  have ofResolved (name : String) : Scope.binder? resolved.scopes names name =
      if name ∈ names then some .earlier
      else if name = own.name then some .own
      else Scope.outside? kind state.env.table.scopes name := by
    rw [outer name]
    exact (Environment.tops_declared (tops_resolveParams earlier
      { resolver with env := resolver.env.opened kind } (resolver.env.tops_opened kind))
      own.name .unresolved).binder?_after name
  refine ⟨bindParams_append context enter earlier later own default types lacking,
    resolveParams_append earlier later own default, ?_, ?_, ?_⟩
  · intro name
    rw [Scope.isSome_binder?, Scope.isSome_binder?]
    exact ⟨rfl, rfl⟩
  · intro name
    rw [ofChecked, ofResolved]
    by_cases before : name ∈ names
    · rw [if_pos before, if_pos before]
      exact iff_of_true rfl (.inr before)
    · rw [if_neg before, if_neg before]
      by_cases same : name = own.name
      · rw [if_pos same]
        exact iff_of_false (Scope.outside?_ne_own kind _ name)
          (not_or.mpr ⟨not_not.mpr same, before⟩)
      · rw [if_neg same]
        exact iff_of_true rfl (.inl same)
  · intro fresh
    rw [ofChecked, ofResolved, if_neg fresh, if_neg fresh, if_pos rfl]
    exact ⟨rfl, rfl⟩

/-- In a called lambda with parameters `a` and `b`, of which `a` has an argument, the default of `b`
sees `a` and the captured `x` alike in both passes. -/
theorem default_sees_earlier_and_captured :
    let context : Context := ⟨[], [], [], false⟩
    let state : Inference.State :=
      { env := (({} : Environment).opened .body).declared "x" .int, sink := .plain }
    let resolver : Resolution.State :=
      { env := (({} : Environment).opened .body).declared "x" .unresolved, sink := .plain }
    let earlier : List Param := [⟨⟨"a", .atLine 2⟩, none⟩]
    let checked := ((bindParams context (infer context []) earlier [.string] :
      CheckM (List Ty)).run (state.openScope .branch)).2.env.table.scopes
    let resolved := ((do resolveParams earlier; Resolution.declare "b").run
      { resolver with env := resolver.env.opened .branch }).2.env.table.scopes
    Scope.SameNames (Scope.visible state.env.table.scopes)
        (Scope.visible resolver.env.table.scopes) ∧
      Scope.binder? checked ["a"] "a" = some .earlier ∧
      Scope.binder? checked ["a"] "a" = Scope.binder? resolved ["a"] "a" ∧
      Scope.binder? checked ["a"] "x" = some (.enclosing 0) ∧
      Scope.binder? checked ["a"] "x" = Scope.binder? resolved ["a"] "x" := by
  intro context state resolver earlier checked resolved
  have around : Scope.SameNames (Scope.visible state.env.table.scopes)
      (Scope.visible resolver.env.table.scopes) := .cons (fun _ => rfl) .nil
  obtain ⟨_, _, _, same, _⟩ := default_sees_same_iff context [] earlier [] ⟨"b", .atLine 2⟩
    (.var (.atLine 2) "a") [.string] (Nat.le_refl 1) .branch state resolver fun _ => around
  exact ⟨around, rfl, (same "a").mpr (.inl (by decide)), rfl, (same "x").mpr (.inl (by decide))⟩

/-- The default of a parameter that mentions the parameter itself.  Resolution finds the parameter;
inference finds nothing in a function, and the captured variable of that name in a lambda. -/
theorem default_of_own_name_differs :
    let context : Context := ⟨[], [], [], false⟩
    let state : Inference.State :=
      { env := (({} : Environment).opened .body).declared "x" .int, sink := .plain }
    let resolver : Resolution.State :=
      { env := (({} : Environment).opened .body).declared "x" .unresolved, sink := .plain }
    let checked (kind : ScopeKind) := ((bindParams context (infer context []) [] [] :
      CheckM (List Ty)).run (state.openScope kind)).2.env.table
    let resolved (kind : ScopeKind) := ((do resolveParams []; Resolution.declare "x").run
      { resolver with env := resolver.env.opened kind }).2.env.table
    Scope.SameNames state.env.table.scopes resolver.env.table.scopes ∧
      ((resolved .body).hasVariable "x" = true ∧ (checked .body).hasVariable "x" = false) ∧
      Scope.binder? (resolved .branch).scopes [] "x" = some .own ∧
      Scope.binder? (checked .branch).scopes [] "x" = some (.enclosing 0) := by
  intro context state resolver checked resolved
  exact ⟨.cons (fun _ => rfl) .nil, ⟨rfl, rfl⟩, rfl, rfl⟩

end Defaults

end CallSite
