import CallSite.Inference.Check

/-!
# Following calls and matches

No parameter has a declared type, so a function is checked again for each call, with the types of
that call's arguments, and its entry keeps the outcome of the last one.  A declaration that is
already being checked is not entered a second time; therefore calls nest no deeper than there are
declared names.
-/

namespace CallSite.Inference

variable {m : Type → Type} [Monad m] [MonadInfer m]

section Enter

variable (context : Context) (enter : Invocation → m Ty)

/-- Bind the parameters of a function and check its body.  The outcome is the types of the
parameters and the type that the returns agree on. -/
def checkFunction (function : Function) (types : List Ty) : m (List Ty × Ty) := do
  let params ← bindParams context enter function.params types
  let returns ← checkBody context enter function.body
  let returned ← settle function.position
    (returnRule (.functionReturnsDiffer function.name.baseName) returns)
  pure (params, returned)

/-- Check a function for one call, in a body scope that starts with its parameters. -/
def enterFunction (function : Function) (types : List Ty) : m Ty :=
  inCall function.name.name (checkFunction context enter function types)

/-- Check the conditions of a pattern up to the first one that is not a `bool`, and tell whether
there was none. -/
def checkCases : List Expr → m Bool
  | [] => pure true
  | condition :: conditions => do
    let type ← checkExpr context enter condition
    if type.mayBeBool then checkCases conditions
    else
      report .conditionNotBool condition.position
      pure false

/-- Bind the target of a pattern and check its cases.  The outcome is the type they agree on. -/
def checkPattern (pattern : Pattern) (type : Ty) : m Ty := do
  declare pattern.target.name type
  if ← checkCases context enter pattern.conditions then
    let returns ← checkExprs context enter pattern.returns
    settle pattern.position (returnRule (.patternReturnsDiffer pattern.name.baseName) returns)
  else pure .noValue

/-- Check a pattern for one match, in a body scope that starts with its target. -/
def enterPattern (pattern : Pattern) (type : Ty) : m Ty :=
  inMatch pattern.name.name type (checkPattern context enter pattern type)

/-- Check a main body in a scope of its own. -/
def checkMain (body : List Stmt) : m Unit :=
  inMain do
    let _ ← checkBody context enter body

end Enter

/-- Follow one invocation while the declarations named in `active` are being checked, leaving the
invocations nested in it to `enter`.  A refused or undeclared name has an unresolved type. -/
def follow (context : Context) (enter : List String → Invocation → m Ty)
    (active : List String) (invocation : Invocation) : m Ty :=
  if context.refuses active invocation.name then pure .unresolved
  else
    match invocation with
    | .call name types =>
      match context.function? name with
      | some function => enterFunction context (enter (name :: active)) function types
      | none => pure .unresolved
    | .matching name type =>
      match context.pattern? name with
      | some pattern => enterPattern context (enter (name :: active)) pattern type
      | none => pure .unresolved

/-- Follow an invocation with at most `depth` invocations nested in each other. -/
def inferWithin (context : Context) : Nat → List String → Invocation → m Ty
  | 0, _, _ => pure .unresolved
  | depth + 1, active, invocation =>
    follow context (inferWithin context depth) active invocation

/-- Follow an invocation while the declarations named in `active` are being checked. -/
def infer (context : Context) (active : List String) : Invocation → m Ty :=
  inferWithin context (context.unentered active).length active

theorem follow_of_refuses {context : Context} {active : List String} {invocation : Invocation}
    (refused : context.refuses active invocation.name = true)
    (enter : List String → Invocation → m Ty) :
    follow context enter active invocation = pure .unresolved := by
  unfold follow
  rw [if_pos refused]

theorem follow_call {context : Context} {active : List String} {name : String}
    {function : Function} (found : context.function? name = some function)
    (admitted : context.refuses active name = false) (enter : List String → Invocation → m Ty)
    (types : List Ty) :
    follow context enter active (.call name types) =
      enterFunction context (enter (name :: active)) function types := by
  simp [follow, Invocation.name, admitted, found]

theorem follow_matching {context : Context} {active : List String} {name : String}
    {pattern : Pattern} (found : context.pattern? name = some pattern)
    (admitted : context.refuses active name = false) (enter : List String → Invocation → m Ty)
    (type : Ty) :
    follow context enter active (.matching name type) =
      enterPattern context (enter (name :: active)) pattern type := by
  simp [follow, Invocation.name, admitted, found]

/-- Following an invocation only enters declared names that are not being checked. -/
theorem follow_congr {context : Context} {active : List String}
    {enter other : List String → Invocation → m Ty}
    (same : ∀ name ∈ context.names, name ∉ active →
      enter (name :: active) = other (name :: active)) :
    follow context enter active = follow context other active := by
  funext invocation
  unfold follow
  by_cases refused : context.refuses active invocation.name = true
  · simp [refused]
  · have free : invocation.name ∉ active :=
      fun entered => refused (context.refuses_of_mem entered)
    cases invocation with
    | call name types =>
      cases found : context.function? name with
      | none => simp [found]
      | some function => simp [found, same name (Context.mem_names_of_function? found) free]
    | matching name type =>
      cases found : context.pattern? name with
      | none => simp [found]
      | some pattern => simp [found, same name (Context.mem_names_of_pattern? found) free]

/-- Where every declared name is being checked, nothing is entered. -/
theorem follow_eq_unresolved {context : Context} {active : List String}
    (all : (context.unentered active).length = 0)
    (enter : List String → Invocation → m Ty) (invocation : Invocation) :
    follow context enter active invocation = pure .unresolved := by
  have entered : ∀ name ∈ context.names, name ∈ active := by
    intro name declared
    by_cases free : name ∈ active
    · exact free
    · have fewer := Context.length_unentered_cons_lt declared free
      omega
  unfold follow
  cases invocation with
  | call name types =>
    cases found : context.function? name with
    | none => simp [found]
    | some function =>
      have refused := context.refuses_of_mem (entered name (Context.mem_names_of_function? found))
      simp [Invocation.name, refused]
  | matching name type =>
    cases found : context.pattern? name with
    | none => simp [found]
    | some pattern =>
      have refused := context.refuses_of_mem (entered name (Context.mem_names_of_pattern? found))
      simp [Invocation.name, refused]

/-- Any depth that leaves room for the names not yet entered gives the same result. -/
theorem inferWithin_eq_inferWithin {context : Context} {active : List String}
    {depth other : Nat} (room : (context.unentered active).length ≤ depth)
    (otherRoom : (context.unentered active).length ≤ other) :
    (inferWithin context depth active : Invocation → m Ty) =
      inferWithin context other active := by
  induction depth generalizing other active with
  | zero =>
    cases other with
    | zero => rfl
    | succ other =>
      funext invocation
      exact (follow_eq_unresolved (by omega) _ invocation).symm
  | succ depth ih =>
    cases other with
    | zero =>
      funext invocation
      exact follow_eq_unresolved (by omega) _ invocation
    | succ other =>
      apply follow_congr
      intro name declared free
      have fewer := Context.length_unentered_cons_lt declared free
      exact ih (by omega) (by omega)

/-- Nested invocations are followed in the same way, without any bound on their depth. -/
theorem infer_eq_follow (context : Context) (active : List String) :
    (infer context active : Invocation → m Ty) = follow context (infer context) active := by
  cases size : (context.unentered active).length with
  | zero =>
    funext invocation
    simp only [infer, size]
    exact (follow_eq_unresolved size _ invocation).symm
  | succ depth =>
    have unfolded : (infer context active : Invocation → m Ty) =
        follow context (inferWithin context depth) active := by
      funext invocation
      simp only [infer, size]
      rfl
    rw [unfolded]
    apply follow_congr
    intro name declared free
    have fewer := Context.length_unentered_cons_lt declared free
    exact inferWithin_eq_inferWithin (by omega) (Nat.le_refl _)

end CallSite.Inference
