import CallSite.Proofs.Inference.Pointers
import CallSite.Proofs.Inference.Trace
import CallSite.Proofs.Scope.Contents
import CallSite.Proofs.Syntax.Visibility

/-!
# Licences

A licence says which functions and patterns the code of each owner may ask for by name, which
functions may be pointed to and which names may be looked up where they are not visible.  Code is
admitted by a licence when this can be told from its text.  An action is safe when it asks only for
what the licence permits and hands out no pointer that the licence does not know of.
-/

namespace CallSite.Inference

structure Licence where
  /-- The functions that an owner's code may call by name. -/
  calls : Owner → String → Prop
  /-- The patterns that an owner's code may match with. -/
  patterns : Owner → String → Prop
  /-- The functions that may be pointed to. -/
  pointers : String → Prop
  /-- The names that may be looked up where they are not visible. -/
  unseen : String → Prop

namespace Licence

/-- The type has no pointer but those of the licence. -/
def Holds (licence : Licence) (type : Ty) : Prop := type.PointsWithin licence.pointers

def HoldsAll (licence : Licence) (types : List Ty) : Prop := ∀ type ∈ types, licence.Holds type

/-- The name may be looked up where the given names are visible. -/
def Sees (licence : Licence) (visible : List String) (name : String) : Prop :=
  name ∈ visible ∨ licence.unseen name

/-! ## Admitted code -/

section Admits

variable (licence : Licence) (context : Context) (owner : Owner)

mutual

/-- The owner may run the expression where the given names are visible. -/
def AdmitsExpr (visible : List String) : Expr → Prop
  | .var _ name => licence.Sees visible name
  | .int _ _ | .float _ _ | .bool _ _ | .string _ _ => True
  | .list _ elements => AdmitsExprs visible elements
  | .pointer _ function => licence.pointers function
  | .binary _ _ left right => AdmitsExpr visible left ∧ AdmitsExpr visible right
  | .unary _ _ operand | .len _ operand | .chop _ operand | .chomp _ operand =>
    AdmitsExpr visible operand
  | .call _ (.var _ name) arguments =>
    AdmitsExprs visible arguments ∧
      if context.hasFunction name then licence.calls owner name else licence.Sees visible name
  | .call _ callee arguments => AdmitsExprs visible arguments ∧ AdmitsExpr visible callee
  | .index _ target indices => AdmitsExpr visible target ∧ AdmitsExprs visible indices
  | .lambda _ params body =>
    AdmitsParams visible params ∧ AdmitsBody (Param.visibleAfter visible params) body
  | .append _ target values => AdmitsExpr visible target ∧ AdmitsExprs visible values
  | .matching _ pattern argument => AdmitsExpr visible argument ∧ licence.patterns owner pattern
termination_by structural expression => expression

def AdmitsExprs (visible : List String) : List Expr → Prop
  | [] => True
  | expression :: expressions => AdmitsExpr visible expression ∧ AdmitsExprs visible expressions
termination_by structural expressions => expressions

/-- A default sees the parameters before its own. -/
def AdmitsParams (visible : List String) : List Param → Prop
  | [] => True
  | ⟨name, none⟩ :: params => AdmitsParams (name.name :: visible) params
  | ⟨name, some default⟩ :: params =>
    AdmitsExpr visible default ∧ AdmitsParams (name.name :: visible) params
termination_by structural params => params

def AdmitsRange (visible : List String) : Range → Prop
  | .elements values => AdmitsExprs visible values
  | .value operand => AdmitsExpr visible operand
  | .span first last => AdmitsExpr visible first ∧ AdmitsExpr visible last
termination_by structural range => range

def AdmitsStmt (visible : List String) : Stmt → Prop
  | .expr _ value | .put _ value | .ret _ (some value) => AdmitsExpr visible value
  | .assign _ target none operator value =>
    AdmitsExpr visible value ∧ (operator.isCompound → licence.Sees visible target)
  | .assign _ target (some index) _ value =>
    AdmitsExpr visible value ∧ licence.Sees visible target ∧ AdmitsExpr visible index
  | .ifElse _ conditions thenBody elseBody =>
    AdmitsExprs visible conditions ∧ AdmitsBody visible thenBody ∧ AdmitsBody visible elseBody
  | .ret _ none => True
  | .push _ target value => AdmitsExpr visible target ∧ AdmitsExpr visible value
  | .loop _ body => AdmitsBody visible body
  | .forEach _ iterator range body =>
    AdmitsRange visible range ∧ AdmitsBody (iterator :: visible) body
  | .breakWhen _ conditions | .nextWhen _ conditions => AdmitsExprs visible conditions
termination_by structural statement => statement

def AdmitsBody (visible : List String) : List Stmt → Prop
  | [] => True
  | statement :: statements =>
    AdmitsStmt visible statement ∧ AdmitsBody (statement.visibleAfter visible) statements
termination_by structural statements => statements

end

end Admits

def AdmitsFunction (licence : Licence) (context : Context) (function : Function) : Prop :=
  licence.AdmitsParams context (.function function.name.name) [] function.params ∧
    licence.AdmitsBody context (.function function.name.name)
      (Param.visibleAfter [] function.params) function.body

def AdmitsPattern (licence : Licence) (context : Context) (pattern : Pattern) : Prop :=
  licence.AdmitsExprs context (.pattern pattern.name.name) [pattern.target.name]
      pattern.conditions ∧
    licence.AdmitsExprs context (.pattern pattern.name.name) [pattern.target.name] pattern.returns

/-- The code of every owner is admitted. -/
structure Covers (licence : Licence) (context : Context) (main : List Stmt) : Prop where
  functions : ∀ function ∈ context.functions, licence.AdmitsFunction context function
  patterns : ∀ pattern ∈ context.patterns, licence.AdmitsPattern context pattern
  main : licence.AdmitsBody context .main [] main

/-! ## Permitted demands -/

/-- The owner may reach the invocation, by name or through a pointer. -/
def AdmitsInvocation (licence : Licence) (owner : Owner) : Invocation → Prop
  | .call function types =>
    (licence.calls owner function ∨ licence.pointers function) ∧ licence.HoldsAll types
  | .matching pattern type => licence.patterns owner pattern ∧ licence.Holds type

/-- The owners on the stack were entered one from the other, each by an invocation that the licence
admits and the context does not refuse. -/
inductive Nested (licence : Licence) (context : Context) : List Owner → Prop where
  | main : Nested licence context []
  | call {stack : List Owner} {name : String} {types : List Ty}
      (outer : Nested licence context stack)
      (admitted : licence.AdmitsInvocation (stack.headD .main) (.call name types))
      (entered : context.refuses (Owner.names stack) name = false)
      (declared : (context.function? name).isSome) :
      Nested licence context (.function name :: stack)
  | matching {stack : List Owner} {name : String} {type : Ty}
      (outer : Nested licence context stack)
      (admitted : licence.AdmitsInvocation (stack.headD .main) (.matching name type))
      (entered : context.refuses (Owner.names stack) name = false)
      (declared : (context.pattern? name).isSome) :
      Nested licence context (.pattern name :: stack)

def Permits (licence : Licence) (context : Context) : Demand → Prop
  | .lookup name found => found = true ∨ licence.unseen name
  | .invoke stack invocation refused =>
    licence.Nested context stack ∧ licence.AdmitsInvocation (stack.headD .main) invocation ∧
      refused = context.refuses (Owner.names stack) invocation.name

/-! ## Safe actions -/

/-- The run is inside the given owners with the given names visible, and everything it asked for
so far is permitted. -/
structure RunWithin (licence : Licence) (context : Context) (stack : List Owner)
    (visible : List String) (traced : Traced) : Prop where
  stack_eq : traced.stack = stack
  typed : traced.state.env.VisibleTyped visible licence.Holds
  permitted : ∀ demand ∈ traced.demands, licence.Permits context demand

/-- From where the run is, the action leads to a value with the given property and makes the
names in `later` visible. -/
def Safe {α : Type} (licence : Licence) (context : Context) (stack : List Owner)
    (visible later : List String) (action : TraceM α) (post : α → Prop) : Prop :=
  ∀ traced, licence.RunWithin context stack visible traced →
    post (action.run traced).1 ∧ licence.RunWithin context stack later (action.run traced).2 ∧
      traced.state.env.Grows (action.run traced).2.state.env

namespace Safe

variable {α β : Type} {licence : Licence} {context : Context} {stack : List Owner}
  {visible later : List String}

theorem pure {value : α} {post : α → Prop} (holds : post value) :
    licence.Safe context stack visible visible (Pure.pure value) post :=
  fun _ within => ⟨holds, within, .refl _⟩

theorem bind {middle : List String} {action : TraceM α} {next : α → TraceM β} {post : α → Prop}
    {final : β → Prop} (first : licence.Safe context stack visible middle action post)
    (second : ∀ value, post value → licence.Safe context stack middle later (next value) final) :
    licence.Safe context stack visible later (action >>= next) final := by
  intro traced within
  obtain ⟨holds, between, grown⟩ := first traced within
  obtain ⟨result, after, more⟩ := second _ holds _ between
  exact ⟨result, after, grown.trans more⟩

theorem weaken {action : TraceM α} {post : α → Prop} {fewer : List String}
    (safe : licence.Safe context stack visible later action post)
    (subset : ∀ name ∈ fewer, name ∈ later) :
    licence.Safe context stack visible fewer action post := by
  intro traced within
  obtain ⟨holds, after, grown⟩ := safe traced within
  exact ⟨holds, ⟨after.stack_eq, after.typed.weaken subset, after.permitted⟩, grown⟩

theorem note {action : TraceM α} {post : α → Prop} {demand : Traced → Demand}
    (permitted : ∀ traced, licence.RunWithin context stack visible traced →
      licence.Permits context (demand traced))
    (safe : licence.Safe context stack visible later action post) :
    licence.Safe context stack visible later
      (do modify fun traced => traced.note (demand traced); action) post := by
  intro traced within
  refine safe (traced.note (demand traced)) ⟨within.stack_eq, within.typed, ?_⟩
  intro other member
  rcases List.mem_cons.mp member with rfl | earlier
  · exact permitted traced within
  · exact within.permitted other earlier

theorem report (problem : Problem) (position : Position) :
    licence.Safe context stack visible visible (Inference.report problem position)
      fun _ => True :=
  fun _ within => ⟨trivial, ⟨within.stack_eq, within.typed, within.permitted⟩, .refl _⟩

theorem typeOf {name : String} (sees : licence.Sees visible name) :
    licence.Safe context stack visible visible (Inference.typeOf name) licence.Holds := by
  have found : licence.Safe context stack visible visible
      (TraceM.lift (Inference.typeOf name)) licence.Holds :=
    fun _ within => ⟨within.typed.typeOf trivial name, within, .refl _⟩
  refine found.note fun traced within => ?_
  rcases sees with member | unseen
  · exact .inl (within.typed.isSome_typeOf? member)
  · exact .inr unseen

theorem declare (name : String) {type : Ty} (holds : licence.Holds type) :
    licence.Safe context stack visible (name :: visible) (Inference.declare name type)
      fun _ => True :=
  fun _ within => ⟨trivial, ⟨within.stack_eq, within.typed.declared name holds, within.permitted⟩,
    (Environment.declared_becomes within.typed.sound name type).grows⟩

theorem assign (name : String) {type : Ty} (holds : licence.Holds type) :
    licence.Safe context stack visible (name :: visible) (Inference.assign name type)
      fun _ => True :=
  fun _ within => ⟨trivial, ⟨within.stack_eq, within.typed.assigned name holds, within.permitted⟩,
    (Environment.assigned_becomes within.typed.sound name type).grows⟩

theorem rebind (name : String) {type : Ty} (holds : licence.Holds type) :
    licence.Safe context stack visible (name :: visible) (Inference.rebind name type)
      fun _ => True :=
  fun _ within => ⟨trivial, ⟨within.stack_eq, within.typed.rebound name holds, within.permitted⟩,
    (Environment.rebind_becomes within.typed.sound name type).grows⟩

theorem inBranch {action : TraceM α} {post : α → Prop}
    (inner : licence.Safe context stack visible later action post) :
    licence.Safe context stack visible visible (Inference.inBranch action) post := by
  intro traced within
  obtain ⟨holds, after, grown⟩ :=
    inner { traced with state := traced.state.openScope .branch }
      ⟨within.stack_eq, within.typed.opened_branch, within.permitted⟩
  refine ⟨holds, ⟨after.stack_eq, within.typed.close_branch after.typed grown, after.permitted⟩, ?_⟩
  exact (Environment.Becomes.close_branch ⟨rfl, after.typed.sound, grown⟩).grows

/-- To change the state apart from its variables is safe. -/
theorem quiet {change : State → State}
    (untouched : ∀ state : State, state.env.Untouched (change state).env) :
    licence.Safe context stack visible visible (TraceM.lift (modify change)) fun _ => True :=
  fun traced within => ⟨trivial,
    ⟨within.stack_eq, within.typed.untouched (untouched traced.state), within.permitted⟩,
    ((untouched traced.state).becomes within.typed.sound).grows⟩

/-- An owner is checked in a body of its own, whatever is visible around it. -/
theorem inBody {owner : Owner} {action : TraceM α} {post : α → Prop}
    (inner : licence.Safe context (owner :: stack) [] later action post) :
    licence.Safe context stack visible visible
      (TraceM.during owner (TraceM.inScope .body action)) fun result => post result.1 := by
  intro traced within
  obtain ⟨holds, after, grown⟩ :=
    inner { traced with state := traced.state.openScope .body, stack := owner :: traced.stack }
      ⟨congrArg (owner :: ·) within.stack_eq, .opened_body _ _, within.permitted⟩
  have untouched := grown.close_body
  refine ⟨holds, ⟨?_, within.typed.untouched untouched, after.permitted⟩,
    (untouched.becomes within.typed.sound).grows⟩
  exact congrArg List.tail after.stack_eq

theorem inCall {name : String} {action : TraceM (List Ty × Ty)}
    (inner : licence.Safe context (.function name :: stack) [] later action
      fun result => licence.Holds result.2) :
    licence.Safe context stack visible visible (Inference.inCall name action) licence.Holds :=
  bind (quiet fun _ => ⟨rfl, Nat.le_refl _, fun _ _ => rfl⟩) fun _ _ =>
    bind inner.inBody fun _ holds =>
      bind (quiet fun _ => ⟨rfl, Nat.le_refl _, fun _ _ => rfl⟩) fun _ _ => pure holds

theorem inMatch {name : String} {type : Ty} {action : TraceM Ty}
    (inner : licence.Safe context (.pattern name :: stack) [] later action licence.Holds) :
    licence.Safe context stack visible visible (Inference.inMatch name type action)
      licence.Holds :=
  bind (quiet fun _ => ⟨rfl, Nat.le_refl _, fun _ _ => rfl⟩) fun _ _ =>
    bind inner.inBody fun _ holds =>
      bind (quiet fun _ => ⟨rfl, Nat.le_refl _, fun _ _ => rfl⟩) fun _ _ => pure holds

end Safe

end Licence

end CallSite.Inference
