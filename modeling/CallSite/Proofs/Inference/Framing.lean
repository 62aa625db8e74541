import CallSite.Proofs.Inference.Expressions
import CallSite.Proofs.Inference.Local

/-!
# What checking does to the frames

In its local reading, a check only adds names to the innermost frame.  An expression keeps every
name, and changes types only where a lambda is called on the spot.  A call or a match is read
without any change to the frames it is made from.
-/

namespace CallSite

namespace Inference

/-! ## Names only grow -/

/-- The frames have the same names, but for some that the innermost frame has gained. -/
def Gains (before after : Frames) : Prop :=
  ∃ added, after.names = Frames.addNames added before.names

namespace Gains

theorem of_names_eq {before after : Frames} (same : after.names = before.names) :
    Gains before after :=
  ⟨[], by rw [same, Frames.addNames_nil]⟩

theorem trans {first second third : Frames} (left : Gains first second)
    (right : Gains second third) : Gains first third := by
  obtain ⟨early, gained⟩ := left
  obtain ⟨late, more⟩ := right
  exact ⟨early ++ late, by rw [more, gained, Frames.addNames_addNames]⟩

theorem extend (frames : Frames) (name : String) (type : Ty) :
    Gains frames (frames.extend name type) :=
  ⟨[name], frames.names_extend name type⟩

/-- What a branch gains is gone with the branch. -/
theorem names_tail {before inner : Frames} (gains : Gains ([] :: before) inner) :
    Frames.names inner.tail = before.names := by
  obtain ⟨added, gained⟩ := gains
  rw [Frames.names, List.map_tail, ← Frames.names, gained]
  rfl

end Gains

/-- In its local reading, every check only adds names to the innermost frame. -/
def gaining : BodySimulation LocalM LocalM where
  rel left _ := ∀ frames, Gains frames (left frames).frames
  rel_pure _ _ := .of_names_eq rfl
  rel_bind first second frames := (first frames).trans (second _ _)
  rel_report _ _ _ _ := .of_names_eq rfl
  rel_typeOf _ _ := .of_names_eq rfl
  rel_declare name type frames := by
    change Gains frames (frames.declare name type)
    unfold Frames.declare
    split
    · exact .of_names_eq rfl
    · exact .extend frames name type
  rel_assign name type frames := by
    change Gains frames (frames.assign name type)
    unfold Frames.assign
    split
    · exact .of_names_eq (frames.names_retype name type)
    · exact .extend frames name type
  rel_rebind name type frames := by
    change Gains frames (frames.rebind name type)
    unfold Frames.rebind
    split
    · exact .of_names_eq (frames.names_retype name type)
    · exact .extend frames name type
  rel_inBranch inner frames := .of_names_eq (inner ([] :: frames)).names_tail

/-! ## What a check keeps -/

/-- The action leaves something that is seen of the frames as it was. -/
def Keeps {α β : Type} (view : Frames → β) (action : LocalM α) : Prop :=
  ∀ frames, view (action frames).frames = view frames

namespace Keeps

variable {α β γ : Type} {view : Frames → γ}

theorem pure (value : α) : Keeps view (Pure.pure value : LocalM α) := fun _ => rfl

theorem bind {action : LocalM α} {next : α → LocalM β} (first : Keeps view action)
    (second : ∀ value, Keeps view (next value)) : Keeps view (action >>= next) :=
  fun frames => (second _ _).trans (first frames)

theorem report (problem : Problem) (position : Position) :
    Keeps view (Inference.report problem position : LocalM Unit) := fun _ => rfl

theorem typeOf (name : String) : Keeps view (Inference.typeOf name : LocalM Ty) := fun _ => rfl

/-- Sequences, reports and lookups leave a view of the frames as it was. -/
def invariant (view : Frames → γ) : ExprInvariant LocalM where
  holds := Keeps view
  holds_pure := pure
  holds_bind := bind
  holds_report := report
  holds_typeOf := typeOf

theorem reportAny (position : Position) (problem : Option Problem) :
    Keeps view (Inference.reportAny position problem : LocalM Unit) :=
  (invariant view).holds_reportAny position problem

theorem settle (position : Position) (outcome : Except Problem Ty) :
    Keeps view (Inference.settle position outcome : LocalM Ty) :=
  (invariant view).holds_settle position outcome

theorem of_frames {action : LocalM α} (still : Keeps id action) : Keeps view action :=
  fun frames => congrArg view (still frames)

/-- Whatever names a branch gains, those around it are kept. -/
theorem names_inBranch {action : LocalM α} (gains : gaining.rel action action) :
    Keeps Frames.names (inBranch action) :=
  fun frames => (gains ([] :: frames)).names_tail

end Keeps

section Entered

variable {context : Context} {enter : Invocation → LocalM Ty}
  (still : ∀ invocation, Keeps id (enter invocation))

include still

theorem gains_enter (invocation : Invocation) :
    gaining.rel (enter invocation) (enter invocation) :=
  fun frames => .of_names_eq (congrArg Frames.names (still invocation frames))

theorem names_checkLambda (position : Position) (params : List Param) (body : List Stmt)
    (types : List Ty) : Keeps Frames.names (checkLambda context enter position params body types) :=
  (Keeps.names_inBranch (gaining.rel_bind
    (gaining.rel_bindParams (fun _ => rfl) (gains_enter still) params types) fun _ =>
      gaining.rel_checkBody (fun _ => rfl) (gains_enter still) body)).bind fun _ =>
    .settle position _

theorem names_checkExpr (expression : Expr) :
    Keeps Frames.names (checkExpr context enter expression) :=
  (Keeps.invariant Frames.names).holds_checkExpr (fun invocation => (still invocation).of_frames)
    expression fun _ => names_checkLambda still

theorem frames_checkExpr {expression : Expr} (plain : expression.callsLambda = false) :
    Keeps id (checkExpr context enter expression) :=
  (Keeps.invariant id).holds_plainExpr still plain

end Entered

/-- A call or a match is read without any change to the frames it is made from. -/
theorem frames_follow (context : Context) (enter : List String → Invocation → LocalM Ty)
    (active : List String) (invocation : Invocation) :
    Keeps id (follow context enter active invocation) := by
  intro frames
  unfold follow
  cases context.refuses active invocation.name with
  | true => rfl
  | false =>
    cases invocation with
    | call name types => cases found : context.function? name <;> simp only [found] <;> rfl
    | matching name type => cases found : context.pattern? name <;> simp only [found] <;> rfl

theorem frames_infer (context : Context) (active : List String) (invocation : Invocation) :
    Keeps id (infer context active invocation) := by
  rw [infer_eq_follow]
  exact frames_follow context _ active invocation

end Inference

end CallSite
