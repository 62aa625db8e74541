import CallSite.Proofs.Inference.Sinks

/-!
# Attempted reports

A sink may drop a report that it is handed.  The reports that an action attempts are those that a
plain sink would record.  They do not depend on the sink, and those of a sequence of actions are the
reports of each of them in turn.
-/

namespace CallSite.Inference

/-- The reports that an action makes, whatever the sink does with them. -/
def attempted {α : Type} (action : CheckM α) (state : State) : List Diagnostic :=
  (action.run { state with sink := .plain }).2.sink.recorded

namespace Blind

variable {α β : Type} {action : CheckM α}

theorem run_eq (blind : Blind action) (state : State) (sink : Sink) :
    action.run { state with sink := sink } =
      ((action.run state).1,
        { (action.run state).2 with sink := sink.reportAll (attempted action state) }) := by
  obtain ⟨value, after, entered, reports, ran⟩ := blind state.env state.visited
  have here : action.run state = (value, ⟨after, entered, state.sink.reportAll reports⟩) :=
    ran state.sink
  have plain : attempted action state = reports := by
    rw [attempted, ran .plain, Sink.reportAll_plain]
  rw [ran sink, here, plain]

theorem sink_run (blind : Blind action) (state : State) :
    (action.run state).2.sink = state.sink.reportAll (attempted action state) :=
  congrArg (·.2.sink) (blind.run_eq state state.sink)

theorem attempted_bind (first : Blind action) {next : α → CheckM β}
    (second : ∀ value, Blind (next value)) (state : State) :
    attempted (action >>= next) state =
      attempted action state ++ attempted (next (action.run state).1) (action.run state).2 := by
  have ran : (action >>= next).run { state with sink := .plain } =
      (next (action.run state).1).run
        { (action.run state).2 with sink := Sink.plain.reportAll (attempted action state) } := by
    change (next (action.run { state with sink := .plain }).1).run
      (action.run { state with sink := .plain }).2 = _
    rw [first.run_eq]
  rw [attempted, ran, (second _).run_eq, ← Sink.reportAll_append, Sink.reportAll_plain]

end Blind

theorem attempted_pure {α : Type} (value : α) (state : State) :
    attempted (pure value) state = [] := rfl

theorem attempted_settle (position : Position) (rule : Except Problem Ty) (state : State) :
    attempted (settle position rule) state = reported position rule := by
  rw [attempted, run_settle, Sink.reportAll_plain]

theorem attempted_reportAny (position : Position) (found : Option Problem) (state : State) :
    attempted (reportAny position found) state =
      (found.map fun problem => ⟨problem, position⟩).toList := by
  cases found <;> rfl

/-- The check of a called function attempts the reports of the call. -/
theorem attempted_inCall (function : String) (action : CheckM (List Ty × Ty)) (state : State) :
    attempted (inCall function action) state =
      attempted action ((state.visit function).openScope .body) := rfl

end CallSite.Inference
