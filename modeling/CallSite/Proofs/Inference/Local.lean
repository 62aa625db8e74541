import CallSite.Inference.Simulation
import CallSite.Proofs.SymbolTable.Records

/-!
# The local reading of inference

Inference is read here as a function of the frames it can see.  Its outcome is a value, the frames
it leaves and a list of events: reports, declarations that were entered and outcomes to be kept.  A
body starts from one empty frame and leaves the frames around it alone.  Running inference on a
state is the same as applying the events of its outcome to the state.
-/

namespace CallSite.Inference

/-- What a run does apart from the frames it works on. -/
inductive Event where
  | report (diagnostic : Diagnostic)
  | enter (name : String)
  /-- Keep the outcome of a check, with the variables of its scope. -/
  | keep (owner : Owner) (types : List Ty) (result : Ty) (content : Frame)

structure Outcome (α : Type) where
  value : α
  frames : Frames
  events : List Event

def LocalM (α : Type) : Type := Frames → Outcome α

instance : Monad LocalM where
  pure value := fun frames => ⟨value, frames, []⟩
  bind action next := fun frames =>
    let first := action frames
    let second := next first.value first.frames
    ⟨second.value, second.frames, first.events ++ second.events⟩

namespace LocalM

def change (update : Frames → Frames) : LocalM Unit := fun frames => ⟨(), update frames, []⟩

def emit (event : Event) : LocalM Unit := fun frames => ⟨(), frames, [event]⟩

/-- Run an action on one empty frame, and return what that frame held in the end. -/
def inBody {α : Type} (action : LocalM α) : LocalM (α × Frame) := fun frames =>
  let inner := action [[]]
  ⟨(inner.value, inner.frames.headD []), frames, inner.events⟩

end LocalM

instance : MonadInfer LocalM where
  report problem position := LocalM.emit (.report ⟨problem, position⟩)
  typeOf name := fun frames => ⟨(frames.typeOf? name).getD .unresolved, frames, []⟩
  declare name type := LocalM.change (·.declare name type)
  assign name type := LocalM.change (·.assign name type)
  rebind name type := LocalM.change (·.rebind name type)
  inBranch action := fun frames =>
    let inner := action ([] :: frames)
    ⟨inner.value, inner.frames.tail, inner.events⟩
  inCall function action := do
    LocalM.emit (.enter function)
    let ((types, returns), content) ← LocalM.inBody action
    LocalM.emit (.keep (.function function) types returns content)
    pure returns
  inMatch pattern type action := do
    LocalM.emit (.enter pattern)
    let (value, content) ← LocalM.inBody action
    LocalM.emit (.keep (.pattern pattern) [type] value content)
    pure value
  inMain action := do
    let (_, content) ← LocalM.inBody action
    LocalM.emit (.keep .main [] .noValue content)

theorem read_settle (position : Position) (rule : Except Problem Ty) (frames : Frames) :
    (settle position rule : LocalM Ty) frames =
      ⟨rule.toOption.getD .unresolved, frames, (reported position rule).map .report⟩ := by
  cases rule <;> rfl

/-! ## Events -/

section Bodies

variable (name : String) (frames : Frames)

theorem events_inCall (action : LocalM (List Ty × Ty)) :
    ((inCall name action : LocalM Ty) frames).events =
      .enter name :: ((action [[]]).events ++ [.keep (.function name) (action [[]]).value.1
        (action [[]]).value.2 ((action [[]]).frames.headD [])]) := rfl

theorem events_inMatch (type : Ty) (action : LocalM Ty) :
    ((inMatch name type action : LocalM Ty) frames).events =
      .enter name :: ((action [[]]).events ++ [.keep (.pattern name) [type]
        (action [[]]).value ((action [[]]).frames.headD [])]) := rfl

theorem events_inMain (action : LocalM Unit) :
    ((inMain action : LocalM Unit) frames).events =
      (action [[]]).events ++ [.keep .main [] .noValue ((action [[]]).frames.headD [])] := rfl

end Bodies

namespace Event

def diagnostic? : Event → Option Diagnostic
  | report diagnostic => some diagnostic
  | _ => none

def entered? : Event → Option String
  | enter name => some name
  | _ => none

/-- The variables that the event keeps for an owner. -/
def content? (owner : Owner) : Event → Option Frame
  | keep kept _ _ content => if kept = owner then some content else none
  | _ => none

/-- What the event writes to the record of an owner, apart from the scope. -/
def write (owner : Owner) (record : Record) : Event → Record
  | keep kept types result _ => if kept = owner then record.fill types result else record
  | _ => record

theorem write_of_content?_eq_none {owner : Owner} {event : Event}
    (silent : event.content? owner = none) (record : Record) :
    event.write owner record = record := by
  cases event with
  | report diagnostic => rfl
  | enter name => rfl
  | keep kept types result content =>
    have other : kept ≠ owner := by
      rintro rfl
      simp [content?] at silent
    simp [write, other]

theorem write_keep (owner : Owner) (event : Event) (record : Record) (scope : Option Scope) :
    event.write owner (record.keep scope) = (event.write owner record).keep scope := by
  cases event with
  | report diagnostic => rfl
  | enter name => rfl
  | keep kept types result content =>
    by_cases same : kept = owner <;> simp [write, same, Record.fill_keep]

end Event

def reports (events : List Event) : List Diagnostic := events.filterMap Event.diagnostic?

def entered (events : List Event) : List String := events.filterMap Event.entered?

/-- The variables kept last for an owner. -/
def lastContent (owner : Owner) : List Event → Option Frame
  | [] => none
  | event :: events => (lastContent owner events).or (event.content? owner)

/-- The record of an owner after all writes of a run, with the scope it had. -/
def written (owner : Owner) (events : List Event) (record : Record) : Record :=
  events.foldl (fun record event => event.write owner record) record

theorem lastContent_append (owner : Owner) (first second : List Event) :
    lastContent owner (first ++ second) =
      (lastContent owner second).or (lastContent owner first) := by
  induction first with
  | nil => simp [lastContent]
  | cons event events ih => rw [List.cons_append, lastContent, ih, lastContent, Option.or_assoc]

theorem written_append (owner : Owner) (first second : List Event) (record : Record) :
    written owner (first ++ second) record = written owner second (written owner first record) :=
  List.foldl_append

theorem written_of_lastContent_eq_none {owner : Owner} {events : List Event}
    (silent : lastContent owner events = none) (record : Record) :
    written owner events record = record := by
  induction events generalizing record with
  | nil => rfl
  | cons event events ih =>
    rw [lastContent, Option.or_eq_none_iff] at silent
    rw [written, List.foldl_cons, Event.write_of_content?_eq_none silent.2]
    exact ih silent.1 record

theorem written_keep (owner : Owner) (events : List Event) (record : Record)
    (scope : Option Scope) :
    written owner events (record.keep scope) = (written owner events record).keep scope := by
  induction events generalizing record with
  | nil => rfl
  | cons event events ih =>
    rw [written, List.foldl_cons, Event.write_keep]
    exact ih _

end CallSite.Inference
