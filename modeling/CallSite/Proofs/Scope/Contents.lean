import CallSite.Proofs.Scope.Growth

/-!
# What the visible scopes hold

The scopes that can be seen are described by names that are visible in them and by a set of types
that their variables have.  Binding one more variable makes one more name visible; a branch or a
body that was opened and closed again leaves the names around it as they were.
-/

namespace CallSite

theorem Frame.mem_retype {frame : Frame} {name : String} {type : Ty} {binding : String × Ty}
    (member : binding ∈ frame.retype name type) : binding ∈ frame ∨ binding.2 = type := by
  induction frame with
  | nil => cases member
  | cons head rest ih =>
    obtain ⟨other, old⟩ := head
    rw [retype] at member
    split at member
    · rcases List.mem_cons.mp member with rfl | later
      · exact .inr rfl
      · exact .inl (List.mem_cons_of_mem _ later)
    · rcases List.mem_cons.mp member with rfl | later
      · exact .inl List.mem_cons_self
      · exact (ih later).imp_left (List.mem_cons_of_mem _)

namespace Frames

/-- What binding a name leads to: the visible variable is kept or retyped, or the innermost frame
gains a variable. -/
inductive Binds (frames : Frames) (name : String) (type : Ty) : Frames → Prop where
  | kept (visible : (frames.typeOf? name).isSome) : Binds frames name type frames
  | retyped (visible : (frames.typeOf? name).isSome) :
      Binds frames name type (frames.retype name type)
  | extended : Binds frames name type (frames.extend name type)

theorem isSome_typeOf?_of_innermostBinds {frames : Frames} {name : String}
    (bound : frames.innermostBinds name = true) : (frames.typeOf? name).isSome := by
  cases frames with
  | nil => cases bound
  | cons frame outer =>
    obtain ⟨type, found⟩ := Option.isSome_iff_exists.mp bound
    rw [typeOf?, List.findSome?_cons, found]
    rfl

theorem binds_declare (frames : Frames) (name : String) (type : Ty) :
    frames.Binds name type (frames.declare name type) := by
  unfold declare
  split
  · next bound => exact .kept (isSome_typeOf?_of_innermostBinds bound)
  · exact .extended

theorem binds_assign (frames : Frames) (name : String) (type : Ty) :
    frames.Binds name type (frames.assign name type) := by
  unfold assign
  split
  · next visible => exact .retyped visible
  · exact .extended

theorem binds_rebind (frames : Frames) (name : String) (type : Ty) :
    frames.Binds name type (frames.rebind name type) := by
  unfold rebind
  split
  · next bound => exact .retyped (isSome_typeOf?_of_innermostBinds bound)
  · exact .extended

theorem isSome_typeOf?_extend_iff {frames : Frames} (opened : frames ≠ []) (name : String)
    (type : Ty) (other : String) :
    ((frames.extend name type).typeOf? other).isSome ↔
      (frames.typeOf? other).isSome ∨ other = name := by
  rw [isSome_typeOf?, isSome_typeOf?, names_extend]
  cases frames with
  | nil => exact absurd rfl opened
  | cons frame outer => simp [names, addNames, or_right_comm]

/-- After a name is bound, the visible names are this one and those that were visible before. -/
theorem Binds.isSome_typeOf?_iff {frames after : Frames} {name : String} {type : Ty}
    (binds : frames.Binds name type after) (opened : frames ≠ []) (other : String) :
    (after.typeOf? other).isSome ↔ (frames.typeOf? other).isSome ∨ other = name := by
  have absorbed : (frames.typeOf? name).isSome →
      ((frames.typeOf? other).isSome ↔ (frames.typeOf? other).isSome ∨ other = name) := by
    intro visible
    refine ⟨.inl, ?_⟩
    rintro (seen | rfl)
    · exact seen
    · exact visible
  cases binds with
  | kept visible => exact absorbed visible
  | retyped visible =>
    rw [isSome_typeOf?, names_retype, ← isSome_typeOf?]
    exact absorbed visible
  | extended => exact isSome_typeOf?_extend_iff opened name type other

/-- The types of all variables are allowed. -/
def Typed (allowed : Ty → Prop) (frames : Frames) : Prop :=
  ∀ frame ∈ frames, ∀ binding ∈ frame, allowed binding.2

variable {allowed : Ty → Prop}

theorem Typed.typeOf? {frames : Frames} (typed : frames.Typed allowed) {name : String} {type : Ty}
    (found : frames.typeOf? name = some type) : allowed type := by
  obtain ⟨frame, member, here⟩ := List.exists_of_findSome?_eq_some found
  obtain ⟨before, after, split, _⟩ := List.lookup_eq_some_iff.mp here
  refine typed frame member (name, type) ?_
  rw [split]
  exact List.mem_append_right _ List.mem_cons_self

theorem Typed.retype {frames : Frames} (typed : frames.Typed allowed) (name : String) {type : Ty}
    (new : allowed type) : (frames.retype name type).Typed allowed := by
  induction frames with
  | nil => exact typed
  | cons frame outer ih =>
    have outerTyped : Typed allowed outer :=
      fun other member => typed other (List.mem_cons_of_mem frame member)
    rw [Frames.retype]
    split
    · intro other member binding inside
      rcases List.mem_cons.mp member with rfl | later
      · rcases Frame.mem_retype inside with old | same
        · exact typed frame List.mem_cons_self binding old
        · exact same ▸ new
      · exact outerTyped other later binding inside
    · intro other member
      rcases List.mem_cons.mp member with rfl | later
      · exact typed other List.mem_cons_self
      · exact ih outerTyped other later

theorem Typed.extend {frames : Frames} (typed : frames.Typed allowed) (name : String) {type : Ty}
    (new : allowed type) : (frames.extend name type).Typed allowed := by
  cases frames with
  | nil => exact typed
  | cons frame outer =>
    intro other member binding inside
    rcases List.mem_cons.mp member with rfl | later
    · rcases List.mem_append.mp inside with old | last
      · exact typed frame List.mem_cons_self binding old
      · rw [List.mem_singleton.mp last]
        exact new
    · exact typed other (List.mem_cons_of_mem frame later) binding inside

theorem Binds.typed {frames after : Frames} {name : String} {type : Ty}
    (binds : frames.Binds name type after) (typed : frames.Typed allowed) (new : allowed type) :
    after.Typed allowed := by
  cases binds with
  | kept _ => exact typed
  | retyped _ => exact typed.retype name new
  | extended => exact typed.extend name new

end Frames

namespace Environment

theorem frames_ne_nil {env : Environment} (opened : env.table.scopes ≠ []) : env.frames ≠ [] := by
  rw [frames]
  cases scopes : env.table.scopes with
  | nil => exact absurd scopes opened
  | cons scope outer =>
    rw [frames_cons]
    exact List.cons_ne_nil _ _

/-- Where a scope was open, one still is. -/
theorem Grows.opened {env after : Environment} (grows : env.Grows after)
    (opened : env.table.scopes ≠ []) : after.table.scopes ≠ [] := by
  have extends_ := grows.scopes
  intro none_
  rw [none_] at extends_
  cases scopes : env.table.scopes with
  | nil => exact opened scopes
  | cons scope outer =>
    rw [scopes] at extends_
    cases extends_

/-- After a name is bound, the visible names are this one and those that were visible before. -/
theorem Becomes.isSome_locate?_iff {env after : Environment} {frames : Frames} {name : String}
    {type : Ty} (becomes : env.Becomes after frames) (binds : env.frames.Binds name type frames)
    (opened : env.table.scopes ≠ []) (other : String) :
    (after.table.locate? other).isSome ↔ (env.table.locate? other).isSome ∨ other = name := by
  rw [← isSome_typeOf?_frames, becomes.frames_eq,
    binds.isSome_typeOf?_iff (frames_ne_nil opened) other, isSome_typeOf?_frames]

/-! ## The names alone -/

/-- A scope is open, and exactly the given names are visible. -/
structure Shows (env : Environment) (visible : List String) : Prop where
  sound : env.Sound
  opened : env.table.scopes ≠ []
  seen_iff : ∀ name, (env.table.locate? name).isSome ↔ name ∈ visible

namespace Shows

variable {env : Environment} {visible : List String}

theorem hasVariable (shows_ : env.Shows visible) (name : String) :
    env.table.hasVariable name = visible.contains name := by
  rw [Bool.eq_iff_iff, List.contains_iff_mem]
  exact shows_.seen_iff name

/-- To list a visible name once more makes no difference. -/
theorem again (shows_ : env.Shows visible) {name : String} (member : name ∈ visible) :
    env.Shows (name :: visible) := by
  refine ⟨shows_.sound, shows_.opened, fun other => ?_⟩
  rw [shows_.seen_iff other, List.mem_cons]
  refine ⟨.inr, ?_⟩
  rintro (rfl | seen)
  · exact member
  · exact seen

theorem declared (shows_ : env.Shows visible) (name : String) (type : Ty) :
    (env.declared name type).Shows (name :: visible) := by
  have becomes := declared_becomes shows_.sound name type
  refine ⟨becomes.sound, becomes.grows.opened shows_.opened, fun other => ?_⟩
  rw [becomes.isSome_locate?_iff (Frames.binds_declare _ name type) shows_.opened,
    shows_.seen_iff other, List.mem_cons, or_comm]

theorem opened_branch (shows_ : env.Shows visible) : (env.opened .branch).Shows visible :=
  ⟨sound_opened_branch shows_.sound, List.cons_ne_nil _ _, shows_.seen_iff⟩

theorem opened_body (env : Environment) : (env.opened .body).Shows [] := by
  refine ⟨sound_opened_body env, List.cons_ne_nil _ _, fun name => ?_⟩
  exact iff_of_false Bool.false_ne_true List.not_mem_nil

theorem close_branch (shows_ : env.Shows visible) {inner : Environment} (sound : inner.Sound)
    (grows : (env.opened .branch).Grows inner) : inner.close.Shows visible := by
  refine ⟨(Becomes.close_branch ⟨rfl, sound, grows⟩).sound, ?_, fun name => ?_⟩
  · rw [grows.scopes_closed]
    exact shows_.opened
  · rw [SymbolTable.locate?, grows.scopes_closed]
    exact shows_.seen_iff name

end Shows

/-! ## Names and types -/

/-- A scope is open, the given names are visible and the visible variables have allowed types. -/
structure VisibleTyped (env : Environment) (visible : List String) (allowed : Ty → Prop) :
    Prop where
  sound : env.Sound
  opened : env.table.scopes ≠ []
  seen : ∀ name ∈ visible, (env.table.locate? name).isSome
  typed : env.frames.Typed allowed

namespace VisibleTyped

variable {env : Environment} {visible : List String} {allowed : Ty → Prop}

theorem weaken (known : env.VisibleTyped visible allowed) {fewer : List String}
    (subset : ∀ name ∈ fewer, name ∈ visible) : env.VisibleTyped fewer allowed :=
  ⟨known.sound, known.opened, fun name member => known.seen name (subset name member), known.typed⟩

/-- A visible name has a variable, and its type is an allowed one. -/
theorem isSome_typeOf? (known : env.VisibleTyped visible allowed) {name : String}
    (member : name ∈ visible) : (env.typeOf? name).isSome := by
  obtain ⟨location, found⟩ := Option.isSome_iff_exists.mp (known.seen name member)
  have placed := known.sound.within location (Scope.mem_flatMap_of_findSome? found)
  rw [typeOf?, Option.isSome_map, lookup?, found]
  exact env.store.get?_isSome placed

theorem typeOf (known : env.VisibleTyped visible allowed) (unresolved : allowed .unresolved)
    (name : String) : allowed ((env.typeOf? name).getD .unresolved) := by
  rw [typeOf?_getD]
  cases found : env.frames.typeOf? name with
  | none => exact unresolved
  | some type => exact known.typed.typeOf? found

theorem bind (known : env.VisibleTyped visible allowed) {name : String} {type : Ty}
    {after : Environment} {frames : Frames} (becomes : env.Becomes after frames)
    (binds : env.frames.Binds name type frames) (new : allowed type) :
    after.VisibleTyped (name :: visible) allowed where
  sound := becomes.sound
  opened := becomes.grows.opened known.opened
  seen other member := by
    rw [becomes.isSome_locate?_iff binds known.opened]
    rcases List.mem_cons.mp member with rfl | old
    · exact .inr rfl
    · exact .inl (known.seen other old)
  typed := by
    rw [becomes.frames_eq]
    exact binds.typed known.typed new

theorem declared (known : env.VisibleTyped visible allowed) (name : String) {type : Ty}
    (new : allowed type) : (env.declared name type).VisibleTyped (name :: visible) allowed :=
  known.bind (declared_becomes known.sound name type) (Frames.binds_declare _ name type) new

theorem assigned (known : env.VisibleTyped visible allowed) (name : String) {type : Ty}
    (new : allowed type) : (env.assigned name type).VisibleTyped (name :: visible) allowed :=
  known.bind (assigned_becomes known.sound name type) (Frames.binds_assign _ name type) new

theorem rebound (known : env.VisibleTyped visible allowed) (name : String) {type : Ty}
    (new : allowed type) : (env.rebind name type).VisibleTyped (name :: visible) allowed :=
  known.bind (rebind_becomes known.sound name type) (Frames.binds_rebind _ name type) new

theorem opened_branch (known : env.VisibleTyped visible allowed) :
    (env.opened .branch).VisibleTyped visible allowed where
  sound := sound_opened_branch known.sound
  opened := List.cons_ne_nil _ _
  seen := known.seen
  typed := by
    intro frame member
    rcases List.mem_cons.mp member with rfl | outer
    · exact fun _ inside => absurd inside List.not_mem_nil
    · exact known.typed frame outer

theorem opened_body (env : Environment) (allowed : Ty → Prop) :
    (env.opened .body).VisibleTyped [] allowed where
  sound := sound_opened_body env
  opened := List.cons_ne_nil _ _
  seen _ member := absurd member List.not_mem_nil
  typed := by
    intro frame member binding inside
    rw [frames_opened_body, List.mem_singleton] at member
    rw [member] at inside
    cases inside

/-- The names around a branch are those from before, with the types that the branch left. -/
theorem close_branch (known : env.VisibleTyped visible allowed) {inner : Environment}
    {later : List String} (innerTyped : inner.VisibleTyped later allowed)
    (grows : (env.opened .branch).Grows inner) : inner.close.VisibleTyped visible allowed := by
  have becomes : env.Becomes inner.close inner.frames.tail :=
    Becomes.close_branch ⟨rfl, innerTyped.sound, grows⟩
  refine ⟨becomes.sound, ?_, ?_, ?_⟩
  · rw [grows.scopes_closed]
    exact known.opened
  · intro name member
    rw [SymbolTable.locate?, grows.scopes_closed]
    exact known.seen name member
  · rw [becomes.frames_eq]
    exact fun frame member => innerTyped.typed frame (List.mem_of_mem_tail member)

theorem untouched (known : env.VisibleTyped visible allowed) {after : Environment}
    (same : env.Untouched after) : after.VisibleTyped visible allowed := by
  have becomes := same.becomes known.sound
  refine ⟨becomes.sound, ?_, ?_, ?_⟩
  · rw [same.scopes]
    exact known.opened
  · intro name member
    rw [SymbolTable.locate?, same.scopes]
    exact known.seen name member
  · rw [becomes.frames_eq]
    exact known.typed

end VisibleTyped

end Environment

end CallSite
