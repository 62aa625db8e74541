import CallSite.Proofs.Inference.Relabelling

/-!
# Functions and patterns of one name

What is being checked and what is refused is told by name, and functions and patterns are not told
apart.  Once a pattern has another name, a match or a call is refused exactly when the declaration
that it asks for stands in its own way, or when it was refused before under a name that stays.  So
a run and the run under the new names go side by side as long as no function and pattern of one
name meet.
-/

namespace CallSite

namespace Owner

theorem mem_names_iff {owners : List Owner} {name : String} :
    name ∈ names owners ↔ .function name ∈ owners ∨ .pattern name ∈ owners := by
  rw [names, List.mem_filterMap]
  constructor
  · rintro ⟨owner, member, named⟩
    cases owner <;> simp_all [name?]
  · rintro (member | member)
    · exact ⟨_, member, rfl⟩
    · exact ⟨_, member, rfl⟩

variable {labels : Relabelling}

theorem relabel_injective : Function.Injective (relabel labels) := by
  intro owner other same
  cases owner <;> cases other <;> simp_all [relabel]

theorem function_mem_relabel_iff {owners : List Owner} {name : String} :
    .function name ∈ owners.map (relabel labels) ↔ .function name ∈ owners :=
  List.mem_map_of_injective (a := .function name) relabel_injective

theorem pattern_mem_relabel_iff {owners : List Owner} {name : String} :
    .pattern (labels.key name) ∈ owners.map (relabel labels) ↔ .pattern name ∈ owners :=
  List.mem_map_of_injective (a := .pattern name) relabel_injective

end Owner

namespace Inference

theorem Invocation.owner_relabel (labels : Relabelling) (invocation : Invocation) :
    (invocation.relabel labels).owner = invocation.owner.relabel labels := by
  cases invocation <;> rfl

/-! ## Refusals -/

namespace Context

variable {labels : Relabelling} {context : Context}

theorem declaresOwner_owner (context : Context) (invocation : Invocation) :
    context.DeclaresOwner invocation.owner ↔ context.Declares invocation := by
  cases invocation <;> rfl

theorem mem_names_of_declares {invocation : Invocation} (known : context.Declares invocation) :
    invocation.name ∈ context.names := by
  cases invocation with
  | call =>
    obtain ⟨_, found⟩ := Option.isSome_iff_exists.mp known
    exact mem_names_of_function? found
  | matching =>
    obtain ⟨_, found⟩ := Option.isSome_iff_exists.mp known
    exact mem_names_of_pattern? found

/-- A pattern with a new name does not get that of a function, and what is shown of the name of a
pattern is shown anew. -/
structure LabelsFit (labels : Relabelling) (context : Context) : Prop where
  apart : ∀ name, (context.pattern? name).isSome →
    (context.function? (labels.key name)).isSome ∨ labels.key name ∈ context.blocked →
    labels.key name = name
  shown : ∀ pattern ∈ context.patterns,
    (pattern.relabel labels).name.baseName = labels.shown pattern.name.baseName

theorem refuses_iff (active : List String) (name : String) :
    context.refuses active name = true ↔ name ∈ active ∨ context.refuses [] name = true := by
  simp [refuses]

theorem mem_blocked_of_refuses {name : String} (refused : context.refuses [] name = true) :
    name ∈ context.blocked := by
  simp only [refuses, List.contains_nil, Bool.false_or, Bool.and_eq_true] at refused
  exact List.contains_iff_mem.mp refused.2

theorem refuses_of_meetsItself {stack : List Owner} {invocation : Invocation}
    (meets : context.MeetsItself stack invocation) :
    context.refuses (Owner.names stack) invocation.name = true := by
  rw [refuses_iff]
  refine meets.imp (fun member => ?_) And.right
  exact List.mem_filterMap.mpr ⟨_, member, invocation.name?_owner⟩

/-- Under new names, a declaration is refused for its own sake, or because it was refused before and
its name stays. -/
theorem LabelsFit.refuses_iff (fits : context.LabelsFit labels) {stack : List Owner}
    (declared : ∀ owner ∈ stack, context.DeclaresOwner owner) {invocation : Invocation}
    (known : context.Declares invocation) :
    (context.relabel labels).refuses (Owner.names (stack.map (Owner.relabel labels)))
        (invocation.relabel labels).name = true ↔
      context.MeetsItself stack invocation ∨
        context.refuses (Owner.names stack) invocation.name = true ∧
          labels.key invocation.name = invocation.name := by
  have blocks : ∀ name, (context.relabel labels).refuses [] name = context.refuses [] name :=
    fun _ => rfl
  rw [Context.refuses_iff, blocks, Owner.mem_names_iff, Owner.function_mem_relabel_iff,
    Context.refuses_iff (Owner.names stack), Owner.mem_names_iff, MeetsItself]
  cases invocation with
  | call name types =>
    constructor
    · rintro ((entered | entered) | blocked)
      · exact .inl (.inl entered)
      · obtain ⟨owner, member, same⟩ := List.mem_map.mp entered
        cases owner with
        | main | function => cases same
        | pattern other =>
          obtain rfl : labels.key other = name := Owner.pattern.inj same
          have stays := fits.apart other (declared _ member) (.inl known)
          refine .inr ⟨.inl (.inr ?_), congrArg labels.key stays⟩
          rw [Invocation.name, stays]
          exact member
      · exact .inl (.inr ⟨rfl, blocked⟩)
    · rintro ((entered | ⟨_, blocked⟩) | ⟨(entered | entered) | blocked, stays⟩)
      · exact .inl (.inl entered)
      · exact .inr blocked
      · exact .inl (.inl entered)
      · refine .inl (.inr ?_)
        rw [Invocation.relabel, ← stays]
        exact Owner.pattern_mem_relabel_iff.mpr entered
      · exact .inr blocked
  | matching name type =>
    rw [Invocation.relabel, Invocation.name, Owner.pattern_mem_relabel_iff]
    constructor
    · rintro ((entered | entered) | blocked)
      · have stays := fits.apart name known (.inl (declared _ entered))
        rw [stays] at entered
        exact .inr ⟨.inl (.inl entered), stays⟩
      · exact .inl (.inl entered)
      · have stays := fits.apart name known (.inr (mem_blocked_of_refuses blocked))
        rw [stays] at blocked
        exact .inr ⟨.inr blocked, stays⟩
    · rintro ((entered | ⟨other, _⟩) | ⟨refused, stays⟩)
      · exact .inl (.inr entered)
      · cases other
      · rw [Invocation.name] at stays
        rw [stays]
        exact refused

/-- What is separate is refused alike. -/
theorem LabelsFit.refuses (fits : context.LabelsFit labels) {stack : List Owner}
    (declared : ∀ owner ∈ stack, context.DeclaresOwner owner) {invocation : Invocation}
    (known : context.Declares invocation)
    (separate : context.Separates labels
      (.invoke stack invocation (context.refuses (Owner.names stack) invocation.name))) :
    (context.relabel labels).refuses (Owner.names (stack.map (Owner.relabel labels)))
        (invocation.relabel labels).name =
      context.refuses (Owner.names stack) invocation.name := by
  rw [Bool.eq_iff_iff, fits.refuses_iff declared known]
  constructor
  · rintro (meets | ⟨refused, _⟩)
    · exact refuses_of_meetsItself meets
    · exact refused
  · intro refused
    exact (separate refused known).imp id fun stays => ⟨refused, stays⟩

end Context

/-! ## Following invocations -/

variable {labels : Relabelling} {context : Context} {stack : List Owner}

/-- An invocation is noted alike if it is separate, and so it may be taken to be separate when it is
followed. -/
theorem Relabels.notice (fits : context.LabelsFit labels)
    (declared : ∀ owner ∈ stack, context.DeclaresOwner owner) (invocation : Invocation)
    {left right : TraceM Ty} (lengthens : Lengthens left)
    (inner : context.Separates labels
        (.invoke stack invocation (context.refuses (Owner.names stack) invocation.name)) →
      Relabels labels context stack left right) :
    Relabels labels context stack
      (do Inference.notice context (Owner.names stack) invocation; left)
      (do
        Inference.notice (context.relabel labels)
          (Owner.names (stack.map (Owner.relabel labels))) (invocation.relabel labels)
        right) := by
  refine ⟨(Lengthens.note _).bind fun _ => lengthens, ?_⟩
  intro traced other relabelled inside separate
  subst inside
  let demand : Demand := .invoke traced.stack invocation
    (context.refuses (Owner.names traced.stack) invocation.name)
  have separated : context.Separates labels demand :=
    separate demand ((lengthens (traced.note demand)).subset List.mem_cons_self)
  have noted : (traced.note demand).Relabelled labels context
      (other.note (.invoke other.stack (invocation.relabel labels)
        ((context.relabel labels).refuses
          (Owner.names (traced.stack.map (Owner.relabel labels)))
          (invocation.relabel labels).name))) := by
    refine ⟨relabelled.state, relabelled.stack, ?_⟩
    have followed : (decide ((context.relabel labels).Declares (invocation.relabel labels)) &&
          !(context.relabel labels).refuses
            (Owner.names (traced.stack.map (Owner.relabel labels)))
            (invocation.relabel labels).name) =
        (decide (context.Declares invocation) &&
          !context.refuses (Owner.names traced.stack) invocation.name) := by
      by_cases known : context.Declares invocation
      · simp [context.declares_relabel, known, fits.refuses declared known separated]
      · simp [context.declares_relabel, known]
    change _ :: (context.relabel labels).encounters other.demands =
      _ :: (context.encounters traced.demands).map (Encounter.relabel labels)
    rw [relabelled.encounters, relabelled.stack, followed]
    rfl
  exact (inner separated).alike _ _ noted rfl separate

/-- One invocation is followed in the same way under the new names if it is refused in the same way
and those nested in it are followed in the same way. -/
theorem relabels_follow (fits : context.LabelsFit labels)
    {enter other : List String → Invocation → TraceM Ty} {invocation : Invocation}
    (refusal : context.Declares invocation →
      (context.relabel labels).refuses (Owner.names (stack.map (Owner.relabel labels)))
          (invocation.relabel labels).name =
        context.refuses (Owner.names stack) invocation.name)
    (nested : context.Declares invocation →
      context.refuses (Owner.names stack) invocation.name = false → ∀ further,
      Relabels labels context (invocation.owner :: stack)
        (enter (invocation.name :: Owner.names stack) further)
        (other ((invocation.relabel labels).name ::
          Owner.names (stack.map (Owner.relabel labels))) (further.relabel labels))) :
    Relabels labels context stack (follow context enter (Owner.names stack) invocation)
      (follow (context.relabel labels) other (Owner.names (stack.map (Owner.relabel labels)))
        (invocation.relabel labels)) := by
  by_cases declared : context.Declares invocation
  case neg =>
    have renamed := (context.declares_relabel labels invocation).not.mpr declared
    rw [follow_of_not_declares declared, follow_of_not_declares renamed]
    exact .pure _
  have same := refusal declared
  cases refused : context.refuses (Owner.names stack) invocation.name with
  | true =>
    rw [follow_of_refuses refused, follow_of_refuses (same.trans refused)]
    exact .pure _
  | false =>
    have known := context.hasFunction_relabel labels
    have inner := nested declared refused
    rw [refused] at same
    cases invocation with
    | call name types =>
      obtain ⟨function, found⟩ := Option.isSome_iff_exists.mp declared
      have there := context.function?_relabel labels name
      rw [found, Option.map_some] at there
      obtain rfl := Context.name_of_function? found
      rw [follow_call found refused, Invocation.relabel, follow_call there same]
      exact (relabels_checkFunction known inner function types).inCall declared
    | matching name type =>
      obtain ⟨pattern, found⟩ := Option.isSome_iff_exists.mp declared
      have there := context.pattern?_relabel labels name
      rw [found, Option.map_some] at there
      have shown := fits.shown pattern (List.mem_of_find?_eq_some found)
      obtain rfl := Context.name_of_pattern? found
      rw [follow_matching found refused, Invocation.relabel, follow_matching there same]
      exact (relabels_checkPattern known inner shown type).inMatch declared type

/-- Every invocation is watched in the same way under the new names.  The induction is on the number
of names that may still be entered. -/
theorem relabels_watch (fits : context.LabelsFit labels)
    (declared : ∀ owner ∈ stack, context.DeclaresOwner owner) (invocation : Invocation) :
    Relabels labels context stack (watch context (Owner.names stack) invocation)
      (watch (context.relabel labels) (Owner.names (stack.map (Owner.relabel labels)))
        (invocation.relabel labels)) := by
  induction size : (context.unentered (Owner.names stack)).length using Nat.strongRecOn
    generalizing stack invocation with
  | _ size ih =>
    rw [watch_eq_follow, watch_eq_follow]
    refine .notice fits declared invocation
      (lengthens_follow (fun _ => lengthens_watchWithin context _ _) invocation) fun separate => ?_
    refine relabels_follow fits (fun known => fits.refuses declared known separate) ?_
    intro known admitted further
    have fewer := Context.length_unentered_cons_lt (Context.mem_names_of_declares known)
      (Context.not_mem_of_not_refuses admitted)
    have named : Owner.names (invocation.owner :: stack) =
        invocation.name :: Owner.names stack :=
      List.filterMap_cons_some invocation.name?_owner
    have renamed : Owner.names ((invocation.owner :: stack).map (Owner.relabel labels)) =
        (invocation.relabel labels).name :: Owner.names (stack.map (Owner.relabel labels)) := by
      rw [List.map_cons, ← Invocation.owner_relabel]
      exact List.filterMap_cons_some (invocation.relabel labels).name?_owner
    have inside : ∀ owner ∈ invocation.owner :: stack, context.DeclaresOwner owner :=
      List.forall_mem_cons.mpr ⟨(context.declaresOwner_owner invocation).mpr known, declared⟩
    have nested := ih _ (by rwa [named, ← size]) inside further rfl
    rwa [named, renamed] at nested

end Inference

end CallSite
