import CallSite.Proofs.Ty.Unification
import Mathlib.Data.List.Induction

/-!
# Lists built by pushes

A push gives a list the type that it has with one more element, or it is rejected.  The type of a
list literal is what its elements come to when they are pushed one after the other onto an empty
list, and the literal is rejected exactly where one of these pushes is.
-/

namespace CallSite.Ty

open Inference (pushRule pushedElement)

/-- The type of a value after a push, where the push is not rejected. -/
def pushed? (whole value : Ty) : Option Ty :=
  (pushRule whole value).toOption.map fun refined => refined.getD whole

/-- The type of a value after a push; a rejected push leaves it as it was. -/
def pushed (whole value : Ty) : Ty := (whole.pushed? value).getD whole

theorem pushed?_list (element value : Ty) :
    (list element).pushed? value =
      if value = unresolved then some (list element) else (pushedElement element value).map list := by
  rw [pushed?, pushRule]
  by_cases unknown : value = unresolved
  · rw [if_pos unknown, if_pos unknown]
    rfl
  · rw [if_neg unknown, if_neg unknown]
    cases pushedElement element value with
    | none => rfl
    | some refined => by_cases same : refined = element <;> simp [same, Except.toOption]

/-! ## Upwards -/

theorem le_of_pushedElement {element value refined : Ty}
    (accepted : pushedElement element value = some refined) : list element ≤ list refined := by
  rw [pushedElement] at accepted
  split at accepted
  · next unknown =>
    rw [unknown]
    exact list_unresolved_le refined
  · have least := (unify_eq_some_iff element value refined).mp accepted
    exact (list_le_list_iff element refined).mpr (.inr (least.1 (.inl rfl)))

/-- A list stays a list and only moves up. -/
theorem exists_pushed_list (element value : Ty) :
    ∃ refined, (list element).pushed value = list refined ∧ list element ≤ list refined := by
  rw [pushed, pushed?_list]
  split
  · exact ⟨element, rfl, le_refl _⟩
  · cases accepted : pushedElement element value with
    | none => exact ⟨element, rfl, le_refl _⟩
    | some refined => exact ⟨refined, rfl, le_of_pushedElement accepted⟩

theorem exists_foldl_pushed_list (element : Ty) (values : List Ty) :
    ∃ refined, values.foldl pushed (list element) = list refined := by
  induction values generalizing element with
  | nil => exact ⟨element, rfl⟩
  | cons value values ih =>
    obtain ⟨next, same, _⟩ := exists_pushed_list element value
    rw [List.foldl_cons, same]
    exact ih next

/-! ## Literals -/

theorem unifyAll_concat (types : List Ty) (type : Ty) :
    (unifyAll (types ++ [type])).toOption =
      (unifyAll types).toOption.bind fun unified =>
        match unified with
        | none => some (some type)
        | some running => (running.unify type).map some := by
  cases outcome : unifyAll types with
  | ok unified =>
    cases unified with
    | none =>
      rw [(unifyAll_eq_ok_none_iff types).mp outcome]
      rfl
    | some running =>
      have greatest := (unifyAll_eq_ok_some_iff types running).mp outcome
      change _ = (running.unify type).map some
      cases joined : running.unify type with
      | some result =>
        rw [(unifyAll_eq_ok_some_iff _ _).mpr (isGreatest_concat greatest joined)]
        rfl
      | none =>
        rw [(unifyAll_eq_error_iff _ _).mpr (isLeast_clashesAt [] greatest joined)]
        rfl
  | error index =>
    have stillClash : ¬ Agreeing (types ++ [type]) := by
      intro agreeing
      have fewer : Agreeing types := fun left hasLeft right hasRight =>
        agreeing left (List.mem_append_left _ hasLeft) right (List.mem_append_left _ hasRight)
      obtain ⟨unified, found⟩ := (isOk_unifyAll_iff types).mpr fewer
      rw [outcome] at found
      cases found
    cases longer : unifyAll (types ++ [type]) with
    | ok unified => exact absurd ((isOk_unifyAll_iff _).mp ⟨unified, longer⟩) stillClash
    | error later => rfl

theorem ne_unresolved_of_unifyAll_known {types : List Ty} {unified : Ty}
    (outcome : unifyAll (known types) = .ok (some unified)) : unified ≠ unresolved := by
  have member := ((unifyAll_eq_ok_some_iff _ _).mp outcome).1
  simpa [known] using (List.mem_filter.mp member).2

/-- One more element in a literal is one more push. -/
theorem listOf?_concat (types : List Ty) (type : Ty) :
    listOf? (types ++ [type]) = (listOf? types).bind (·.pushed? type) := by
  rw [listOf?_eq, listOf?_eq]
  by_cases unknown : type = unresolved
  · have same : known (types ++ [type]) = known types := by simp [known, unknown]
    rw [same]
    cases (unifyAll (known types)).toOption with
    | none => rfl
    | some unified => simp [pushed?_list, unknown]
  · have more : known (types ++ [type]) = known types ++ [type] := by simp [known, unknown]
    rw [more, unifyAll_concat]
    cases outcome : unifyAll (known types) with
    | error index => rfl
    | ok unified =>
      cases unified with
      | none => simp [Except.toOption, pushed?_list, pushedElement, unknown]
      | some running =>
        have started := ne_unresolved_of_unifyAll_known outcome
        simp [Except.toOption, pushed?_list, pushedElement, unknown, started, Function.comp_def]

theorem listOf?_eq_foldlM (types : List Ty) :
    listOf? types = types.foldlM pushed? (list unresolved) := by
  induction types using List.reverseRecOn with
  | nil => rfl
  | append_singleton types type ih =>
    rw [listOf?_concat, ih, List.foldlM_append]
    simp

/-- Where no push is rejected, a row of pushes comes to the same as the row of accepted ones. -/
theorem foldl_pushed_of_foldlM {types : List Ty} {start whole : Ty}
    (accepted : types.foldlM pushed? start = some whole) : types.foldl pushed start = whole := by
  induction types generalizing start with
  | nil => exact Option.some.inj accepted
  | cons type types ih =>
    rw [List.foldlM_cons] at accepted
    obtain ⟨next, first, rest⟩ := Option.bind_eq_some_iff.mp accepted
    rw [List.foldl_cons, pushed, first]
    exact ih rest

/-- A row of pushes fails where one of them is rejected, after those before it. -/
theorem foldlM_pushed?_eq_none_iff (types : List Ty) (start : Ty) :
    types.foldlM pushed? start = none ↔ ∃ before type after, types = before ++ type :: after ∧
      (before.foldl pushed start).pushed? type = none := by
  induction types generalizing start with
  | nil => simp
  | cons type types ih =>
    rw [List.foldlM_cons]
    constructor
    · intro failed
      cases first : start.pushed? type with
      | none => exact ⟨[], type, types, rfl, first⟩
      | some next =>
        rw [first] at failed
        obtain ⟨before, rejected, after, rfl, here⟩ := (ih next).mp failed
        refine ⟨type :: before, rejected, after, rfl, ?_⟩
        rwa [List.foldl_cons, pushed, first]
    · rintro ⟨before, rejected, after, split, here⟩
      cases before with
      | nil =>
        cases split
        change start.pushed? type = none at here
        rw [here]
        rfl
      | cons _ before =>
        cases split
        cases first : start.pushed? type with
        | none => rfl
        | some next =>
          rw [List.foldl_cons, pushed, first] at here
          exact (ih next).mpr ⟨before, rejected, after, rfl, here⟩

end CallSite.Ty
