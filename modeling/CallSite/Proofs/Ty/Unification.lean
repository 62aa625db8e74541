import CallSite.Inference.State
import CallSite.Inference.Check
import CallSite.Proofs.Ty.Order

/-!
# Unifying many types

A list of types is unified from left to right, and each type is compared with what those before it
have come to.  Types that agree pairwise form a chain, and they come to the greatest of them.  So
the outcome is decided by the pairs of types alone, in whatever order the types stand.
-/

namespace CallSite

namespace Ty

/-- Every two of the types agree. -/
def Agreeing (types : List Ty) : Prop :=
  ∀ left ∈ types, ∀ right ∈ types, left.agrees right = true

instance (types : List Ty) : Decidable (Agreeing types) :=
  inferInstanceAs (Decidable (∀ left ∈ types, ∀ right ∈ types, left.agrees right = true))

/-- The type at the index does not agree with one of those before it. -/
def ClashesAt (types : List Ty) (index : Nat) : Prop :=
  ∃ type, types[index]? = some type ∧ ∃ earlier ∈ types.take index, earlier.agrees type = false

theorem agreeing_of_bounded {types : List Ty} {bound : Ty}
    (above : bound ∈ upperBounds {type | type ∈ types}) : Agreeing types := by
  intro left hasLeft right hasRight
  exact (agrees_iff_bounded left right).mpr ⟨bound, above hasLeft, above hasRight⟩

theorem Agreeing.not_clashesAt {types : List Ty} (agreeing : Agreeing types) (index : Nat) :
    ¬ ClashesAt types index := by
  rintro ⟨type, here, earlier, before, clash⟩
  have agree := agreeing earlier (List.mem_of_mem_take before) type (List.mem_of_getElem? here)
  rw [clash] at agree
  cases agree

/-! ## From left to right -/

/-- What the unification of some types comes to: the greatest of them, or the first index at which
one of them clashes with those before it. -/
inductive Unifies (types : List Ty) : Except Nat Ty → Prop where
  | ok {unified : Ty} (greatest : IsGreatest {type | type ∈ types} unified) :
      Unifies types (.ok unified)
  | error {index : Nat} (first : IsLeast {index | ClashesAt types index} index) :
      Unifies types (.error index)

namespace Unifies

variable {types : List Ty} {outcome : Except Nat Ty}

theorem eq_ok_iff (unifies : Unifies types outcome) (unified : Ty) :
    outcome = .ok unified ↔ IsGreatest {type | type ∈ types} unified := by
  cases unifies with
  | ok greatest =>
    constructor
    · intro same
      cases same
      exact greatest
    · intro another
      rw [greatest.unique another]
  | error first =>
    refine iff_of_false nofun fun greatest => ?_
    exact (agreeing_of_bounded greatest.2).not_clashesAt _ first.1

theorem eq_error_iff (unifies : Unifies types outcome) (index : Nat) :
    outcome = .error index ↔ IsLeast {index | ClashesAt types index} index := by
  cases unifies with
  | ok greatest =>
    refine iff_of_false nofun fun first => ?_
    exact (agreeing_of_bounded greatest.2).not_clashesAt index first.1
  | error first =>
    constructor
    · intro same
      cases same
      exact first
    · intro another
      rw [first.unique another]

end Unifies

theorem isGreatest_concat {seen : List Ty} {running type unified : Ty}
    (greatest : IsGreatest {type | type ∈ seen} running)
    (joined : running.unify type = some unified) :
    IsGreatest {other | other ∈ seen ++ [type]} unified := by
  have agree : running.agrees type = true := by
    rw [← isSome_unify, joined]
    rfl
  rcases (agrees_iff_le_or_le running type).mp agree with below | above
  · obtain rfl : type = unified := Option.some.inj ((unify_of_le below).symm.trans joined)
    refine ⟨List.mem_append_right _ List.mem_cons_self, fun other member => ?_⟩
    rcases List.mem_append.mp member with early | last
    · exact (greatest.2 early).trans below
    · exact le_of_eq (List.mem_singleton.mp last)
  · obtain rfl : running = unified := Option.some.inj ((unify_of_ge above).symm.trans joined)
    refine ⟨List.mem_append_left _ greatest.1, fun other member => ?_⟩
    rcases List.mem_append.mp member with early | last
    · exact greatest.2 early
    · exact List.mem_singleton.mp last ▸ above

theorem isLeast_clashesAt {seen : List Ty} {running type : Ty} (rest : List Ty)
    (greatest : IsGreatest {type | type ∈ seen} running) (apart : running.unify type = none) :
    IsLeast {index | ClashesAt (seen ++ type :: rest) index} seen.length := by
  have clash : running.agrees type = false := by
    rw [← isSome_unify, apart]
    rfl
  constructor
  · exact ⟨type, by simp, running, by simpa using greatest.1, clash⟩
  · rintro index ⟨other, here, earlier, before, different⟩
    by_contra less
    have inside : index < seen.length := Nat.lt_of_not_le less
    rw [List.getElem?_append_left inside] at here
    rw [List.take_append_of_le_length (Nat.le_of_lt inside)] at before
    exact (agreeing_of_bounded greatest.2).not_clashesAt index
      ⟨other, here, earlier, before, different⟩

/-- The greatest of the types seen stands for all of them, so a further type is compared with it
alone. -/
theorem unifies_unifyFrom {seen : List Ty} {running : Ty}
    (greatest : IsGreatest {type | type ∈ seen} running) (types : List Ty) :
    Unifies (seen ++ types) (unifyFrom seen.length running types) := by
  induction types generalizing seen running with
  | nil =>
    rw [List.append_nil]
    exact .ok greatest
  | cons type types ih =>
    rw [unifyFrom]
    cases joined : running.unify type with
    | some unified =>
      have later := ih (isGreatest_concat greatest joined)
      rwa [List.append_assoc, List.length_append] at later
    | none => exact .error (isLeast_clashesAt types greatest joined)

theorem unifies_unifyFrom_one (type : Ty) (types : List Ty) :
    Unifies (type :: types) (unifyFrom 1 type types) := by
  have alone : IsGreatest {other | other ∈ [type]} type :=
    ⟨List.mem_singleton_self type, fun _ member => le_of_eq (List.mem_singleton.mp member)⟩
  exact unifies_unifyFrom alone types

/-! ## Decided by the pairs -/

theorem unifyAll_eq_ok_none_iff (types : List Ty) : unifyAll types = .ok none ↔ types = [] := by
  cases types with
  | nil => exact iff_of_true rfl rfl
  | cons type types =>
    refine iff_of_false ?_ (List.cons_ne_nil _ _)
    rw [unifyAll]
    cases unifyFrom 1 type types <;> exact nofun

theorem unifyAll_eq_ok_some_iff (types : List Ty) (unified : Ty) :
    unifyAll types = .ok (some unified) ↔ IsGreatest {type | type ∈ types} unified := by
  cases types with
  | nil => exact iff_of_false nofun fun greatest => List.not_mem_nil greatest.1
  | cons type types =>
    rw [unifyAll, ← (unifies_unifyFrom_one type types).eq_ok_iff]
    cases unifyFrom 1 type types <;> simp [Except.map]

theorem unifyAll_eq_error_iff (types : List Ty) (index : Nat) :
    unifyAll types = .error index ↔ IsLeast {index | ClashesAt types index} index := by
  cases types with
  | nil =>
    refine iff_of_false nofun ?_
    rintro ⟨⟨type, here, _⟩, _⟩
    cases here
  | cons type types =>
    rw [unifyAll, ← (unifies_unifyFrom_one type types).eq_error_iff]
    cases unifyFrom 1 type types <;> simp [Except.map]

theorem isOk_unifyAll_iff (types : List Ty) :
    (∃ unified, unifyAll types = .ok unified) ↔ Agreeing types := by
  constructor
  · rintro ⟨_ | unified, outcome⟩
    · rw [(unifyAll_eq_ok_none_iff types).mp outcome]
      exact fun _ member => absurd member List.not_mem_nil
    · exact agreeing_of_bounded ((unifyAll_eq_ok_some_iff types unified).mp outcome).2
  · intro agreeing
    cases outcome : unifyAll types with
    | ok unified => exact ⟨unified, rfl⟩
    | error index =>
      exact absurd ((unifyAll_eq_error_iff types index).mp outcome).1
        (agreeing.not_clashesAt index)

theorem Agreeing.exists_isGreatest {types : List Ty} (agreeing : Agreeing types)
    (nonempty : types ≠ []) : ∃ unified, IsGreatest {type | type ∈ types} unified := by
  obtain ⟨_ | unified, outcome⟩ := (isOk_unifyAll_iff types).mpr agreeing
  · exact absurd ((unifyAll_eq_ok_none_iff types).mp outcome) nonempty
  · exact ⟨unified, (unifyAll_eq_ok_some_iff types unified).mp outcome⟩

/-- A least upper bound of some types is one of them. -/
theorem isGreatest_iff_isLUB {types : List Ty} (nonempty : types ≠ []) (unified : Ty) :
    IsGreatest {type | type ∈ types} unified ↔ IsLUB {type | type ∈ types} unified := by
  refine ⟨IsGreatest.isLUB, fun least => ?_⟩
  obtain ⟨other, greatest⟩ := (agreeing_of_bounded least.1).exists_isGreatest nonempty
  rwa [least.unique greatest.isLUB]

/-! ## Dropping what is not known -/

theorem listOf?_eq (elements : List Ty) :
    listOf? elements =
      (unifyAll (known elements)).toOption.map fun element => list (element.getD unresolved) := by
  rw [listOf?]
  cases unifyAll (known elements) <;> rfl

theorem unifyReturns_eq {returns : List Ty} (nonempty : returns ≠ []) :
    unifyReturns returns =
      (unifyAll (known returns)).toOption.map fun unified => unified.getD unresolved := by
  rw [unifyReturns]
  · cases unifyAll (known returns) <;> rfl
  · exact nonempty

theorem unifyReturns_of_unknown {returns : List Ty} (nonempty : returns ≠ [])
    (unknown : known returns = []) : unifyReturns returns = some unresolved := by
  rw [unifyReturns_eq nonempty, unknown]
  rfl

theorem unifyReturns_of_isGreatest {returns : List Ty} {unified : Ty}
    (greatest : IsGreatest {type | type ∈ known returns} unified) :
    unifyReturns returns = some unified := by
  have nonempty : returns ≠ [] := by
    rintro rfl
    exact List.not_mem_nil greatest.1
  rw [unifyReturns_eq nonempty, (unifyAll_eq_ok_some_iff _ _).mpr greatest]
  rfl

/-- Returns agree where their known types do. -/
theorem isSome_unifyReturns_iff (returns : List Ty) :
    (unifyReturns returns).isSome = true ↔ Agreeing (known returns) := by
  by_cases empty : returns = []
  · subst empty
    exact iff_of_true rfl fun _ member => absurd member List.not_mem_nil
  · rw [unifyReturns_eq empty, Option.isSome_map, ← isOk_unifyAll_iff]
    cases unifyAll (known returns) with
    | ok unified => exact iff_of_true rfl ⟨unified, rfl⟩
    | error index => exact iff_of_false nofun nofun

/-- What returns come to: no value where there are none, otherwise the least upper bound of their
known types where there is one. -/
theorem unifyReturns_spec (returns : List Ty) :
    let unified := (unifyReturns returns).getD unresolved
    (returns = [] → unified = noValue) ∧
    (returns ≠ [] → (∀ type ∈ returns, type = unresolved) → unified = unresolved) ∧
    (known returns ≠ [] → Agreeing (known returns) →
      IsLUB {type | type ∈ known returns} unified) ∧
    (¬ Agreeing (known returns) → unified = unresolved) := by
  intro unified
  refine ⟨?_, ?_, ?_, ?_⟩
  · rintro rfl
    rfl
  · intro nonempty unknown
    have nothing : known returns = [] :=
      List.filter_eq_nil_iff.mpr fun type member => by simp [unknown type member]
    dsimp only [unified]
    rw [unifyReturns_of_unknown nonempty nothing, Option.getD_some]
  · intro nonempty agreeing
    obtain ⟨greatest, isGreatest⟩ := agreeing.exists_isGreatest nonempty
    dsimp only [unified]
    rw [unifyReturns_of_isGreatest isGreatest, Option.getD_some]
    exact isGreatest.isLUB
  · intro apart
    rw [← isSome_unifyReturns_iff, Option.not_isSome_iff_eq_none] at apart
    dsimp only [unified]
    rw [apart, Option.getD_none]

/-! ## In any order -/

theorem unifyAll_eq_ok_iff_of_perm {types others : List Ty} (perm : types.Perm others)
    (unified : Option Ty) : unifyAll types = .ok unified ↔ unifyAll others = .ok unified := by
  cases unified with
  | none =>
    rw [unifyAll_eq_ok_none_iff, unifyAll_eq_ok_none_iff, ← List.length_eq_zero_iff,
      ← List.length_eq_zero_iff, perm.length_eq]
  | some unified =>
    have same : {type | type ∈ types} = {type | type ∈ others} :=
      Set.ext fun _ => perm.mem_iff
    rw [unifyAll_eq_ok_some_iff, unifyAll_eq_ok_some_iff, same]

theorem toOption_unifyAll_of_perm {types others : List Ty} (perm : types.Perm others) :
    (unifyAll types).toOption = (unifyAll others).toOption := by
  refine Option.ext fun unified => ?_
  have toOption : ∀ outcome : Except Nat (Option Ty),
      outcome.toOption = some unified ↔ outcome = .ok unified := by
    rintro (_ | _) <;> simp [Except.toOption]
  rw [toOption, toOption, unifyAll_eq_ok_iff_of_perm perm]

theorem known_perm {types others : List Ty} (perm : types.Perm others) :
    (known types).Perm (known others) :=
  perm.filter _

theorem listOf?_of_perm {elements others : List Ty} (perm : elements.Perm others) :
    listOf? elements = listOf? others := by
  rw [listOf?_eq, listOf?_eq, toOption_unifyAll_of_perm (known_perm perm)]

theorem unifyReturns_of_perm {returns others : List Ty} (perm : returns.Perm others) :
    unifyReturns returns = unifyReturns others := by
  by_cases empty : returns = []
  · subst empty
    rw [List.nil_perm.mp perm]
  · have nonempty : others ≠ [] := by
      rintro rfl
      exact empty (List.perm_nil.mp perm)
    rw [unifyReturns_eq empty, unifyReturns_eq nonempty,
      toOption_unifyAll_of_perm (known_perm perm)]

end Ty

namespace Inference

/-! ## List literals and returns -/

theorem listRule_of_perm {elements others : List Ty} (perm : elements.Perm others) :
    listRule elements = listRule others := by
  rw [listRule, listRule, Ty.listOf?_of_perm perm]

theorem returnRule_of_perm (problem : Problem) {returns others : List Ty}
    (perm : returns.Perm others) : returnRule problem returns = returnRule problem others := by
  rw [returnRule, returnRule, Ty.unifyReturns_of_perm perm]

/-- Types unify exactly when they agree pairwise, and then to their least upper bound, which is one
of them.  Where they do not unify, the index names the first type that does not agree with all
before it.  So neither the type of a list literal nor what a body returns depends on the order. -/
theorem unifyAll_decided_by_pairs (types : List Ty) :
    ((∃ unified, Ty.unifyAll types = .ok unified) ↔ Ty.Agreeing types) ∧
    (Ty.unifyAll types = .ok none ↔ types = []) ∧
    (∀ unified, Ty.unifyAll types = .ok (some unified) ↔
      types ≠ [] ∧ IsLUB {type | type ∈ types} unified) ∧
    (∀ unified, Ty.unifyAll types = .ok (some unified) → unified ∈ types) ∧
    (∀ index, Ty.unifyAll types = .error index ↔
      IsLeast {index | Ty.ClashesAt types index} index) ∧
    ∀ others, types.Perm others →
      (∀ unified, Ty.unifyAll types = .ok unified ↔ Ty.unifyAll others = .ok unified) ∧
      Ty.unifyReturns types = Ty.unifyReturns others ∧
      (∀ problem, returnRule problem types = returnRule problem others) ∧
      ∀ (context : Context) (enter : Invocation → CheckM Ty) (position place : Position)
        (elements exchanged : List Expr) (state later : State),
        ((checkExprs context enter elements).run state).1 = types →
        ((checkExprs context enter exchanged).run later).1 = others →
        ((checkExpr context enter (.list position elements)).run state).1 =
          ((checkExpr context enter (.list place exchanged)).run later).1 := by
  refine ⟨Ty.isOk_unifyAll_iff types, Ty.unifyAll_eq_ok_none_iff types, fun unified => ?_,
    fun unified outcome => ((Ty.unifyAll_eq_ok_some_iff types unified).mp outcome).1,
    Ty.unifyAll_eq_error_iff types, fun others perm => ?_⟩
  · rw [Ty.unifyAll_eq_ok_some_iff]
    constructor
    · intro greatest
      exact ⟨List.ne_nil_of_mem greatest.1, greatest.isLUB⟩
    · rintro ⟨nonempty, least⟩
      exact (Ty.isGreatest_iff_isLUB nonempty unified).mpr least
  · refine ⟨Ty.unifyAll_eq_ok_iff_of_perm perm, Ty.unifyReturns_of_perm perm,
      fun problem => returnRule_of_perm problem perm, ?_⟩
    intro context enter position place elements exchanged state later same other
    have literal (position : Position) (elements : List Expr) (state : State) :
        ((checkExpr context enter (.list position elements)).run state).1 =
          (listRule ((checkExprs context enter elements).run state).1).toOption.getD .unresolved :=
      congrArg Prod.fst (run_settle position _ _)
    rw [literal, literal, same, other, listRule_of_perm perm]

/-- An empty list and a list of whole numbers, in either order, are returned as the latter. -/
theorem unifyAll_decided_swapped :
    [Ty.list .unresolved, .unresolved, .list .int].Perm
      [Ty.list .int, .unresolved, .list .unresolved] ∧
    Ty.unifyReturns [.list .int, .unresolved, .list .unresolved] = some (.list .int) := by
  have perm : [Ty.list .unresolved, .unresolved, .list .int].Perm
      [Ty.list .int, .unresolved, .list .unresolved] := by decide
  have returns := ((unifyAll_decided_by_pairs _).2.2.2.2.2 _ perm).2.1
  exact ⟨perm, returns.symm.trans rfl⟩

end Inference

end CallSite
