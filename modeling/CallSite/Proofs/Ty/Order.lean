import CallSite.Ty.Unify
import Mathlib.Order.Bounds.Basic

/-!
# The order of types

A type lies below another one when the other one says more about unknown list elements and agrees in
everything else.  The types below a given one form a chain, so two types have a common upper bound
exactly when one of them lies below the other.  These are the types that agree, and unification
takes their least upper bound.
-/

namespace CallSite.Ty

/-- The second type is the first one, with unknown list elements replaced. -/
inductive Refines : Ty → Ty → Prop where
  | refl (type : Ty) : Refines type type
  | unknown (element : Ty) : Refines (list unresolved) (list element)
  | list {element other : Ty} (inner : Refines element other) : Refines (list element) (list other)

/-! ## A partial order -/

theorem Refines.eq_unresolved {type : Ty} (refines : Refines type unresolved) :
    type = unresolved := by
  cases refines
  rfl

theorem Refines.trans {first second third : Ty} (left : Refines first second)
    (right : Refines second third) : Refines first third := by
  induction left generalizing third with
  | refl type => exact right
  | unknown element => cases right <;> exact .unknown _
  | @list element other inner ih =>
    cases right with
    | refl => exact .list inner
    | unknown last =>
      rw [inner.eq_unresolved]
      exact .unknown last
    | list outer => exact .list (ih outer)

theorem Refines.antisymm {first second : Ty} (left : Refines first second)
    (right : Refines second first) : first = second := by
  induction left with
  | refl type => rfl
  | unknown element =>
    cases right with
    | refl => rfl
    | unknown => rfl
    | list inner => rw [inner.eq_unresolved]
  | @list element other inner ih =>
    cases right with
    | refl => rfl
    | unknown => rw [inner.eq_unresolved]
    | list outer => rw [ih outer]

instance : PartialOrder Ty where
  le := Refines
  le_refl := .refl
  le_trans _ _ _ := .trans
  le_antisymm _ _ := Refines.antisymm

theorem list_unresolved_le (element : Ty) : list unresolved ≤ list element := .unknown element

theorem le_iff (first second : Ty) :
    first ≤ second ↔ first = second ∨
      (first = list unresolved ∧ ∃ element, second = list element) ∨
      ∃ element other, first = list element ∧ second = list other ∧ element ≤ other := by
  constructor
  · intro refines
    cases refines with
    | refl => exact .inl rfl
    | unknown element => exact .inr (.inl ⟨rfl, element, rfl⟩)
    | list inner => exact .inr (.inr ⟨_, _, rfl, rfl, inner⟩)
  · rintro (rfl | ⟨rfl, element, rfl⟩ | ⟨element, other, rfl, rfl, inner⟩)
    · exact le_refl first
    · exact list_unresolved_le element
    · exact .list inner

/-- Only an unknown element can be replaced without regard to what it is. -/
theorem list_le_list_iff (element other : Ty) :
    list element ≤ list other ↔ element = unresolved ∨ element ≤ other := by
  constructor
  · intro refines
    cases refines with
    | refl => exact .inr (le_refl element)
    | unknown => exact .inl rfl
    | list inner => exact .inr inner
  · rintro (rfl | inner)
    · exact list_unresolved_le other
    · exact .list inner

/-- The types below a given one form a chain. -/
theorem le_or_le_of_le {first second bound : Ty} (left : first ≤ bound) (right : second ≤ bound) :
    first ≤ second ∨ second ≤ first := by
  induction left generalizing second with
  | refl type => exact .inr right
  | unknown element =>
    cases right with
    | refl => exact .inl (list_unresolved_le element)
    | unknown => exact .inl (le_refl _)
    | @list below _ _ => exact .inl (list_unresolved_le below)
  | @list element other inner ih =>
    cases right with
    | refl => exact .inl (.list inner)
    | unknown => exact .inr (list_unresolved_le element)
    | list below => exact (ih below).imp .list .list

/-! ## Unification -/

theorem agrees_iff_le_or_le (left right : Ty) :
    left.agrees right = true ↔ left ≤ right ∨ right ≤ left := by
  fun_induction agrees left right with
  | case1 left right ih =>
    simp only [Bool.or_eq_true, beq_iff_eq, ih, list_le_list_iff]
    tauto
  | case2 left right notLists =>
    rw [beq_iff_eq]
    constructor
    · rintro rfl
      exact .inl (le_refl left)
    · rintro (refines | refines)
      all_goals cases refines with
      | refl => rfl
      | unknown | list => exact absurd rfl (notLists _ _ rfl)

theorem unify_of_le {left right : Ty} (below : left ≤ right) : left.unify right = some right := by
  induction below with
  | refl type => exact unify_self type
  | unknown element => simp [unify]
  | @list element other inner ih =>
    by_cases unknown : element = unresolved
    · simp [unify, unknown]
    · have known : other ≠ unresolved := by
        rintro rfl
        exact unknown inner.eq_unresolved
      simp [unify, unknown, known, ih]

theorem unify_of_ge {left right : Ty} (above : right ≤ left) : left.unify right = some left := by
  induction above with
  | refl type => exact unify_self type
  | unknown element => by_cases unknown : element = unresolved <;> simp [unify, unknown]
  | @list element other inner ih =>
    by_cases unknown : element = unresolved
    · by_cases alsoUnknown : other = unresolved <;> simp [unify, unknown, alsoUnknown]
    · have known : other ≠ unresolved := by
        rintro rfl
        exact unknown inner.eq_unresolved
      simp [unify, unknown, known, ih]

theorem isLUB_pair_of_le {left right : Ty} (below : left ≤ right) : IsLUB {left, right} right := by
  constructor
  · rintro type (rfl | rfl)
    · exact below
    · exact le_refl type
  · intro bound above
    exact above (.inr rfl)

theorem le_or_le_of_isLUB {left right bound : Ty} {types : Set Ty} (least : IsLUB types bound)
    (hasLeft : left ∈ types) (hasRight : right ∈ types) : left ≤ right ∨ right ≤ left :=
  le_or_le_of_le (least.1 hasLeft) (least.1 hasRight)

/-- Unification takes least upper bounds, and fails where there is none. -/
theorem unify_eq_some_iff (left right unified : Ty) :
    left.unify right = some unified ↔ IsLUB {left, right} unified := by
  have compared : left ≤ right ∨ right ≤ left →
      (left.unify right = some unified ↔ IsLUB {left, right} unified) := by
    rintro (below | above)
    · have least := isLUB_pair_of_le below
      rw [unify_of_le below, Option.some.injEq]
      exact ⟨fun same => same ▸ least, fun other => least.unique other⟩
    · have least := Set.pair_comm right left ▸ isLUB_pair_of_le above
      rw [unify_of_ge above, Option.some.injEq]
      exact ⟨fun same => same ▸ least, fun other => least.unique other⟩
  constructor
  · intro joined
    have agree : left.agrees right = true := by rw [← isSome_unify, joined]; rfl
    exact (compared ((agrees_iff_le_or_le left right).mp agree)).mp joined
  · intro least
    exact (compared (le_or_le_of_isLUB least (.inl rfl) (.inr rfl))).mpr least

theorem agrees_iff_bounded (left right : Ty) :
    left.agrees right = true ↔ ∃ bound, left ≤ bound ∧ right ≤ bound := by
  rw [agrees_iff_le_or_le]
  constructor
  · rintro (below | above)
    · exact ⟨right, below, le_refl right⟩
    · exact ⟨left, le_refl left, above⟩
  · rintro ⟨bound, leftBelow, rightBelow⟩
    exact le_or_le_of_le leftBelow rightBelow

theorem unify_comm (left right : Ty) : left.unify right = right.unify left := by
  refine Option.ext fun unified => ?_
  rw [unify_eq_some_iff, unify_eq_some_iff, Set.pair_comm]

/-- Two of three types may be replaced by their least upper bound. -/
theorem isLUB_pair_iff {left right unified : Ty} (least : IsLUB {left, right} unified)
    (third bound : Ty) : IsLUB {unified, third} bound ↔ IsLUB {left, right, third} bound := by
  refine isLUB_congr (Set.ext fun above => ?_)
  have both := isLUB_le_iff (b := above) least
  simp only [mem_upperBounds, Set.mem_insert_iff, Set.mem_singleton_iff, forall_eq_or_imp,
    forall_eq] at both ⊢
  rw [both, and_assoc]

theorem bind_unify_eq_some_iff (left right third bound : Ty) :
    (left.unify right).bind (·.unify third) = some bound ↔
      IsLUB {left, right, third} bound := by
  constructor
  · intro joined
    obtain ⟨unified, first, second⟩ := Option.bind_eq_some_iff.mp joined
    have least := (unify_eq_some_iff left right unified).mp first
    exact (isLUB_pair_iff least third bound).mp ((unify_eq_some_iff _ _ _).mp second)
  · intro least
    have bounded : ∃ above, left ≤ above ∧ right ≤ above :=
      ⟨bound, least.1 (.inl rfl), least.1 (.inr (.inl rfl))⟩
    have some_ : (left.unify right).isSome = true := by
      rw [isSome_unify]
      exact (agrees_iff_bounded left right).mpr bounded
    obtain ⟨unified, first⟩ := Option.isSome_iff_exists.mp some_
    refine Option.bind_eq_some_iff.mpr ⟨unified, first, ?_⟩
    have inner := (unify_eq_some_iff left right unified).mp first
    exact (unify_eq_some_iff _ _ _).mpr ((isLUB_pair_iff inner third bound).mpr least)

/-- Both ways to unify three types are their least upper bound, or fail for want of one. -/
theorem unify_assoc (left right third : Ty) :
    (left.unify right).bind (·.unify third) = (right.unify third).bind (left.unify ·) := by
  have turned : (right.unify third).bind (left.unify ·) =
      (right.unify third).bind (·.unify left) := by
    simp only [unify_comm left]
  refine Option.ext fun bound => ?_
  rw [turned, bind_unify_eq_some_iff, bind_unify_eq_some_iff, Set.insert_comm left,
    Set.pair_comm left]

/-- The order says how much is known of list elements.  Two types agree when they have a common
upper bound, and exactly then they have a unified type, which is the least one.  So unification is
idempotent, commutative and associative where it succeeds, and both ways to associate fail together,
although two types that agree with a third one need not agree. -/
theorem unify_is_partial_join (left right third : Ty) :
    (left ≤ right ↔ left = right ∨
      (left = list unresolved ∧ ∃ element, right = list element) ∨
      ∃ element other, left = list element ∧ right = list other ∧ element ≤ other) ∧
    (left.agrees right = true ↔ ∃ bound, left ≤ bound ∧ right ≤ bound) ∧
    (left.unify right).isSome = left.agrees right ∧
    (∀ unified, left.unify right = some unified ↔ IsLUB {left, right} unified) ∧
    left.unify left = some left ∧
    left.unify right = right.unify left ∧
    (left.unify right).bind (·.unify third) = (right.unify third).bind (left.unify ·) ∧
    ∃ one other between : Ty, one.agrees between = true ∧ between.agrees other = true ∧
      one.agrees other = false :=
  ⟨le_iff left right, agrees_iff_bounded left right, isSome_unify left right,
    unify_eq_some_iff left right, unify_self left, unify_comm left right,
    unify_assoc left right third, list int, list string, list unresolved, rfl, rfl, rfl⟩

end CallSite.Ty
