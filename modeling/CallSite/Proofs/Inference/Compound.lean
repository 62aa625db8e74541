import CallSite.Proofs.Inference.Attempts
import CallSite.Proofs.Inference.OpenScopes

/-!
# Compound assignments

A compound assignment abbreviates an arithmetic operator, and the two are checked by rules of their
own.  The operator compares its operands; the assignment asks for a numeric target and never looks
at the type of the value.  So they report in the same cases only where a numeric target agrees with
the value.
-/

namespace CallSite.Inference

/-! ## The rules -/

theorem exists_binaryRule_ok_iff (operator : BinaryOp) {left right : Ty}
    (knownLeft : left ≠ .unresolved) (knownRight : right ≠ .unresolved) :
    (∃ type, binaryRule operator left right = .ok type) ↔
      left.agrees right = true ∧ left.isNumeric = true := by
  have known : ¬ (left = .unresolved ∨ right = .unresolved) := by
    rintro (unknown | unknown)
    · exact knownLeft unknown
    · exact knownRight unknown
  rw [binaryRule, if_neg known]
  cases left.agrees right <;> cases left.isNumeric <;> simp

theorem compoundRule_eq_none_iff (operator : AssignOp) {target : Ty}
    (known : target ≠ .unresolved) :
    compoundRule operator target = none ↔ target.isNumeric = true := by
  rw [compoundRule]
  cases target.isNumeric <;> simp [known]

theorem attempted_settle_eq_nil_iff (position : Position) (rule : Except Problem Ty)
    (state : State) :
    attempted (settle position rule) state = [] ↔ ∃ type, rule = .ok type := by
  rw [attempted_settle]
  cases rule <;> simp [reported]

theorem attempted_reportAny_eq_nil_iff (position : Position) (found : Option Problem)
    (state : State) : attempted (reportAny position found) state = [] ↔ found = none := by
  rw [attempted_reportAny]
  cases found <;> simp

/-! ## The runs -/

section Runs

variable (context : Context) (active : List String) (position : Position) (value : Expr)
  (state : State)

/-- A compound assignment checks its value, and then it asks for the type of its target. -/
theorem attempted_checkCompound (name : String) {operator : AssignOp}
    (compound : operator.isCompound = true) :
    let checked := (checkExpr context (infer context active) value : CheckM Ty).run state
    attempted (checkStmt context (infer context active)
        (.assign position name none operator value)) state =
      attempted (checkExpr context (infer context active) value) state ++
        attempted (reportAny position (compoundRule operator
          ((checked.2.env.typeOf? name).getD .unresolved))) checked.2 := by
  intro checked
  have inValue := blind_checkExpr context active value
  have inTarget (type : Ty) : Blind (assignTo position name operator type) :=
    blind.rel_assignTo position name operator type
  rw [checkStmt, inValue.attempted_bind fun type => (inTarget type).bind fun _ => .pure _,
    (inTarget _).attempted_bind fun _ => .pure _, attempted_pure, List.append_nil, assignTo,
    if_pos compound]
  rfl

theorem attempted_checkBinary (operator : BinaryOp) (left right : Expr) :
    let first := (checkExpr context (infer context active) left : CheckM Ty).run state
    let second := (checkExpr context (infer context active) right : CheckM Ty).run first.2
    attempted (checkExpr context (infer context active)
        (.binary position operator left right)) state =
      attempted (checkExpr context (infer context active) left) state ++
        (attempted (checkExpr context (infer context active) right) first.2 ++
          attempted (settle position (binaryRule operator first.1 second.1)) second.2) := by
  intro first second
  have inLeft := blind_checkExpr context active left
  have inRight := blind_checkExpr context active right
  have atEnd (leftType rightType : Ty) :
      Blind (settle position (binaryRule operator leftType rightType) : CheckM Ty) :=
    blind.rel_settle position (findsTyping_binaryRule operator leftType rightType)
  rw [checkExpr, inLeft.attempted_bind fun leftType => inRight.bind (atEnd leftType),
    inRight.attempted_bind (atEnd first.1)]

end Runs

/-- A compound assignment reports where its target is not numeric, the operator it abbreviates also
where the target and the value do not agree.  So the two report in the same cases exactly where a
numeric target agrees with the value. -/
theorem compound_reports_as_operator_iff (context : Context) (active : List String) (state : State)
    {name : String} {target : Ty} (visible : state.env.typeOf? name = some target)
    (known : target ≠ .unresolved) {operator : AssignOp} {arithmetic : BinaryOp}
    (abbreviates : operator.arithmetic? = some arithmetic) {value : Expr}
    (plain : value.callsLambda = false) (position place spot : Position)
    (silent : attempted (checkExpr context (infer context active) value) state = [])
    (typed : ((checkExpr context (infer context active) value : CheckM Ty).run state).1 ≠
      .unresolved) :
    let type := ((checkExpr context (infer context active) value : CheckM Ty).run state).1
    let assigned := attempted (checkStmt context (infer context active)
      (.assign position name none operator value)) state
    let computed := attempted (checkExpr context (infer context active)
      (.binary place arithmetic (.var spot name) value)) state
    (assigned = [] ↔ target.isNumeric = true) ∧
    (computed = [] ↔ target.agrees type = true ∧ target.isNumeric = true) ∧
    ((assigned ≠ [] ↔ computed ≠ []) ↔
      (target.isNumeric = true → target.agrees type = true)) := by
  intro type assigned computed
  have compound : operator.isCompound = true := by
    rw [AssignOp.isCompound, abbreviates]
    rfl
  have unchanged : ((checkExpr context (infer context active) value : CheckM Ty).run
      state).2.env.typeOf? name = some target :=
    (untouched_checkExpr context active plain state).typeOf? visible
  have before : ((checkExpr context (infer context active) (.var spot name) : CheckM Ty).run
      state) = (target, state) := by
    change ((state.env.typeOf? name).getD .unresolved, state) = (target, state)
    rw [visible]
    rfl
  have ofAssigned : assigned = [] ↔ target.isNumeric = true := by
    dsimp only [assigned]
    rw [attempted_checkCompound context active position value state name compound, silent,
      List.nil_append, unchanged, attempted_reportAny_eq_nil_iff]
    exact compoundRule_eq_none_iff operator known
  have ofComputed : computed = [] ↔ target.agrees type = true ∧ target.isNumeric = true := by
    dsimp only [computed]
    rw [attempted_checkBinary, before]
    dsimp only
    rw [silent, List.nil_append]
    change [] ++ _ = [] ↔ _
    rw [List.nil_append, attempted_settle_eq_nil_iff]
    exact exists_binaryRule_ok_iff arithmetic known typed
  refine ⟨ofAssigned, ofComputed, ?_⟩
  rw [ne_eq, ne_eq, ofAssigned, ofComputed]
  cases target.isNumeric <;> cases target.agrees type <;> simp

/-- A counter goes up by the length of a list, and neither form reports. -/
theorem counter_reports_as_operator :
    let context : Context := ⟨[], [], [], false⟩
    let state : State :=
      { env := (({} : Environment).opened .body).declared "count" .int, sink := .plain }
    let value : Expr := .len (.atLine 2) (.list (.atLine 2) [])
    let assigned := attempted (checkStmt context (infer context [])
      (.assign (.atLine 2) "count" none .add value)) state
    let computed := attempted (checkExpr context (infer context [])
      (.binary (.atLine 2) .add (.var (.atLine 2) "count") value)) state
    state.env.typeOf? "count" = some .int ∧ value.callsLambda = false ∧
      attempted (checkExpr context (infer context []) value) state = [] ∧
      ((checkExpr context (infer context []) value : CheckM Ty).run state).1 = .int ∧
      assigned = [] ∧ (assigned ≠ [] ↔ computed ≠ []) := by
  intro context state value assigned computed
  have visible : state.env.typeOf? "count" = some .int := rfl
  have abbreviates : AssignOp.add.arithmetic? = some .add := rfl
  have plain : value.callsLambda = false := rfl
  have silent : attempted (checkExpr context (infer context []) value) state = [] := rfl
  have typed : ((checkExpr context (infer context []) value : CheckM Ty).run state).1 = .int := rfl
  obtain ⟨reports, _, alike⟩ := compound_reports_as_operator_iff context [] state visible
    (by decide) abbreviates plain (.atLine 2) (.atLine 2) (.atLine 2) silent (by rw [typed]; decide)
  exact ⟨visible, plain, silent, typed, reports.mpr rfl, alike.mpr fun _ => rfl⟩

/-- A string is added to a whole number without a report, where the operator reports. -/
theorem compound_accepts_other_value :
    let context : Context := ⟨[], [], [], false⟩
    let state : State :=
      { env := (({} : Environment).opened .body).declared "x" .int, sink := .plain }
    let value : Expr := .string (.atLine 2) "a"
    state.env.typeOf? "x" = some .int ∧ value.callsLambda = false ∧
      attempted (checkExpr context (infer context []) value) state = [] ∧
      ((checkExpr context (infer context []) value : CheckM Ty).run state).1 = .string ∧
      attempted (checkStmt context (infer context [])
        (.assign (.atLine 2) "x" none .add value)) state = [] ∧
      attempted (checkExpr context (infer context [])
        (.binary (.atLine 2) .add (.var (.atLine 2) "x") value)) state =
          [⟨.operandsDiffer "+", .atLine 2⟩] := by
  intro context state value
  exact ⟨rfl, rfl, rfl, rfl, rfl, rfl⟩

end CallSite.Inference
