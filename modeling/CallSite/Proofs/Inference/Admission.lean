import CallSite.Proofs.Inference.Licence

/-!
# Admitted code is safe

Every check of admitted code is safe, as long as it is safe to follow the invocations that it
reaches.  Following an admitted invocation leads to admitted code again, so a whole run asks only
for what the licence permits.
-/

namespace CallSite

namespace Inference

namespace Licence

variable {licence : Licence} {context : Context} {stack : List Owner} {visible : List String}

theorem holdsAll_nil : licence.HoldsAll [] := fun _ member => absurd member List.not_mem_nil

theorem holdsAll_cons {type : Ty} {types : List Ty} (head : licence.Holds type)
    (tail : licence.HoldsAll types) : licence.HoldsAll (type :: types) := by
  intro other member
  rcases List.mem_cons.mp member with rfl | later
  · exact head
  · exact tail other later

theorem holdsAll_append {first second : List Ty} (left : licence.HoldsAll first)
    (right : licence.HoldsAll second) : licence.HoldsAll (first ++ second) := by
  intro other member
  rcases List.mem_append.mp member with early | late
  · exact left other early
  · exact right other late

theorem safe_settle (position : Position) {rule : Except Problem Ty}
    (yields : Yields licence.pointers rule) :
    licence.Safe context stack visible visible (settle position rule) licence.Holds := by
  cases rule with
  | ok type => exact .pure (yields type rfl)
  | error problem => exact .bind (.report problem position) fun _ _ => .pure trivial

theorem safe_reportAny (position : Position) (found : Option Problem) :
    licence.Safe context stack visible visible (reportAny position found) fun _ => True := by
  cases found with
  | some problem => exact .report problem position
  | none => exact .pure trivial

/-- It is safe to follow what the innermost owner may reach. -/
def Follows (licence : Licence) (context : Context) (stack : List Owner)
    (enter : Invocation → TraceM Ty) : Prop :=
  ∀ visible invocation, licence.AdmitsInvocation (stack.headD .main) invocation →
    licence.Safe context stack visible visible (enter invocation) licence.Holds

section Check

variable {enter : Invocation → TraceM Ty}

theorem safe_callPointer (follows : licence.Follows context stack enter) {callee : Ty}
    {types : List Ty} (pointed : licence.Holds callee) (supplied : licence.HoldsAll types) :
    licence.Safe context stack visible visible (callPointer enter callee types)
      licence.Holds := by
  cases callee with
  | pointer function => exact follows visible (.call function types) ⟨.inr pointed, supplied⟩
  | _ => exact .pure trivial

theorem safe_pushOnto (position : Position) (target : Expr) {targetType valueType : Ty}
    (inTarget : licence.Holds targetType) (inValue : licence.Holds valueType) :
    licence.Safe context stack visible visible (pushOnto position target targetType valueType)
      fun _ => True := by
  unfold pushOnto
  split
  · exact .report _ position
  · exact .pure trivial
  · next refined pushed =>
    split
    · next name _ =>
      have holds : licence.Holds refined := pointsWithin_pushRule inTarget inValue pushed
      exact (Safe.assign name holds).weaken fun _ member => List.mem_cons_of_mem name member
    · exact .pure trivial

theorem safe_assignTo (position : Position) (target : String) (operator : AssignOp)
    {valueType : Ty} (value : Expr) (inValue : licence.Holds valueType)
    (sees : operator.isCompound → licence.Sees visible target) :
    licence.Safe context stack visible
      (Stmt.visibleAfter visible (.assign position target none operator value))
      (assignTo position target operator valueType) fun _ => True := by
  rw [assignTo, Stmt.visibleAfter]
  by_cases compound : operator.isCompound = true
  · rw [if_pos compound, if_pos compound]
    exact .bind (.typeOf (sees compound)) fun _ _ => safe_reportAny position _
  · rw [if_neg compound, if_neg compound]
    exact .assign target inValue

mutual

theorem safe_checkExpr (follows : licence.Follows context stack enter) (visible : List String) :
    ∀ expression : Expr,
      licence.AdmitsExpr context (stack.headD .main) visible expression →
      licence.Safe context stack visible visible (checkExpr context enter expression)
        licence.Holds
  | .var _ _, sees => .typeOf sees
  | .int _ _, _ | .float _ _, _ | .bool _ _, _ | .string _ _, _ | .lambda _ _ _, _ =>
    .pure trivial
  | .pointer _ _, known => .pure known
  | .list position elements, inside =>
    .bind (safe_checkExprs follows visible elements inside) fun _ holds =>
      safe_settle position (yields_listRule holds)
  | .binary position operator left right, ⟨inLeft, inRight⟩ =>
    .bind (safe_checkExpr follows visible left inLeft) fun _ holds =>
      .bind (safe_checkExpr follows visible right inRight) fun _ _ =>
        safe_settle position (yields_binaryRule operator _ holds)
  | .unary position operator operand, inside =>
    .bind (safe_checkExpr follows visible operand inside) fun _ holds =>
      safe_settle position (yields_unaryRule operator holds)
  | .call _ callee arguments, inside => by
    cases callee with
    | var place name =>
      obtain ⟨inArguments, callable⟩ := inside
      refine .bind (safe_checkExprs follows visible arguments inArguments) fun types holds => ?_
      split
      · next declared =>
        rw [if_pos declared] at callable
        exact follows visible (.call name types) ⟨.inl callable, holds⟩
      · next undeclared =>
        rw [if_neg undeclared] at callable
        exact .bind (.typeOf callable) fun _ pointed => safe_callPointer follows pointed holds
    | lambda place params body =>
      obtain ⟨inArguments, inParams, inBody⟩ := inside
      exact .bind (safe_checkExprs follows visible arguments inArguments) fun types holds =>
        .bind
          (.inBranch
            (.bind (safe_bindParams follows visible params types holds inParams) fun _ _ =>
              safe_checkBody follows (Param.visibleAfter visible params) body inBody))
          fun _ returned => safe_settle place (yields_returnRule _ returned)
    | _ =>
      exact .bind (safe_checkExprs follows visible arguments inside.1) fun types holds =>
        .bind (safe_checkExpr follows visible _ inside.2) fun _ pointed =>
          safe_callPointer follows pointed holds
  | .index position target indices, ⟨inTarget, inIndices⟩ =>
    .bind (safe_checkExpr follows visible target inTarget) fun type holds =>
      safe_checkIndices follows visible position type holds indices inIndices
  | .append position target values, ⟨inTarget, inValues⟩ =>
    .bind (safe_checkExpr follows visible target inTarget) fun _ holds =>
      .bind (safe_checkExprs follows visible values inValues) fun _ _ =>
        safe_settle position (yields_appendRule holds)
  | .len position operand, inside =>
    .bind (safe_checkExpr follows visible operand inside) fun type _ =>
      safe_settle position (yields_lenRule type)
  | .chop _ operand, inside =>
    .bind (safe_checkExpr follows visible operand inside) fun _ _ => .pure trivial
  | .chomp position operand, inside =>
    .bind (safe_checkExpr follows visible operand inside) fun type _ =>
      safe_settle position (yields_chompRule type)
  | .matching _ pattern argument, ⟨inArgument, matched⟩ =>
    .bind (safe_checkExpr follows visible argument inArgument) fun type holds =>
      follows visible (.matching pattern type) ⟨matched, holds⟩
termination_by structural expression => expression

theorem safe_checkExprs (follows : licence.Follows context stack enter) (visible : List String) :
    ∀ expressions : List Expr,
      licence.AdmitsExprs context (stack.headD .main) visible expressions →
      licence.Safe context stack visible visible (checkExprs context enter expressions)
        licence.HoldsAll
  | [], _ => .pure holdsAll_nil
  | expression :: expressions, ⟨inFirst, inRest⟩ =>
    .bind (safe_checkExpr follows visible expression inFirst) fun _ head =>
      .bind (safe_checkExprs follows visible expressions inRest) fun _ tail =>
        .pure (holdsAll_cons head tail)
termination_by structural expressions => expressions

theorem safe_checkIndices (follows : licence.Follows context stack enter)
    (visible : List String) (position : Position) (current : Ty) (holds : licence.Holds current) :
    ∀ indices : List Expr,
      licence.AdmitsExprs context (stack.headD .main) visible indices →
      licence.Safe context stack visible visible
        (checkIndices context enter position current indices) licence.Holds
  | [], _ => .pure holds
  | index :: indices, ⟨inFirst, inRest⟩ => by
    refine .bind (safe_checkExpr follows visible index inFirst) fun _ _ =>
      .bind (safe_settle position (yields_indexRule holds)) fun next element => ?_
    split
    · exact safe_checkIndices follows visible position next element indices inRest
    · exact .bind (.report _ _) fun _ _ => .pure trivial
termination_by structural indices => indices

theorem safe_bindParams (follows : licence.Follows context stack enter) (visible : List String) :
    ∀ (params : List Param) (types : List Ty), licence.HoldsAll types →
      licence.AdmitsParams context (stack.headD .main) visible params →
      licence.Safe context stack visible (Param.visibleAfter visible params)
        (bindParams context enter params types) licence.HoldsAll
  | [], _, _, _ => .pure holdsAll_nil
  | ⟨name, default⟩ :: params, type :: types, holds, inside => by
    have head : licence.Holds type := holds type List.mem_cons_self
    have tail : licence.HoldsAll types :=
      fun other member => holds other (List.mem_cons_of_mem type member)
    have inRest : licence.AdmitsParams context (stack.headD .main) (name.name :: visible)
        params := by
      cases default with
      | none => exact inside
      | some value => exact inside.2
    exact .bind (.declare name.name head) fun _ _ =>
      .bind (safe_bindParams follows (name.name :: visible) params types tail inRest)
        fun _ rest => .pure (holdsAll_cons head rest)
  | ⟨name, some default⟩ :: params, [], holds, ⟨inDefault, inRest⟩ =>
    .bind (safe_checkExpr follows visible default inDefault) fun _ head =>
      .bind (.declare name.name head) fun _ _ =>
        .bind (safe_bindParams follows (name.name :: visible) params [] holds inRest)
          fun _ rest => .pure (holdsAll_cons head rest)
  | ⟨name, none⟩ :: params, [], holds, inRest =>
    .bind (.declare name.name trivial) fun _ _ =>
      .bind (safe_bindParams follows (name.name :: visible) params [] holds inRest)
        fun _ rest => .pure (holdsAll_cons trivial rest)
termination_by structural params => params

theorem safe_checkRange (follows : licence.Follows context stack enter) (visible : List String)
    (position : Position) :
    ∀ range : Range, licence.AdmitsRange context (stack.headD .main) visible range →
      licence.Safe context stack visible visible (checkRange context enter position range)
        licence.Holds
  | .elements values, inside =>
    .bind (safe_checkExprs follows visible values inside) fun _ holds =>
      .bind (safe_settle position (yields_listRule holds)) fun _ list =>
        .pure (pointsWithin_element? list)
  | .value operand, inside =>
    .bind (safe_checkExpr follows visible operand inside) fun _ holds =>
      safe_settle position (yields_iterateRule holds)
  | .span first last, ⟨inFirst, inLast⟩ =>
    .bind (safe_checkExpr follows visible first inFirst) fun _ _ =>
      .bind (safe_checkExpr follows visible last inLast) fun _ _ =>
        safe_settle position (yields_spanRule _ _)
termination_by structural range => range

theorem safe_checkConditions (follows : licence.Follows context stack enter)
    (visible : List String) :
    ∀ conditions : List Expr,
      licence.AdmitsExprs context (stack.headD .main) visible conditions →
      licence.Safe context stack visible visible (checkConditions context enter conditions)
        fun _ => True
  | [], _ => .pure trivial
  | condition :: conditions, ⟨inFirst, inRest⟩ =>
    .bind (safe_checkExpr follows visible condition inFirst) fun _ _ =>
      .bind (safe_reportAny _ _) fun _ _ =>
        safe_checkConditions follows visible conditions inRest
termination_by structural conditions => conditions

theorem safe_checkStmt (follows : licence.Follows context stack enter) (visible : List String) :
    ∀ statement : Stmt, licence.AdmitsStmt context (stack.headD .main) visible statement →
      licence.Safe context stack visible (statement.visibleAfter visible)
        (checkStmt context enter statement) licence.HoldsAll
  | .expr _ value, inside | .put _ value, inside =>
    .bind (safe_checkExpr follows visible value inside) fun _ _ => .pure holdsAll_nil
  | .assign position target none operator value, ⟨inValue, sees⟩ =>
    .bind (safe_checkExpr follows visible value inValue) fun _ holds =>
      .bind (safe_assignTo position target operator value holds sees) fun _ _ =>
        .pure holdsAll_nil
  | .assign position target (some index) operator value, ⟨inValue, sees, inIndex⟩ => by
    refine .bind (safe_checkExpr follows visible value inValue) fun _ _ =>
      .bind (.typeOf sees) fun _ _ => ?_
    split
    · exact .bind (safe_checkExpr follows visible index inIndex) fun _ _ => .pure holdsAll_nil
    · split
      · exact .bind (safe_checkExpr follows visible index inIndex) fun _ _ =>
          .bind (safe_reportAny position _) fun _ _ => .pure holdsAll_nil
      · exact .bind (.report _ position) fun _ _ => .pure holdsAll_nil
  | .ifElse _ conditions thenBody elseBody, ⟨inConditions, inThen, inElse⟩ =>
    .bind (safe_checkConditions follows visible conditions inConditions) fun _ _ =>
      .bind (.inBranch (safe_checkBody follows visible thenBody inThen)) fun _ first =>
        .bind (.inBranch (safe_checkBody follows visible elseBody inElse)) fun _ second =>
          .pure (holdsAll_append first second)
  | .ret _ none, _ => .pure (holdsAll_cons trivial holdsAll_nil)
  | .ret _ (some value), inside =>
    .bind (safe_checkExpr follows visible value inside) fun _ holds =>
      .pure (holdsAll_cons holds holdsAll_nil)
  | .push position target value, ⟨inTarget, inValue⟩ =>
    .bind (safe_checkExpr follows visible target inTarget) fun _ targetHolds =>
      .bind (safe_checkExpr follows visible value inValue) fun _ valueHolds =>
        .bind (safe_pushOnto position target targetHolds valueHolds) fun _ _ =>
          .pure holdsAll_nil
  | .loop _ body, inside => .inBranch (safe_checkBody follows visible body inside)
  | .forEach position iterator range body, ⟨inRange, inBody⟩ =>
    .inBranch
      (.bind (safe_checkRange follows visible position range inRange) fun _ holds =>
        .bind (.rebind iterator holds) fun _ _ =>
          safe_checkBody follows (iterator :: visible) body inBody)
  | .breakWhen _ conditions, inside | .nextWhen _ conditions, inside =>
    .bind (safe_checkConditions follows visible conditions inside) fun _ _ => .pure holdsAll_nil
termination_by structural statement => statement

theorem safe_checkBody (follows : licence.Follows context stack enter) (visible : List String) :
    ∀ statements : List Stmt,
      licence.AdmitsBody context (stack.headD .main) visible statements →
      licence.Safe context stack visible (Stmt.visibleAfterAll visible statements)
        (checkBody context enter statements) licence.HoldsAll
  | [], _ => .pure holdsAll_nil
  | statement :: statements, ⟨inFirst, inRest⟩ =>
    .bind (safe_checkStmt follows visible statement inFirst) fun _ first =>
      .bind (safe_checkBody follows (statement.visibleAfter visible) statements inRest)
        fun _ rest => .pure (holdsAll_append first rest)
termination_by structural statements => statements

end

theorem safe_checkFunction (follows : licence.Follows context stack enter) {function : Function}
    (top : stack.headD .main = .function function.name.name)
    (admitted : licence.AdmitsFunction context function) {types : List Ty}
    (supplied : licence.HoldsAll types) :
    ∃ later, licence.Safe context stack [] later (checkFunction context enter function types)
      fun result => licence.Holds result.2 := by
  obtain ⟨inParams, inBody⟩ := admitted
  rw [← top] at inParams inBody
  exact ⟨_, .bind (safe_bindParams follows [] function.params types supplied inParams) fun _ _ =>
    .bind (safe_checkBody follows _ function.body inBody) fun _ returned =>
      .bind (safe_settle function.position (yields_returnRule _ returned)) fun _ holds =>
        .pure holds⟩

theorem safe_checkCases (follows : licence.Follows context stack enter) {conditions : List Expr}
    (admitted : licence.AdmitsExprs context (stack.headD .main) visible conditions) :
    licence.Safe context stack visible visible (checkCases context enter conditions)
      fun _ => True := by
  induction conditions with
  | nil => exact .pure trivial
  | cons condition conditions ih =>
    obtain ⟨inFirst, inRest⟩ := admitted
    refine .bind (safe_checkExpr follows visible condition inFirst) fun _ _ => ?_
    split
    · exact ih inRest
    · exact .bind (.report _ _) fun _ _ => .pure trivial

theorem safe_checkPattern (follows : licence.Follows context stack enter) {pattern : Pattern}
    (top : stack.headD .main = .pattern pattern.name.name)
    (admitted : licence.AdmitsPattern context pattern) {type : Ty} (supplied : licence.Holds type) :
    licence.Safe context stack [] [pattern.target.name] (checkPattern context enter pattern type)
      licence.Holds := by
  obtain ⟨inConditions, inReturns⟩ := admitted
  rw [← top] at inConditions inReturns
  refine .bind (.declare pattern.target.name supplied) fun _ _ => ?_
  refine .bind (safe_checkCases follows inConditions) fun _ _ => ?_
  split
  · exact .bind (safe_checkExprs follows _ pattern.returns inReturns) fun _ returned =>
      safe_settle pattern.position (yields_returnRule _ returned)
  · exact .pure trivial

end Check

/-! ## Whole runs -/

/-- To note an invocation that the innermost owner may reach is permitted. -/
theorem safe_notice {α : Type} {later : List String} {post : α → Prop} {action : TraceM α}
    (nested : licence.Nested context stack) {invocation : Invocation}
    (admitted : licence.AdmitsInvocation (stack.headD .main) invocation)
    (safe : licence.Safe context stack visible later action post) :
    licence.Safe context stack visible later
      (do notice context (Owner.names stack) invocation; action) post := by
  refine safe.note fun traced within => ?_
  rw [within.stack_eq]
  exact ⟨nested, admitted, rfl⟩

section Whole

variable {main : List Stmt}

/-- The code of every owner that can be entered is admitted. -/
structure CoversEntered (licence : Licence) (context : Context) (main : List Stmt) : Prop where
  functions : ∀ {stack name function}, licence.Nested context (.function name :: stack) →
    context.function? name = some function → licence.AdmitsFunction context function
  patterns : ∀ {stack name pattern}, licence.Nested context (.pattern name :: stack) →
    context.pattern? name = some pattern → licence.AdmitsPattern context pattern
  main : licence.AdmitsBody context .main [] main

theorem Covers.entered (covers : licence.Covers context main) :
    licence.CoversEntered context main where
  functions _ found := covers.functions _ (List.mem_of_find?_eq_some found)
  patterns _ found := covers.patterns _ (List.mem_of_find?_eq_some found)
  main := covers.main

/-- One invocation is followed safely when those nested in it are. -/
theorem safe_follow (covers : licence.CoversEntered context main)
    {enter : List String → Invocation → TraceM Ty}
    (inner : ∀ stack, licence.Nested context stack →
      licence.Follows context stack (enter (Owner.names stack)))
    (nested : licence.Nested context stack) {invocation : Invocation}
    (admitted : licence.AdmitsInvocation (stack.headD .main) invocation) :
    licence.Safe context stack visible visible
      (follow context enter (Owner.names stack) invocation) licence.Holds := by
  by_cases declared : context.Declares invocation
  case neg =>
    rw [follow_of_not_declares declared]
    exact .pure trivial
  cases refused : context.refuses (Owner.names stack) invocation.name with
  | true =>
    rw [follow_of_refuses refused]
    exact .pure trivial
  | false =>
    cases invocation with
    | call name types =>
      obtain ⟨function, found⟩ := Option.isSome_iff_exists.mp declared
      have named := Context.name_of_function? found
      have deeper : licence.Nested context (.function name :: stack) :=
        .call nested admitted refused declared
      have code := covers.functions deeper found
      have top : (Owner.function name :: stack).headD .main = .function function.name.name := by
        rw [named]
        rfl
      obtain ⟨later, safe⟩ := safe_checkFunction (inner _ deeper) top code admitted.2
      rw [follow_call found refused, enterFunction, named]
      exact .inCall safe
    | matching name type =>
      obtain ⟨pattern, found⟩ := Option.isSome_iff_exists.mp declared
      have named := Context.name_of_pattern? found
      have deeper : licence.Nested context (.pattern name :: stack) :=
        .matching nested admitted refused declared
      have code := covers.patterns deeper found
      have top : (Owner.pattern name :: stack).headD .main = .pattern pattern.name.name := by
        rw [named]
        rfl
      have safe := safe_checkPattern (inner _ deeper) top code admitted.2
      rw [follow_matching found refused, enterPattern, named]
      exact .inMatch safe

theorem follows_watchWithin (covers : licence.CoversEntered context main) (depth : Nat) :
    ∀ stack, licence.Nested context stack →
      licence.Follows context stack (watchWithin context depth (Owner.names stack)) := by
  induction depth with
  | zero =>
    intro stack nested visible invocation admitted
    exact safe_notice nested admitted (.pure trivial)
  | succ depth ih =>
    intro stack nested visible invocation admitted
    exact safe_notice nested admitted (safe_follow covers ih nested admitted)

end Whole

end Licence

end Inference

namespace Checker

open Inference

/-- Where a licence covers the code of every owner that can be entered, a run asks only for what it
permits. -/
theorem permits_trace_of_entered {licence : Licence} (checker : Checker) (program : Program)
    (covers : licence.CoversEntered (checker.register program).context program.main.body) :
    ∀ demand ∈ (checker.trace program).demands,
      licence.Permits (checker.register program).context demand := by
  have follows : licence.Follows (checker.register program).context []
      (watch (checker.register program).context []) :=
    Licence.follows_watchWithin covers _ [] .main
  have safe := Licence.safe_checkBody follows [] program.main.body covers.main
  have opened : licence.RunWithin (checker.register program).context [] []
      { state := (checker.register program).state.openScope .body } :=
    ⟨rfl, .opened_body _ _, fun _ member => absurd member List.not_mem_nil⟩
  exact (safe _ opened).2.1.permitted

theorem permits_trace {licence : Licence} (checker : Checker) (program : Program)
    (covers : licence.Covers (checker.register program).context program.main.body) :
    ∀ demand ∈ (checker.trace program).demands,
      licence.Permits (checker.register program).context demand :=
  checker.permits_trace_of_entered program covers.entered

end Checker

end CallSite
