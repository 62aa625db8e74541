import CallSite.Proofs.Inference.Completeness
import CallSite.Proofs.Inference.Reach

/-!
# Thorough checks

Code is direct when it has no function pointers and no defaults, and lambdas only where they are
called on the spot.  A check of direct code that reports nothing skips no part of it, and so it
follows every call by name and every match.  Thus all that the code mentions gets done, when
whatever is followed gets done: it is checked to its end, or a check of it is going on.
-/

namespace CallSite

/-! ## Direct code -/

def Param.WithoutDefaults (params : List Param) : Prop := ∀ param ∈ params, param.default = none

mutual

def Expr.Direct : Expr → Prop
  | .var _ _ | .int _ _ | .float _ _ | .bool _ _ | .string _ _ => True
  | .pointer _ _ | .lambda _ _ _ => False
  | .list _ elements => Expr.AllDirect elements
  | .binary _ _ left right => left.Direct ∧ right.Direct
  | .unary _ _ operand | .len _ operand | .chop _ operand | .chomp _ operand => operand.Direct
  | .call _ (.lambda _ params body) arguments =>
    Param.WithoutDefaults params ∧ Stmt.AllDirect body ∧ Expr.AllDirect arguments
  | .call _ callee arguments => callee.Direct ∧ Expr.AllDirect arguments
  | .index _ target indices => target.Direct ∧ Expr.AllDirect indices
  | .append _ target values => target.Direct ∧ Expr.AllDirect values
  | .matching _ _ argument => argument.Direct
termination_by structural expression => expression

def Expr.AllDirect : List Expr → Prop
  | [] => True
  | expression :: expressions => expression.Direct ∧ Expr.AllDirect expressions
termination_by structural expressions => expressions

def Range.Direct : Range → Prop
  | .elements values => Expr.AllDirect values
  | .value operand => operand.Direct
  | .span first last => first.Direct ∧ last.Direct
termination_by structural range => range

def Stmt.Direct : Stmt → Prop
  | .expr _ value | .put _ value | .ret _ (some value) => value.Direct
  | .assign _ _ (some index) _ value => index.Direct ∧ value.Direct
  | .assign _ _ none _ value => value.Direct
  | .ifElse _ conditions thenBody elseBody =>
    Expr.AllDirect conditions ∧ Stmt.AllDirect thenBody ∧ Stmt.AllDirect elseBody
  | .ret _ none => True
  | .push _ target value => target.Direct ∧ value.Direct
  | .loop _ body => Stmt.AllDirect body
  | .forEach _ _ range body => range.Direct ∧ Stmt.AllDirect body
  | .breakWhen _ conditions | .nextWhen _ conditions => Expr.AllDirect conditions
termination_by structural statement => statement

def Stmt.AllDirect : List Stmt → Prop
  | [] => True
  | statement :: statements => statement.Direct ∧ Stmt.AllDirect statements
termination_by structural statements => statements

end

/-- No function pointer stands in the program, no parameter has a default, and every lambda is
called where it stands. -/
structure Program.Direct (program : Program) : Prop where
  params : ∀ function ∈ program.functions, Param.WithoutDefaults function.params
  functions : ∀ function ∈ program.functions, Stmt.AllDirect function.body
  conditions : ∀ pattern ∈ program.patterns, Expr.AllDirect pattern.conditions
  returns : ∀ pattern ∈ program.patterns, Expr.AllDirect pattern.returns
  main : Stmt.AllDirect program.main.body

theorem Param.WithoutDefaults.parts {params : List Param} (bare : WithoutDefaults params) :
    Param.parts params = [] := by
  induction params with
  | nil => rfl
  | cons param params ih =>
    obtain ⟨first, rest⟩ := List.forall_mem_cons.mp bare
    obtain ⟨name, default⟩ := param
    obtain rfl : default = none := first
    exact ih rest

namespace Inference

open CallSite.Expr (mentionsIn)

/-! ## Thorough events -/

/-- The declaration was checked to its end, or one of its name is being checked. -/
def Done (active : List String) (events : List Event) (item : Owner) : Prop :=
  item ∈ keptFor events ∨ ∃ name ∈ active, item.name? = some name

theorem Done.kept {events : List Event} {item : Owner} (done : Done [] events item) :
    item ∈ keptFor events := by
  rcases done with kept | ⟨name, member, _⟩
  · exact kept
  · cases member

/-- Whatever was wanted and declared is done, and so is all that is mentioned in what was checked to
its end. -/
structure Thorough (program : Program) (active : List String) (wanted : List Owner)
    (events : List Event) : Prop where
  wanted : ∀ item ∈ wanted, item.DeclaredIn program → Done active events item
  closed : ∀ owner ∈ keptFor events, ∀ item, program.Mentions owner item → Done active events item

namespace Thorough

variable {program : Program} {active : List String} {wanted : List Owner}

theorem nil : Thorough program active [] [] :=
  ⟨fun _ member => absurd member List.not_mem_nil, fun _ member => absurd member List.not_mem_nil⟩

theorem append {early late : List Owner} {first second : List Event}
    (before : Thorough program active early first) (after : Thorough program active late second) :
    Thorough program active (early ++ late) (first ++ second) := by
  have left : ∀ {item}, Done active first item → Done active (first ++ second) item := by
    intro item done
    exact done.imp_left fun kept => keptFor_append first second ▸ List.mem_append_left _ kept
  have right : ∀ {item}, Done active second item → Done active (first ++ second) item := by
    intro item done
    exact done.imp_left fun kept => keptFor_append first second ▸ List.mem_append_right _ kept
  refine ⟨?_, ?_⟩
  · intro item member declared
    rcases List.mem_append.mp member with inEarly | inLate
    · exact left (before.wanted item inEarly declared)
    · exact right (after.wanted item inLate declared)
  · intro owner member item mentioned
    rw [keptFor_append] at member
    rcases List.mem_append.mp member with inFirst | inSecond
    · exact left (before.closed owner inFirst item mentioned)
    · exact right (after.closed owner inSecond item mentioned)

theorem weaken {fewer : List Owner} {events : List Event}
    (thorough : Thorough program active wanted events) (subset : ∀ item ∈ fewer, item ∈ wanted) :
    Thorough program active fewer events :=
  ⟨fun item member => thorough.wanted item (subset item member), thorough.closed⟩

/-- The events of a whole check of a declaration.  What was left to the check that is going on is
done with it: no other declaration has its name. -/
theorem enclose {events : List Event} {owner : Owner} {name : String}
    (only : ∀ item, item.DeclaredIn program → item.name? = some name → item = owner)
    (inner : Thorough program (name :: active) (mentionsIn (program.partsOf owner)) events)
    {types : List Ty} {result : Ty} {content : Frame} :
    Thorough program active [owner]
      (.enter name :: (events ++ [.keep owner types result content])) := by
  have kept : ∀ item, item ∈ keptFor (.enter name :: (events ++ [.keep owner types result content]))
      ↔ item ∈ keptFor events ∨ item = owner := by
    intro item
    rw [keptFor_enclose, List.mem_append, List.mem_singleton]
  have finish : ∀ {item}, item.DeclaredIn program → Done (name :: active) events item →
      Done active (.enter name :: (events ++ [.keep owner types result content])) item := by
    rintro item declared (before | ⟨other, member, named⟩)
    · exact .inl ((kept item).mpr (.inl before))
    rcases List.mem_cons.mp member with rfl | outer
    · exact .inl ((kept item).mpr (.inr (only item declared named)))
    · exact .inr ⟨other, outer, named⟩
  refine ⟨?_, ?_⟩
  · intro item member _
    exact .inl ((kept item).mpr (.inr (List.mem_singleton.mp member)))
  · intro other member item mentioned
    refine finish mentioned.1 ?_
    rcases (kept other).mp member with earlier | rfl
    · exact inner.closed other earlier item mentioned
    · exact inner.wanted item mentioned.2 mentioned.1

end Thorough

/-! ## Actions that skip nothing -/

/-- Unless the action reports something, all that is wanted gets done. -/
def Fulfils {α : Type} (program : Program) (active : List String) (wanted : List Owner)
    (action : LocalM α) : Prop :=
  ∀ frames, reports (action frames).events = [] →
    Thorough program active wanted (action frames).events

namespace Fulfils

variable {α β : Type} {program : Program} {active : List String} {wanted early late : List Owner}
  {parts left right : List Expr} {action : LocalM α} {next : α → LocalM β}

theorem quiet (silent : ∀ frames, (action frames).events = []) :
    Fulfils program active [] action := by
  intro frames _
  rw [silent]
  exact .nil

theorem pure (value : α) : Fulfils program active [] (Pure.pure value) := quiet fun _ => rfl

/-- After a report nothing is promised. -/
theorem report (problem : Problem) (position : Position) :
    Fulfils program active wanted (Inference.report problem position : LocalM Unit) := by
  intro frames nothing
  cases nothing

/-- The second action need only be one that follows when nothing is reported. -/
theorem bindWhen (first : Fulfils program active early action)
    (second : ∀ frames, reports (action frames).events = [] →
      Fulfils program active late (next (action frames).value)) :
    Fulfils program active (early ++ late) (action >>= next) := by
  intro frames nothing
  obtain ⟨before, after⟩ := List.append_eq_nil_iff.mp
    (List.filterMap_append.symm.trans nothing)
  exact (first frames before).append (second frames before _ after)

theorem bind (first : Fulfils program active early action)
    (second : ∀ value, Fulfils program active late (next value)) :
    Fulfils program active (early ++ late) (action >>= next) :=
  first.bindWhen fun _ _ => second _

theorem weaken (fulfils : Fulfils program active wanted action) {fewer : List Owner}
    (subset : ∀ item ∈ fewer, item ∈ wanted) : Fulfils program active fewer action :=
  fun frames nothing => (fulfils frames nothing).weaken subset

theorem nothing (fulfils : Fulfils program active wanted action) :
    Fulfils program active [] action :=
  fulfils.weaken fun _ member => absurd member List.not_mem_nil

/-- What is not declared does not get done. -/
theorem undeclared {item : Owner} (missing : ¬item.DeclaredIn program)
    (fulfils : Fulfils program active [] action) : Fulfils program active [item] action := by
  intro frames nothing
  refine ⟨fun other member declared => ?_, (fulfils frames nothing).closed⟩
  exact absurd (List.mem_singleton.mp member ▸ declared) missing

/-- The second action is left with nothing to do. -/
theorem andThen (first : Fulfils program active wanted action)
    (second : ∀ value, Fulfils program active [] (next value)) :
    Fulfils program active wanted (action >>= next) := by
  have both := first.bind second
  rwa [List.append_nil] at both

/-- All is left to the second action. -/
theorem before (first : Fulfils program active [] action)
    (second : ∀ value, Fulfils program active wanted (next value)) :
    Fulfils program active wanted (action >>= next) :=
  first.bind second

theorem parts_append (first : Fulfils program active (mentionsIn left) action)
    (second : ∀ value, Fulfils program active (mentionsIn right) (next value)) :
    Fulfils program active (mentionsIn (left ++ right)) (action >>= next) := by
  rw [mentionsIn, List.filterMap_append]
  exact first.bind second

/-- Of two parts the second may be checked first. -/
theorem parts_swap (first : Fulfils program active (mentionsIn right) action)
    (second : ∀ value, Fulfils program active (mentionsIn left) (next value)) :
    Fulfils program active (mentionsIn (left ++ right)) (action >>= next) := by
  refine (first.bind second).weaken fun item member => ?_
  rw [mentionsIn, List.filterMap_append, List.mem_append] at member
  exact List.mem_append.mpr member.symm

theorem part {expression : Expr} (plain : expression.mentioned? = none)
    (fulfils : Fulfils program active (mentionsIn parts) action) :
    Fulfils program active (mentionsIn (expression :: parts)) action := by
  rwa [mentionsIn, List.filterMap_cons_none plain]

/-- What an expression itself mentions is left to the second action. -/
theorem mention {expression : Expr} {item : Owner} (named : expression.mentioned? = some item)
    (first : Fulfils program active (mentionsIn parts) action)
    (second : ∀ value, Fulfils program active [item] (next value)) :
    Fulfils program active (mentionsIn (expression :: parts)) (action >>= next) := by
  refine (first.bind second).weaken fun other member => ?_
  rw [mentionsIn, List.filterMap_cons_some named, List.mem_cons] at member
  rw [List.mem_append, List.mem_singleton]
  exact member.symm

theorem inBranch (fulfils : Fulfils program active wanted action) :
    Fulfils program active wanted (Inference.inBranch action) :=
  fun frames nothing => fulfils ([] :: frames) nothing

theorem settle (position : Position) (rule : Except Problem Ty) :
    Fulfils program active [] (Inference.settle position rule : LocalM Ty) := by
  cases rule with
  | ok type => exact .pure type
  | error problem => exact (report problem position).andThen fun _ => .pure _

theorem reportAny (position : Position) (found : Option Problem) :
    Fulfils program active [] (Inference.reportAny position found : LocalM Unit) := by
  cases found with
  | some problem => exact .report problem position
  | none => exact .pure ()

end Fulfils

/-! ## Checks of direct code -/

section Check

variable {program : Program} {context : Context} {active : List String}
  {enter : Invocation → LocalM Ty}

/-- Calls by name are told from calls through pointers as in the program, and whatever is followed
gets done. -/
structure Heeds (program : Program) (context : Context) (active : List String)
    (enter : Invocation → LocalM Ty) : Prop where
  known : ∀ name ∈ program.functionNames, context.hasFunction name = true
  follows : ∀ invocation, Fulfils program active [invocation.owner] (enter invocation)

theorem fulfils_callPointer (heeds : Heeds program context active enter) (callee : Ty)
    (types : List Ty) : Fulfils program active [] (callPointer enter callee types) := by
  cases callee with
  | pointer function => exact (heeds.follows _).nothing
  | _ => exact .pure _

theorem fulfils_bindParams {params : List Param} (bare : Param.WithoutDefaults params)
    (types : List Ty) : Fulfils program active [] (bindParams context enter params types) := by
  induction params generalizing types with
  | nil => exact .pure _
  | cons param params ih =>
    obtain ⟨first, rest⟩ := List.forall_mem_cons.mp bare
    obtain ⟨name, default⟩ := param
    obtain rfl : default = none := first
    have declared : ∀ type, Fulfils program active [] (declare name.name type : LocalM Unit) :=
      fun _ => .quiet fun _ => rfl
    cases types with
    | nil => exact (declared _).before fun _ => (ih rest []).andThen fun _ => .pure _
    | cons type types =>
      exact (declared type).before fun _ => (ih rest types).andThen fun _ => .pure _

theorem fulfils_pushOnto (position : Position) (target : Expr) (targetType valueType : Ty) :
    Fulfils program active [] (pushOnto position target targetType valueType : LocalM Unit) := by
  unfold pushOnto
  split
  · exact .report _ position
  · exact .pure ()
  · split
    · exact .quiet fun _ => rfl
    · exact .pure ()

theorem fulfils_assignTo (position : Position) (target : String) (operator : AssignOp)
    (valueType : Ty) :
    Fulfils program active [] (assignTo position target operator valueType : LocalM Unit) := by
  unfold assignTo
  split
  · exact (Fulfils.quiet fun _ => rfl).before fun _ => .reportAny position _
  · exact .quiet fun _ => rfl

mutual

theorem fulfils_checkExpr (heeds : Heeds program context active enter) :
    ∀ expression : Expr, expression.Direct →
      Fulfils program active (mentionsIn expression.parts) (checkExpr context enter expression)
  | .var _ name, _ => .part rfl (.quiet fun _ => rfl)
  | .int _ _, _ | .float _ _, _ | .bool _ _, _ | .string _ _, _ => .part rfl (.pure _)
  | .list position elements, inside =>
    .part rfl ((fulfils_checkExprs heeds elements inside).andThen fun _ => .settle position _)
  | .binary position operator left right, ⟨inLeft, inRight⟩ =>
    .part rfl (.parts_append (fulfils_checkExpr heeds left inLeft) fun _ =>
      (fulfils_checkExpr heeds right inRight).andThen fun _ => .settle position _)
  | .unary position operator operand, inside =>
    .part rfl ((fulfils_checkExpr heeds operand inside).andThen fun _ => .settle position _)
  | .call _ callee arguments, inside => by
    cases callee with
    | var place name =>
      refine .mention rfl (.part rfl (fulfils_checkExprs heeds arguments inside.2)) fun types => ?_
      split
      · exact heeds.follows (.call name types)
      · next undeclared =>
        refine .undeclared (fun declared => undeclared (heeds.known name declared)) ?_
        exact (Fulfils.quiet fun _ => rfl).before fun _ => fulfils_callPointer heeds _ types
    | lambda place params body =>
      obtain ⟨bare, inBody, inArguments⟩ := inside
      have supplied := fulfils_checkExprs heeds arguments inArguments
      refine .part rfl (.parts_swap supplied fun types => .part rfl ?_)
      refine Fulfils.andThen (.inBranch ?_) fun _ => .settle place _
      rw [bare.parts]
      exact (fulfils_bindParams bare types).before fun _ => fulfils_checkBody heeds body inBody
    | _ =>
      exact .part rfl (.parts_swap (fulfils_checkExprs heeds arguments inside.2) fun types =>
        (fulfils_checkExpr heeds _ inside.1).andThen fun _ => fulfils_callPointer heeds _ types)
  | .index position target indices, ⟨inTarget, inIndices⟩ =>
    .part rfl (.parts_append (fulfils_checkExpr heeds target inTarget) fun type =>
      fulfils_checkIndices heeds position type indices inIndices)
  | .append position target values, ⟨inTarget, inValues⟩ =>
    .part rfl (.parts_append (fulfils_checkExpr heeds target inTarget) fun _ =>
      (fulfils_checkExprs heeds values inValues).andThen fun _ => .settle position _)
  | .len position operand, inside =>
    .part rfl ((fulfils_checkExpr heeds operand inside).andThen fun _ => .settle position _)
  | .chop _ operand, inside =>
    .part rfl ((fulfils_checkExpr heeds operand inside).andThen fun _ => .pure _)
  | .chomp position operand, inside =>
    .part rfl ((fulfils_checkExpr heeds operand inside).andThen fun _ => .settle position _)
  | .matching _ pattern argument, inside =>
    .mention rfl (fulfils_checkExpr heeds argument inside) fun type =>
      heeds.follows (.matching pattern type)
termination_by structural expression => expression

theorem fulfils_checkExprs (heeds : Heeds program context active enter) :
    ∀ expressions : List Expr, Expr.AllDirect expressions →
      Fulfils program active (mentionsIn (Expr.partsOfAll expressions))
        (checkExprs context enter expressions)
  | [], _ => .pure _
  | expression :: expressions, ⟨inFirst, inRest⟩ =>
    .parts_append (fulfils_checkExpr heeds expression inFirst) fun _ =>
      (fulfils_checkExprs heeds expressions inRest).andThen fun _ => .pure _
termination_by structural expressions => expressions

theorem fulfils_checkIndices (heeds : Heeds program context active enter) (position : Position)
    (current : Ty) :
    ∀ indices : List Expr, Expr.AllDirect indices →
      Fulfils program active (mentionsIn (Expr.partsOfAll indices))
        (checkIndices context enter position current indices)
  | [], _ => .pure _
  | index :: indices, ⟨inFirst, inRest⟩ => by
    refine .parts_append (fulfils_checkExpr heeds index inFirst) fun _ =>
      (Fulfils.settle position _).before fun next => ?_
    split
    · exact fulfils_checkIndices heeds position next indices inRest
    · exact (Fulfils.report _ _).andThen fun _ => .pure _
termination_by structural indices => indices

theorem fulfils_checkRange (heeds : Heeds program context active enter) (position : Position) :
    ∀ range : Range, range.Direct →
      Fulfils program active (mentionsIn range.parts) (checkRange context enter position range)
  | .elements values, inside =>
    (fulfils_checkExprs heeds values inside).andThen fun _ =>
      (Fulfils.settle position _).before fun _ => .pure _
  | .value operand, inside =>
    (fulfils_checkExpr heeds operand inside).andThen fun _ => .settle position _
  | .span first last, ⟨inFirst, inLast⟩ =>
    .parts_append (fulfils_checkExpr heeds first inFirst) fun _ =>
      (fulfils_checkExpr heeds last inLast).andThen fun _ => .settle position _
termination_by structural range => range

theorem fulfils_checkConditions (heeds : Heeds program context active enter) :
    ∀ conditions : List Expr, Expr.AllDirect conditions →
      Fulfils program active (mentionsIn (Expr.partsOfAll conditions))
        (checkConditions context enter conditions)
  | [], _ => .pure ()
  | condition :: conditions, ⟨inFirst, inRest⟩ =>
    .parts_append (fulfils_checkExpr heeds condition inFirst) fun _ =>
      (Fulfils.reportAny _ _).before fun _ => fulfils_checkConditions heeds conditions inRest
termination_by structural conditions => conditions

theorem fulfils_checkStmt (heeds : Heeds program context active enter) :
    ∀ statement : Stmt, statement.Direct →
      Fulfils program active (mentionsIn statement.parts) (checkStmt context enter statement)
  | .expr _ value, inside | .put _ value, inside | .ret _ (some value), inside =>
    (fulfils_checkExpr heeds value inside).andThen fun _ => .pure _
  | .assign position target none operator value, inside =>
    (fulfils_checkExpr heeds value inside).andThen fun _ =>
      (fulfils_assignTo position target operator _).before fun _ => .pure _
  | .assign position target (some index) operator value, ⟨inIndex, inValue⟩ => by
    refine .parts_swap (fulfils_checkExpr heeds value inValue) fun _ =>
      (Fulfils.quiet fun _ => rfl).before fun _ => ?_
    split
    · exact (fulfils_checkExpr heeds index inIndex).andThen fun _ => .pure _
    · split
      · exact (fulfils_checkExpr heeds index inIndex).andThen fun _ =>
          (Fulfils.reportAny position _).before fun _ => .pure _
      · exact (Fulfils.report _ position).andThen fun _ => .pure _
  | .ifElse _ conditions thenBody elseBody, ⟨inConditions, inThen, inElse⟩ => by
    rw [Stmt.parts, List.append_assoc]
    exact .parts_append (fulfils_checkConditions heeds conditions inConditions) fun _ =>
      .parts_append (fulfils_checkBody heeds thenBody inThen).inBranch fun _ =>
        (fulfils_checkBody heeds elseBody inElse).inBranch.andThen fun _ => .pure _
  | .ret _ none, _ => .pure _
  | .push position target value, ⟨inTarget, inValue⟩ =>
    .parts_append (fulfils_checkExpr heeds target inTarget) fun _ =>
      (fulfils_checkExpr heeds value inValue).andThen fun _ =>
        (fulfils_pushOnto position target _ _).before fun _ => .pure _
  | .loop _ body, inside => (fulfils_checkBody heeds body inside).inBranch
  | .forEach position iterator range body, ⟨inRange, inBody⟩ =>
    (Fulfils.parts_append (fulfils_checkRange heeds position range inRange) fun _ =>
      (Fulfils.quiet fun _ => rfl).before fun _ => fulfils_checkBody heeds body inBody).inBranch
  | .breakWhen _ conditions, inside | .nextWhen _ conditions, inside =>
    (fulfils_checkConditions heeds conditions inside).andThen fun _ => .pure _
termination_by structural statement => statement

theorem fulfils_checkBody (heeds : Heeds program context active enter) :
    ∀ statements : List Stmt, Stmt.AllDirect statements →
      Fulfils program active (mentionsIn (Stmt.partsOfAll statements))
        (checkBody context enter statements)
  | [], _ => .pure _
  | statement :: statements, ⟨inFirst, inRest⟩ =>
    .parts_append (fulfils_checkStmt heeds statement inFirst) fun _ =>
      (fulfils_checkBody heeds statements inRest).andThen fun _ => .pure _
termination_by structural statements => statements

end

theorem fulfils_checkFunction (heeds : Heeds program context active enter) {function : Function}
    (bare : Param.WithoutDefaults function.params) (inBody : Stmt.AllDirect function.body)
    (types : List Ty) :
    Fulfils program active (mentionsIn function.parts)
      (checkFunction context enter function types) := by
  rw [Function.parts, bare.parts]
  exact (fulfils_bindParams bare types).before fun _ =>
    (fulfils_checkBody heeds function.body inBody).andThen fun _ =>
      (Fulfils.settle function.position _).before fun _ => .pure _

theorem fulfils_checkCases (heeds : Heeds program context active enter) {conditions : List Expr}
    (direct : Expr.AllDirect conditions) :
    Fulfils program active (mentionsIn (Expr.partsOfAll conditions))
      (checkCases context enter conditions) := by
  induction conditions with
  | nil => exact .pure true
  | cons condition conditions ih =>
    refine .parts_append (fulfils_checkExpr heeds condition direct.1) fun _ => ?_
    split
    · exact ih direct.2
    · exact (Fulfils.report _ _).andThen fun _ => .pure _

/-- The conditions are given up only after a report. -/
theorem value_checkCases {conditions : List Expr} {frames : Frames}
    (nothing : reports (checkCases context enter conditions frames).events = []) :
    (checkCases context enter conditions frames).value = true := by
  induction conditions generalizing frames with
  | nil => rfl
  | cons condition conditions ih =>
    let first := checkExpr context enter condition frames
    let rest : LocalM Bool :=
      if first.value.mayBeBool then checkCases context enter conditions
      else do
        report .conditionNotBool condition.position
        pure false
    have later : reports (rest first.frames).events = [] :=
      (List.append_eq_nil_iff.mp (List.filterMap_append.symm.trans nothing)).2
    change (rest first.frames).value = true
    by_cases passed : first.value.mayBeBool = true
    · simp only [rest, passed, if_true] at later ⊢
      exact ih later
    · simp only [rest, passed] at later
      cases later

theorem fulfils_checkPattern (heeds : Heeds program context active enter) {pattern : Pattern}
    (inConditions : Expr.AllDirect pattern.conditions) (inReturns : Expr.AllDirect pattern.returns)
    (type : Ty) :
    Fulfils program active (mentionsIn pattern.parts)
      (checkPattern context enter pattern type) := by
  refine (Fulfils.quiet fun _ => rfl).before fun _ => ?_
  rw [Pattern.parts, mentionsIn, List.filterMap_append]
  refine (fulfils_checkCases heeds inConditions).bindWhen fun frames nothing => ?_
  rw [value_checkCases nothing]
  exact (fulfils_checkExprs heeds pattern.returns inReturns).andThen fun _ =>
    .settle pattern.position _

end Check

end Inference

end CallSite
