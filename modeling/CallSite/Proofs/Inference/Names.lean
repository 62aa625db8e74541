import CallSite.Proofs.Diagnostic.Recording
import CallSite.Proofs.Inference.Grants
import CallSite.Proofs.Resolution.Lexical

/-!
# Resolved names are there

Resolution declares a parameter before it reads its default, and inference after.  Apart from
defaults that mention their own parameter, inference therefore sees every name that resolution saw:
in a program in which resolution finds no name undeclared, inference finds every variable, function
and pattern that it asks for.
-/

namespace CallSite

/-- The problems of a name that is not declared. -/
def Problem.isUndeclared : Problem → Bool
  | variableUndeclared _ | functionUndeclared _ | patternUndeclared _ => true
  | _ => false

namespace Resolution

/-- No name is reported as undeclared. -/
def Clean (reports : List Diagnostic) : Prop :=
  ∀ report ∈ reports, report.problem.isUndeclared = false

theorem Clean.known {known : Bool} {problem : Problem} {position : Position}
    (clean : Clean (Lexical.missing known problem position))
    (undeclared : problem.isUndeclared = true) : known = true := by
  cases known with
  | true => rfl
  | false =>
    have none_ := clean ⟨problem, position⟩ List.mem_cons_self
    rw [undeclared] at none_
    cases none_

/-- Whatever is mentioned of the names in `resolving` is in `visible`. -/
def Inherits (resolving visible : List String) (mentions : String → Bool) : Prop :=
  ∀ name ∈ resolving, mentions name = true → name ∈ visible

namespace Inherits

variable {resolving visible : List String} {mentions others : String → Bool}

theorem split (inherits : Inherits resolving visible fun name => mentions name || others name) :
    Inherits resolving visible mentions ∧ Inherits resolving visible others :=
  ⟨fun name member mentioned => inherits name member (Bool.or_eq_true_iff.mpr (.inl mentioned)),
    fun name member mentioned => inherits name member (Bool.or_eq_true_iff.mpr (.inr mentioned))⟩

theorem cons (inherits : Inherits resolving visible mentions) (bound : String) :
    Inherits (bound :: resolving) (bound :: visible) mentions := by
  intro name member mentioned
  rcases List.mem_cons.mp member with rfl | further
  · exact List.mem_cons_self
  · exact List.mem_cons_of_mem bound (inherits name further mentioned)

/-- Inside a binder its own name need not be visible outside. -/
theorem bind {bound : String}
    (inherits : Inherits resolving visible fun name => bound != name && mentions name) :
    Inherits (bound :: resolving) (bound :: visible) mentions := by
  intro name member mentioned
  by_cases same : bound = name
  · exact same ▸ List.mem_cons_self
  · have further := (List.mem_cons.mp member).resolve_left (Ne.symm same)
    have free : (bound != name) = true := bne_iff_ne.mpr same
    exact List.mem_cons_of_mem bound
      (inherits name further (Bool.and_eq_true_iff.mpr ⟨free, mentioned⟩))

theorem bindParams {params : List Param}
    (inherits : Inherits resolving visible
      fun name => params.all (·.name.name != name) && mentions name) :
    Inherits (Param.visibleAfter resolving params) (Param.visibleAfter visible params)
      mentions := by
  intro name member mentioned
  rw [Param.mem_visibleAfter_iff] at member ⊢
  by_cases bound : ∃ param ∈ params, param.name.name = name
  · exact .inr bound
  · have free : params.all (·.name.name != name) = true := by
      rw [List.all_eq_true]
      intro param declared
      exact bne_iff_ne.mpr fun same => bound ⟨param, declared, same⟩
    exact .inl (inherits name (member.resolve_right bound)
      (Bool.and_eq_true_iff.mpr ⟨free, mentioned⟩))

theorem after (inherits : Inherits resolving visible mentions) (statement : Stmt) :
    Inherits (statement.visibleAfter resolving) (statement.visibleAfter visible) mentions := by
  unfold Stmt.visibleAfter
  split
  · split
    · exact inherits
    · exact inherits.cons _
  · exact inherits

end Inherits

end Resolution

namespace Inference.Licence

open Resolution Lexical

/-- What the declarations of a table grant; a variable is looked up only where it is visible. -/
def ofTable (table : SymbolTable) : Licence where
  calls _ function := table.hasFunction function
  patterns _ pattern := table.hasPattern pattern
  pointers function := table.hasFunction function
  unseen _ := False

section Clean

/-- A context, a symbol table and a list of names have the same functions. -/
structure SameFunctions (context : Context) (table : SymbolTable) (functions : List String) :
    Prop where
  known : ∀ name, context.hasFunction name = table.hasFunction name
  listed : ∀ name, functions.contains name = table.hasFunction name

variable {table : SymbolTable} {context : Context} {owner : Owner} {functions : List String}

mutual

theorem admitsExpr_of_clean (same : SameFunctions context table functions)
    (resolving visible : List String) : ∀ expression : Expr,
      Clean (exprReports table resolving expression) →
      (∀ part ∈ expression.parts, part.independent functions = true) →
      Inherits resolving visible (expression.mentions functions ·) →
      (ofTable table).AdmitsExpr context owner visible expression
  | .var _ name, clean, _, inherits => by
    have seen := List.contains_iff_mem.mp (clean.known rfl)
    exact .inl (inherits name seen (beq_self_eq_true name))
  | .int _ _, _, _, _ | .float _ _, _, _, _ | .bool _ _, _, _, _ | .string _ _, _, _, _ => trivial
  | .pointer _ _, clean, _, _ => clean.known rfl
  | .list _ elements, clean, independent, inherits =>
    admitsExprs_of_clean same resolving visible elements clean
      (List.forall_mem_cons.mp independent).2 inherits
  | .binary _ _ left right, clean, independent, inherits => by
    obtain ⟨cleanLeft, cleanRight⟩ := List.forall_mem_append.mp clean
    obtain ⟨inLeft, inRight⟩ := List.forall_mem_append.mp (List.forall_mem_cons.mp independent).2
    obtain ⟨ofLeft, ofRight⟩ := inherits.split
    exact ⟨admitsExpr_of_clean same resolving visible left cleanLeft inLeft ofLeft,
      admitsExpr_of_clean same resolving visible right cleanRight inRight ofRight⟩
  | .unary _ _ operand, clean, independent, inherits
  | .len _ operand, clean, independent, inherits
  | .chop _ operand, clean, independent, inherits
  | .chomp _ operand, clean, independent, inherits =>
    admitsExpr_of_clean same resolving visible operand clean
      (List.forall_mem_cons.mp independent).2 inherits
  | .call _ callee arguments, clean, independent, inherits => by
    obtain ⟨inCallee, inArguments⟩ :=
      List.forall_mem_append.mp (List.forall_mem_cons.mp independent).2
    have calleeAdmitted := admitsExpr_of_clean same resolving visible callee
    have argumentsAdmitted := admitsExprs_of_clean same resolving visible arguments
    cases callee with
    | var place name =>
      obtain ⟨cleanCallee, cleanArguments⟩ := List.forall_mem_append.mp clean
      obtain ⟨ofCallee, ofArguments⟩ := inherits.split
      refine ⟨argumentsAdmitted cleanArguments inArguments ofArguments, ?_⟩
      rw [same.known name]
      split
      · next declared => exact declared
      · next undeclared =>
        rw [SymbolTable.hasFunction, Option.isSome_iff_ne_none, not_not] at undeclared
        rw [calleeReports, undeclared] at cleanCallee
        have seen := List.contains_iff_mem.mp (Clean.known cleanCallee rfl)
        have free : (!functions.contains name) = true := by
          rw [same.listed name, SymbolTable.hasFunction, undeclared]
          rfl
        exact .inl (ofCallee name seen
          (Bool.and_eq_true_iff.mpr ⟨beq_self_eq_true name, free⟩))
    | lambda place params body =>
      obtain ⟨cleanParams, cleanRest⟩ := List.forall_mem_append.mp clean
      obtain ⟨cleanBody, cleanLater⟩ := List.forall_mem_append.mp cleanRest
      obtain ⟨_, cleanArguments⟩ := List.forall_mem_append.mp cleanLater
      obtain ⟨ofCallee, ofArguments⟩ := inherits.split
      exact ⟨argumentsAdmitted cleanArguments inArguments ofArguments,
        calleeAdmitted (List.forall_mem_append.mpr ⟨cleanParams, cleanBody⟩) inCallee ofCallee⟩
    | _ =>
      obtain ⟨cleanCallee, cleanArguments⟩ := List.forall_mem_append.mp clean
      obtain ⟨ofCallee, ofArguments⟩ := inherits.split
      exact ⟨argumentsAdmitted cleanArguments inArguments ofArguments,
        calleeAdmitted cleanCallee inCallee ofCallee⟩
  | .index _ target indices, clean, independent, inherits => by
    obtain ⟨cleanTarget, cleanIndices⟩ := List.forall_mem_append.mp clean
    obtain ⟨inTarget, inIndices⟩ :=
      List.forall_mem_append.mp (List.forall_mem_cons.mp independent).2
    obtain ⟨ofTarget, ofIndices⟩ := inherits.split
    exact ⟨admitsExpr_of_clean same resolving visible target cleanTarget inTarget ofTarget,
      admitsExprs_of_clean same resolving visible indices cleanIndices inIndices ofIndices⟩
  | .lambda _ params body, clean, independent, inherits => by
    obtain ⟨cleanParams, cleanBody⟩ := List.forall_mem_append.mp clean
    obtain ⟨own, inside⟩ := List.forall_mem_cons.mp independent
    obtain ⟨inParams, inBody⟩ := List.forall_mem_append.mp inside
    obtain ⟨ofParams, ofBody⟩ := inherits.split
    exact ⟨admitsParams_of_clean same resolving visible params cleanParams own inParams
        ofParams,
      admitsBody_of_clean same _ _ body cleanBody inBody ofBody.bindParams⟩
  | .append _ target values, clean, independent, inherits => by
    obtain ⟨cleanTarget, cleanValues⟩ := List.forall_mem_append.mp clean
    obtain ⟨inTarget, inValues⟩ :=
      List.forall_mem_append.mp (List.forall_mem_cons.mp independent).2
    obtain ⟨ofTarget, ofValues⟩ := inherits.split
    exact ⟨admitsExpr_of_clean same resolving visible target cleanTarget inTarget ofTarget,
      admitsExprs_of_clean same resolving visible values cleanValues inValues ofValues⟩
  | .matching _ _ argument, clean, independent, inherits => by
    obtain ⟨cleanPattern, cleanArgument⟩ := List.forall_mem_append.mp clean
    exact ⟨admitsExpr_of_clean same resolving visible argument cleanArgument
        (List.forall_mem_cons.mp independent).2 inherits, Clean.known cleanPattern rfl⟩
termination_by structural expression => expression

theorem admitsExprs_of_clean (same : SameFunctions context table functions)
    (resolving visible : List String) : ∀ expressions : List Expr,
      Clean (exprsReports table resolving expressions) →
      (∀ part ∈ Expr.partsOfAll expressions, part.independent functions = true) →
      Inherits resolving visible (Expr.mentionsAny functions · expressions) →
      (ofTable table).AdmitsExprs context owner visible expressions
  | [], _, _, _ => trivial
  | expression :: expressions, clean, independent, inherits => by
    obtain ⟨cleanFirst, cleanRest⟩ := List.forall_mem_append.mp clean
    obtain ⟨inFirst, inRest⟩ := List.forall_mem_append.mp independent
    obtain ⟨ofFirst, ofRest⟩ := inherits.split
    exact ⟨admitsExpr_of_clean same resolving visible expression cleanFirst inFirst ofFirst,
      admitsExprs_of_clean same resolving visible expressions cleanRest inRest ofRest⟩
termination_by structural expressions => expressions

theorem admitsParams_of_clean (same : SameFunctions context table functions)
    (resolving visible : List String) : ∀ params : List Param,
      Clean (paramReports table resolving params) →
      Param.independent functions params = true →
      (∀ part ∈ Param.parts params, part.independent functions = true) →
      Inherits resolving visible (Param.mentions functions · params) →
      (ofTable table).AdmitsParams context owner visible params
  | [], _, _, _, _ => trivial
  | ⟨name, none⟩ :: params, clean, own, independent, inherits =>
    admitsParams_of_clean same (name.name :: resolving) (name.name :: visible) params clean own
      independent inherits.bind
  | ⟨name, some default⟩ :: params, clean, own, independent, inherits => by
    obtain ⟨cleanDefault, cleanRest⟩ := List.forall_mem_append.mp clean
    obtain ⟨ownDefault, ownRest⟩ := Bool.and_eq_true_iff.mp own
    obtain ⟨inDefault, inRest⟩ := List.forall_mem_append.mp independent
    have unmentioned : default.mentions functions name.name = false := by simpa using ownDefault
    have ofDefault : Inherits (name.name :: resolving) visible (default.mentions functions ·) := by
      intro other member mentioned
      have differs : name.name ≠ other := by
        rintro rfl
        exact Bool.false_ne_true (unmentioned.symm.trans mentioned)
      have further := (List.mem_cons.mp member).resolve_left (Ne.symm differs)
      exact inherits other further (Bool.and_eq_true_iff.mpr
        ⟨bne_iff_ne.mpr differs, Bool.or_eq_true_iff.mpr (.inl mentioned)⟩)
    have ofRest : Inherits resolving visible
        fun other => name.name != other && Param.mentions functions other params := by
      intro other member both
      obtain ⟨differs, mentioned⟩ := Bool.and_eq_true_iff.mp both
      exact inherits other member (Bool.and_eq_true_iff.mpr
        ⟨differs, Bool.or_eq_true_iff.mpr (.inr mentioned)⟩)
    exact ⟨admitsExpr_of_clean same _ visible default cleanDefault inDefault ofDefault,
      admitsParams_of_clean same _ _ params cleanRest ownRest inRest ofRest.bind⟩
termination_by structural params => params

theorem admitsRange_of_clean (same : SameFunctions context table functions)
    (resolving visible : List String) : ∀ range : Range,
      Clean (rangeReports table resolving range) →
      (∀ part ∈ range.parts, part.independent functions = true) →
      Inherits resolving visible (range.mentions functions ·) →
      (ofTable table).AdmitsRange context owner visible range
  | .elements values, clean, independent, inherits =>
    admitsExprs_of_clean same resolving visible values clean independent inherits
  | .value operand, clean, independent, inherits =>
    admitsExpr_of_clean same resolving visible operand clean independent inherits
  | .span first last, clean, independent, inherits => by
    obtain ⟨cleanFirst, cleanLast⟩ := List.forall_mem_append.mp clean
    obtain ⟨inFirst, inLast⟩ := List.forall_mem_append.mp independent
    obtain ⟨ofFirst, ofLast⟩ := inherits.split
    exact ⟨admitsExpr_of_clean same resolving visible first cleanFirst inFirst ofFirst,
      admitsExpr_of_clean same resolving visible last cleanLast inLast ofLast⟩
termination_by structural range => range

theorem admitsStmt_of_clean (same : SameFunctions context table functions)
    (resolving visible : List String) : ∀ statement : Stmt,
      Clean (stmtReports table resolving statement) →
      (∀ part ∈ statement.parts, part.independent functions = true) →
      Inherits resolving visible (statement.mentions functions ·) →
      (ofTable table).AdmitsStmt context owner visible statement
  | .expr _ value, clean, independent, inherits
  | .put _ value, clean, independent, inherits
  | .ret _ (some value), clean, independent, inherits =>
    admitsExpr_of_clean same resolving visible value clean independent inherits
  | .assign _ target none operator value, clean, independent, inherits => by
    obtain ⟨cleanValue, cleanTarget⟩ := List.forall_mem_append.mp clean
    obtain ⟨ofTarget, ofValue⟩ := inherits.split
    refine ⟨admitsExpr_of_clean same resolving visible value cleanValue independent ofValue,
      fun compound => .inl (ofTarget target ?_ ?_)⟩
    · rw [if_pos compound] at cleanTarget
      exact List.contains_iff_mem.mp (Clean.known cleanTarget rfl)
    · exact Bool.and_eq_true_iff.mpr ⟨compound, beq_self_eq_true target⟩
  | .assign _ target (some index) _ value, clean, independent, inherits => by
    obtain ⟨cleanIndex, cleanRest⟩ := List.forall_mem_append.mp clean
    obtain ⟨cleanValue, cleanTarget⟩ := List.forall_mem_append.mp cleanRest
    obtain ⟨inIndex, inValue⟩ := List.forall_mem_append.mp independent
    obtain ⟨ofTargetAndIndex, ofValue⟩ := inherits.split
    obtain ⟨ofTarget, ofIndex⟩ := ofTargetAndIndex.split
    have seen := List.contains_iff_mem.mp (Clean.known cleanTarget rfl)
    exact ⟨admitsExpr_of_clean same resolving visible value cleanValue inValue ofValue,
      .inl (ofTarget target seen (beq_self_eq_true target)),
      admitsExpr_of_clean same resolving visible index cleanIndex inIndex ofIndex⟩
  | .ifElse _ conditions thenBody elseBody, clean, independent, inherits => by
    obtain ⟨cleanConditions, cleanRest⟩ := List.forall_mem_append.mp clean
    obtain ⟨cleanThen, cleanElse⟩ := List.forall_mem_append.mp cleanRest
    obtain ⟨inConditionsAndThen, inElse⟩ := List.forall_mem_append.mp independent
    obtain ⟨inConditions, inThen⟩ := List.forall_mem_append.mp inConditionsAndThen
    obtain ⟨ofConditionsAndThen, ofElse⟩ := inherits.split
    obtain ⟨ofConditions, ofThen⟩ := ofConditionsAndThen.split
    exact ⟨admitsExprs_of_clean same resolving visible conditions cleanConditions
        inConditions ofConditions,
      admitsBody_of_clean same resolving visible thenBody cleanThen inThen ofThen,
      admitsBody_of_clean same resolving visible elseBody cleanElse inElse ofElse⟩
  | .ret _ none, _, _, _ => trivial
  | .push _ target value, clean, independent, inherits => by
    obtain ⟨cleanTarget, cleanValue⟩ := List.forall_mem_append.mp clean
    obtain ⟨inTarget, inValue⟩ := List.forall_mem_append.mp independent
    obtain ⟨ofTarget, ofValue⟩ := inherits.split
    exact ⟨admitsExpr_of_clean same resolving visible target cleanTarget inTarget ofTarget,
      admitsExpr_of_clean same resolving visible value cleanValue inValue ofValue⟩
  | .loop _ body, clean, independent, inherits =>
    admitsBody_of_clean same resolving visible body clean independent inherits
  | .forEach _ iterator range body, clean, independent, inherits => by
    obtain ⟨cleanRange, cleanBody⟩ := List.forall_mem_append.mp clean
    obtain ⟨inRange, inBody⟩ := List.forall_mem_append.mp independent
    obtain ⟨ofRange, ofBody⟩ := inherits.split
    exact ⟨admitsRange_of_clean same resolving visible range cleanRange inRange ofRange,
      admitsBody_of_clean same _ _ body cleanBody inBody ofBody.bind⟩
  | .breakWhen _ conditions, clean, independent, inherits
  | .nextWhen _ conditions, clean, independent, inherits =>
    admitsExprs_of_clean same resolving visible conditions clean independent inherits
termination_by structural statement => statement

theorem admitsBody_of_clean (same : SameFunctions context table functions)
    (resolving visible : List String) : ∀ statements : List Stmt,
      Clean (bodyReports table resolving statements) →
      (∀ part ∈ Stmt.partsOfAll statements, part.independent functions = true) →
      Inherits resolving visible (Stmt.mentionsAny functions · statements) →
      (ofTable table).AdmitsBody context owner visible statements
  | [], _, _, _ => trivial
  | statement :: statements, clean, independent, inherits => by
    obtain ⟨cleanFirst, cleanRest⟩ := List.forall_mem_append.mp clean
    obtain ⟨inFirst, inRest⟩ := List.forall_mem_append.mp independent
    obtain ⟨ofFirst, ofRest⟩ := inherits.split
    exact ⟨admitsStmt_of_clean same resolving visible statement cleanFirst inFirst ofFirst,
      admitsBody_of_clean same _ _ statements cleanRest inRest (ofRest.after statement)⟩
termination_by structural statements => statements

end

end Clean

end Inference.Licence

namespace Program

open Inference Resolution

/-- No default of a function or a lambda mentions its own parameter.  A call by one of the names in
`functions` is a call of that function. -/
def DefaultsIndependent (program : Program) (functions : List String) : Prop :=
  (∀ params ∈ program.functions.map (·.params), Param.independent functions params = true) ∧
    ∀ part ∈ program.parts, part.independent functions = true

instance (program : Program) (functions : List String) :
    Decidable (program.DefaultsIndependent functions) :=
  inferInstanceAs (Decidable (_ ∧ _))

/-- The code of a program without undeclared names asks only for what is declared. -/
theorem covers_ofTable {checker : Checker} (fresh : checker.state.env = {}) {program : Program}
    (independent : program.DefaultsIndependent program.functionNames)
    (clean : Clean (Lexical.programReports program.table program)) :
    (Licence.ofTable program.table).Covers (checker.register program).context
      program.main.body := by
  obtain ⟨ofParams, ofParts⟩ := independent
  obtain ⟨cleanFunctions, cleanRest⟩ := List.forall_mem_append.mp clean
  obtain ⟨cleanPatterns, cleanMain⟩ := List.forall_mem_append.mp cleanRest
  obtain ⟨inDeclarations, inMain⟩ := List.forall_mem_append.mp ofParts
  obtain ⟨inFunctions, inPatterns⟩ := List.forall_mem_append.mp inDeclarations
  have same : Licence.SameFunctions (checker.register program).context program.table
      program.functionNames := by
    refine ⟨Checker.hasFunction_of_fresh fresh program, fun name => ?_⟩
    rw [Bool.eq_iff_iff, List.contains_iff_mem, hasFunction_table_iff]
  have nothing : ∀ {mentions : String → Bool}, Inherits [] [] mentions :=
    fun _ member => absurd member List.not_mem_nil
  have self : ∀ {mentions : String → Bool} {names : List String}, Inherits names names mentions :=
    fun _ member _ => member
  refine ⟨fun function member => ?_, fun pattern member => ?_, ?_⟩
  · have declared := Checker.mem_functions_of_fresh fresh member
    have reported := fun report inside =>
      cleanFunctions report (List.mem_flatMap.mpr ⟨function, declared, inside⟩)
    have parts := fun part inside =>
      inFunctions part (List.mem_flatMap.mpr ⟨function, declared, inside⟩)
    obtain ⟨_, cleanCode⟩ := List.forall_mem_append.mp reported
    obtain ⟨cleanParams, cleanBody⟩ := List.forall_mem_append.mp cleanCode
    obtain ⟨inParams, inBody⟩ := List.forall_mem_append.mp parts
    have own := ofParams function.params (List.mem_map.mpr ⟨function, declared, rfl⟩)
    exact ⟨
      Licence.admitsParams_of_clean same [] [] function.params cleanParams own inParams nothing,
      Licence.admitsBody_of_clean same _ _ function.body cleanBody inBody self⟩
  · have declared := Checker.mem_patterns_of_fresh fresh member
    have reported := fun report inside =>
      cleanPatterns report (List.mem_flatMap.mpr ⟨pattern, declared, inside⟩)
    have parts := fun part inside =>
      inPatterns part (List.mem_flatMap.mpr ⟨pattern, declared, inside⟩)
    obtain ⟨cleanConditions, cleanReturns⟩ := List.forall_mem_append.mp reported
    obtain ⟨inConditions, inReturns⟩ := List.forall_mem_append.mp parts
    exact ⟨
      Licence.admitsExprs_of_clean same _ _ pattern.conditions cleanConditions inConditions self,
      Licence.admitsExprs_of_clean same _ _ pattern.returns cleanReturns inReturns self⟩
  · exact Licence.admitsBody_of_clean same [] [] program.main.body cleanMain inMain nothing

/-- Where no default mentions its own parameter and resolution reports no name as undeclared, a
check of the resolved program by a fresh checker finds every variable that it looks up, and every
function and pattern that it reaches is registered. -/
theorem resolved_names_found (program : Program) (deduplicates : Bool)
    (independent : program.DefaultsIndependent
      (program.resolve (.recording deduplicates)).1.functionNames)
    (clean : ∀ diagnostic ∈ (program.resolve (.recording deduplicates)).2.recorded,
      diagnostic.problem.isUndeclared = false)
    (checker : Checker) (fresh : checker.state.env = {}) :
    let resolved := (program.resolve (.recording deduplicates)).1
    let table := (checker.register resolved).state.env.table
    let run := checker.trace resolved
    run.state = (checker.checkProgram resolved).state ∧
    (∀ name found, .lookup name found ∈ run.demands → found = true) ∧
    (∀ stack function types refused,
      .invoke stack (.call function types) refused ∈ run.demands → table.hasFunction function) ∧
    (∀ stack pattern type refused,
      .invoke stack (.matching pattern type) refused ∈ run.demands → table.hasPattern pattern) := by
  intro resolved table run
  have resolves := program.resolves_resolve (.recording deduplicates)
  have settled : resolved.DefaultsIndependent resolved.functionNames := by
    have params : resolved.functions.map (·.params) = program.functions.map (·.params) :=
      functionRegistry.map_eq_of_renames resolves.functions fun _ _ => rfl
    rw [DefaultsIndependent, params, resolves.parts_eq]
    exact independent
  have quiet : Clean (Lexical.programReports resolved.table resolved) := by
    obtain ⟨redefinitions, _, last⟩ := resolves.reports
    intro report member
    refine clean report ?_
    rw [last]
    exact Sink.mem_recorded_reportAll rfl (.inr (List.mem_append_right _ member))
  have permitted := checker.permits_trace resolved (covers_ofTable fresh settled quiet)
  have registered : table = resolved.table := Checker.table_register fresh resolved
  refine ⟨checker.state_trace resolved, ?_, ?_, ?_⟩
  · intro name found member
    exact (permitted _ member).resolve_right id
  · intro stack function types refused member
    obtain ⟨_, ⟨reached, _⟩, _⟩ := permitted _ member
    rw [registered]
    exact reached.elim id id
  · intro stack pattern type refused member
    obtain ⟨_, ⟨reached, _⟩, _⟩ := permitted _ member
    rw [registered]
    exact reached

/-- A function that is called through a parameter, with a default that mentions an earlier
parameter, an updated variable and a pattern. -/
def dispatch : Program where
  functions := [
    .ofName ⟨"id", .atLine 1⟩ [⟨⟨"x", .atLine 1⟩, none⟩]
      [.ret (.atLine 2) (some (.var (.atLine 2) "x"))],
    .ofName ⟨"apply", .atLine 3⟩
      [⟨⟨"f", .atLine 3⟩, none⟩, ⟨⟨"g", .atLine 3⟩, some (.var (.atLine 3) "f")⟩]
      [.ret (.atLine 4) (some (.call (.atLine 4) (.var (.atLine 4) "g") [.int (.atLine 4) 1]))]]
  patterns := [.ofCases ⟨"sign", .atLine 5⟩ ⟨"n", .atLine 5⟩
    [(.bool (.atLine 6) true, .var (.atLine 6) "n")]]
  main := ⟨[
    .assign (.atLine 8) "total" none .set
      (.call (.atLine 8) (.var (.atLine 8) "apply") [.pointer (.atLine 8) "id"]),
    .assign (.atLine 9) "total" none .add
      (.matching (.atLine 9) "sign" (.var (.atLine 9) "total"))], .atLine 7⟩

theorem dispatch_names_found :
    let checker : Checker := { state := { sink := .plain } }
    dispatch.resolve (.recording true) = (dispatch, .recording true) ∧
      dispatch.DefaultsIndependent dispatch.functionNames ∧
      .invoke [.function "apply"] (.call "id" [.int]) false ∈ (checker.trace dispatch).demands ∧
      (checker.register dispatch).state.env.table.hasFunction "id" ∧
      ∀ name found, .lookup name found ∈ (checker.trace dispatch).demands → found = true := by
  intro checker
  have resolved : dispatch.resolve (.recording true) = (dispatch, .recording true) := by cbv
  have independent : dispatch.DefaultsIndependent dispatch.functionNames := by decide
  have demands : (checker.trace dispatch).demands =
      [.lookup "total" true, .lookup "n" true, .invoke [] (.matching "sign" .int) false,
        .lookup "total" true, .lookup "x" true,
        .invoke [.function "apply"] (.call "id" [.int]) false, .lookup "g" true, .lookup "f" true,
        .invoke [] (.call "apply" [.pointer "id"]) false] := by cbv
  have reached : .invoke [.function "apply"] (.call "id" [.int]) false ∈
      (checker.trace dispatch).demands := by simp [demands]
  have result := resolved_names_found dispatch true
  rw [resolved] at result
  obtain ⟨_, found, called, _⟩ := result independent
    (fun _ member => absurd member List.not_mem_nil) checker rfl
  exact ⟨resolved, independent, reached, called _ _ _ _ reached, found⟩

end Program

end CallSite
