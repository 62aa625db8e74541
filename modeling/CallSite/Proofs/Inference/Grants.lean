import CallSite.Proofs.CallGraph.Recursion
import CallSite.Proofs.Inference.Admission
import CallSite.Proofs.Inference.History
import CallSite.Proofs.Resolution.Registration

/-!
# What the text of a program grants

The text of a program grants its code the calls, matches and pointers that are written in it: to the
code of a function only the calls that stand in a function of that name.  So a run of inference
reaches nothing that is not written in the program.
-/

namespace CallSite

namespace Inference

namespace Licence

/-- What a part asks for itself, apart from variables. -/
def Grants (licence : Licence) (context : Context) (owner : Owner) : Expr → Prop
  | .pointer _ function => licence.pointers function
  | .call _ (.var _ name) _ => context.hasFunction name → licence.calls owner name
  | .matching _ pattern _ => licence.patterns owner pattern
  | _ => True

section Parts

variable {licence : Licence} {context : Context} {owner : Owner}

mutual

/-- Where any name may be looked up, code is admitted as soon as each of its parts is granted. -/
theorem admitsExpr_of_parts (unseen : ∀ name, licence.unseen name) (visible : List String) :
    ∀ expression : Expr, (∀ part ∈ expression.parts, licence.Grants context owner part) →
      licence.AdmitsExpr context owner visible expression
  | .var _ name, _ => .inr (unseen name)
  | .int _ _, _ | .float _ _, _ | .bool _ _, _ | .string _ _, _ => trivial
  | .pointer _ _, all => all _ List.mem_cons_self
  | .list _ elements, all =>
    admitsExprs_of_parts unseen visible elements (List.forall_mem_cons.mp all).2
  | .binary _ _ left right, all => by
    obtain ⟨inLeft, inRight⟩ := List.forall_mem_append.mp (List.forall_mem_cons.mp all).2
    exact ⟨admitsExpr_of_parts unseen visible left inLeft,
      admitsExpr_of_parts unseen visible right inRight⟩
  | .unary _ _ operand, all | .len _ operand, all | .chop _ operand, all
  | .chomp _ operand, all =>
    admitsExpr_of_parts unseen visible operand (List.forall_mem_cons.mp all).2
  | .call _ callee arguments, all => by
    obtain ⟨here, inside⟩ := List.forall_mem_cons.mp all
    obtain ⟨inCallee, inArguments⟩ := List.forall_mem_append.mp inside
    have admitted := admitsExprs_of_parts unseen visible arguments inArguments
    have calleeAdmitted := admitsExpr_of_parts unseen visible callee inCallee
    cases callee with
    | var place name =>
      refine ⟨admitted, ?_⟩
      split
      · next declared => exact here declared
      · exact .inr (unseen name)
    | _ => exact ⟨admitted, calleeAdmitted⟩
  | .index _ target indices, all => by
    obtain ⟨inTarget, inIndices⟩ := List.forall_mem_append.mp (List.forall_mem_cons.mp all).2
    exact ⟨admitsExpr_of_parts unseen visible target inTarget,
      admitsExprs_of_parts unseen visible indices inIndices⟩
  | .lambda _ params body, all => by
    obtain ⟨inParams, inBody⟩ := List.forall_mem_append.mp (List.forall_mem_cons.mp all).2
    exact ⟨admitsParams_of_parts unseen visible params inParams,
      admitsBody_of_parts unseen _ body inBody⟩
  | .append _ target values, all => by
    obtain ⟨inTarget, inValues⟩ := List.forall_mem_append.mp (List.forall_mem_cons.mp all).2
    exact ⟨admitsExpr_of_parts unseen visible target inTarget,
      admitsExprs_of_parts unseen visible values inValues⟩
  | .matching _ _ argument, all => by
    obtain ⟨here, inside⟩ := List.forall_mem_cons.mp all
    exact ⟨admitsExpr_of_parts unseen visible argument inside, here⟩
termination_by structural expression => expression

theorem admitsExprs_of_parts (unseen : ∀ name, licence.unseen name) (visible : List String) :
    ∀ expressions : List Expr,
      (∀ part ∈ Expr.partsOfAll expressions, licence.Grants context owner part) →
      licence.AdmitsExprs context owner visible expressions
  | [], _ => trivial
  | expression :: expressions, all => by
    obtain ⟨inFirst, inRest⟩ := List.forall_mem_append.mp all
    exact ⟨admitsExpr_of_parts unseen visible expression inFirst,
      admitsExprs_of_parts unseen visible expressions inRest⟩
termination_by structural expressions => expressions

theorem admitsParams_of_parts (unseen : ∀ name, licence.unseen name) (visible : List String) :
    ∀ params : List Param, (∀ part ∈ Param.parts params, licence.Grants context owner part) →
      licence.AdmitsParams context owner visible params
  | [], _ => trivial
  | ⟨name, none⟩ :: params, all =>
    admitsParams_of_parts unseen (name.name :: visible) params all
  | ⟨name, some default⟩ :: params, all => by
    obtain ⟨inDefault, inRest⟩ := List.forall_mem_append.mp all
    exact ⟨admitsExpr_of_parts unseen visible default inDefault,
      admitsParams_of_parts unseen (name.name :: visible) params inRest⟩
termination_by structural params => params

theorem admitsRange_of_parts (unseen : ∀ name, licence.unseen name) (visible : List String) :
    ∀ range : Range, (∀ part ∈ range.parts, licence.Grants context owner part) →
      licence.AdmitsRange context owner visible range
  | .elements values, all => admitsExprs_of_parts unseen visible values all
  | .value operand, all => admitsExpr_of_parts unseen visible operand all
  | .span first last, all => by
    obtain ⟨inFirst, inLast⟩ := List.forall_mem_append.mp all
    exact ⟨admitsExpr_of_parts unseen visible first inFirst,
      admitsExpr_of_parts unseen visible last inLast⟩
termination_by structural range => range

theorem admitsStmt_of_parts (unseen : ∀ name, licence.unseen name) (visible : List String) :
    ∀ statement : Stmt, (∀ part ∈ statement.parts, licence.Grants context owner part) →
      licence.AdmitsStmt context owner visible statement
  | .expr _ value, all | .put _ value, all | .ret _ (some value), all =>
    admitsExpr_of_parts unseen visible value all
  | .assign _ target none _ value, all =>
    ⟨admitsExpr_of_parts unseen visible value all, fun _ => .inr (unseen target)⟩
  | .assign _ target (some index) _ value, all => by
    obtain ⟨inIndex, inValue⟩ := List.forall_mem_append.mp all
    exact ⟨admitsExpr_of_parts unseen visible value inValue, .inr (unseen target),
      admitsExpr_of_parts unseen visible index inIndex⟩
  | .ifElse _ conditions thenBody elseBody, all => by
    obtain ⟨inside, inElse⟩ := List.forall_mem_append.mp all
    obtain ⟨inConditions, inThen⟩ := List.forall_mem_append.mp inside
    exact ⟨admitsExprs_of_parts unseen visible conditions inConditions,
      admitsBody_of_parts unseen visible thenBody inThen,
      admitsBody_of_parts unseen visible elseBody inElse⟩
  | .ret _ none, _ => trivial
  | .push _ target value, all => by
    obtain ⟨inTarget, inValue⟩ := List.forall_mem_append.mp all
    exact ⟨admitsExpr_of_parts unseen visible target inTarget,
      admitsExpr_of_parts unseen visible value inValue⟩
  | .loop _ body, all => admitsBody_of_parts unseen visible body all
  | .forEach _ iterator range body, all => by
    obtain ⟨inRange, inBody⟩ := List.forall_mem_append.mp all
    exact ⟨admitsRange_of_parts unseen visible range inRange,
      admitsBody_of_parts unseen (iterator :: visible) body inBody⟩
  | .breakWhen _ conditions, all | .nextWhen _ conditions, all =>
    admitsExprs_of_parts unseen visible conditions all
termination_by structural statement => statement

theorem admitsBody_of_parts (unseen : ∀ name, licence.unseen name) (visible : List String) :
    ∀ statements : List Stmt,
      (∀ part ∈ Stmt.partsOfAll statements, licence.Grants context owner part) →
      licence.AdmitsBody context owner visible statements
  | [], _ => trivial
  | statement :: statements, all => by
    obtain ⟨inFirst, inRest⟩ := List.forall_mem_append.mp all
    exact ⟨admitsStmt_of_parts unseen visible statement inFirst,
      admitsBody_of_parts unseen _ statements inRest⟩
termination_by structural statements => statements

end

end Parts

section Declarations

variable {licence : Licence} {context : Context}

theorem admitsFunction_of_parts (unseen : ∀ name, licence.unseen name) {function : Function}
    (all : ∀ part ∈ function.parts,
      licence.Grants context (.function function.name.name) part) :
    licence.AdmitsFunction context function := by
  obtain ⟨inParams, inBody⟩ := List.forall_mem_append.mp all
  exact ⟨admitsParams_of_parts unseen _ _ inParams, admitsBody_of_parts unseen _ _ inBody⟩

theorem admitsPattern_of_parts (unseen : ∀ name, licence.unseen name) {pattern : Pattern}
    (all : ∀ part ∈ pattern.parts, licence.Grants context (.pattern pattern.name.name) part) :
    licence.AdmitsPattern context pattern := by
  obtain ⟨inConditions, inReturns⟩ := List.forall_mem_append.mp all
  exact ⟨admitsExprs_of_parts unseen _ _ inConditions, admitsExprs_of_parts unseen _ _ inReturns⟩

end Declarations

/-- What the text of a program grants. -/
def ofProgram (program : Program) : Licence where
  calls owner name := ∀ caller, owner = .function caller → program.RefersTo caller name
  patterns _ pattern := ∃ position argument, .matching position pattern argument ∈ program.parts
  pointers function := ∃ position, .pointer position function ∈ program.parts
  unseen _ := True

theorem grants_ofProgram {program : Program} {context : Context} {owner : Owner} {part : Expr}
    (member : part ∈ program.parts)
    (called : ∀ name, part.target? = some name → context.hasFunction name →
      (ofProgram program).calls owner name) :
    (ofProgram program).Grants context owner part := by
  cases part with
  | pointer position function => exact ⟨position, member⟩
  | matching position pattern argument => exact ⟨position, argument, member⟩
  | call position callee arguments =>
    cases callee with
    | var place name => exact called name rfl
    | _ => trivial
  | _ => trivial

end Licence

end Inference

namespace Checker

open Inference

theorem table_register {checker : Checker} (fresh : checker.state.env = {}) (program : Program) :
    (checker.register program).state.env.table = program.table := by
  rw [register, fresh]
  rfl

theorem mem_functions_of_fresh {checker : Checker} (fresh : checker.state.env = {})
    {program : Program} {function : Function}
    (member : function ∈ (checker.register program).context.functions) :
    function ∈ program.functions := by
  rw [context, table_register fresh] at member
  obtain ⟨entry, registered, rfl⟩ := List.mem_map.mp member
  exact Program.declaration_mem_functions registered

theorem mem_patterns_of_fresh {checker : Checker} (fresh : checker.state.env = {})
    {program : Program} {pattern : Pattern}
    (member : pattern ∈ (checker.register program).context.patterns) :
    pattern ∈ program.patterns := by
  rw [context, table_register fresh] at member
  obtain ⟨entry, registered, rfl⟩ := List.mem_map.mp member
  exact Program.declaration_mem_patterns registered

theorem hasFunction_of_fresh {checker : Checker} (fresh : checker.state.env = {})
    (program : Program) (name : String) :
    (checker.register program).context.hasFunction name = program.table.hasFunction name := by
  rw [context, table_register fresh, Context.hasFunction, Context.function?_ofTable,
    Option.isSome_map, SymbolTable.hasFunction]

/-- The licence that a program grants covers all its code. -/
theorem covers_ofProgram {checker : Checker} (fresh : checker.state.env = {})
    (program : Program) :
    (Licence.ofProgram program).Covers (checker.register program).context program.main.body where
  functions function member := by
    have declared := mem_functions_of_fresh fresh member
    refine Licence.admitsFunction_of_parts (fun _ => trivial) fun part inside => ?_
    have within : part ∈ program.parts :=
      List.mem_append_left _ (List.mem_append_left _ (List.mem_flatMap.mpr ⟨_, declared, inside⟩))
    refine Licence.grants_ofProgram within ?_
    rintro name target known caller same
    rw [hasFunction_of_fresh fresh, Program.hasFunction_table_iff] at known
    exact ⟨known, function, declared, Owner.function.inj same, part, inside, target⟩
  patterns pattern member := by
    have declared := mem_patterns_of_fresh fresh member
    refine Licence.admitsPattern_of_parts (fun _ => trivial) fun part inside => ?_
    have within : part ∈ program.parts :=
      List.mem_append_left _ (List.mem_append_right _ (List.mem_flatMap.mpr ⟨_, declared, inside⟩))
    refine Licence.grants_ofProgram within ?_
    rintro name target known caller same
    cases same
  main := by
    refine Licence.admitsBody_of_parts (fun _ => trivial) _ _ fun part inside => ?_
    refine Licence.grants_ofProgram (List.mem_append_right _ inside) ?_
    rintro name target known caller same
    cases same

end Checker

end CallSite
