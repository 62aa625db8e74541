import CallSite.Analysis
import CallSite.Proofs.Diagnostic.Recording
import CallSite.Proofs.Resolution.Lexical
import Mathlib.Data.List.TakeWhile

/-!
# Recovery from duplicates

A declaration whose name is taken goes on under a made-up name.  Where no declared name has a `#`,
made-up names never meet a declared one or each other.  So every declaration ends up with a name of
its own, from which the name that was written can be told, and to resolve the renamed program once
more changes nothing and reports nothing but what the bodies gave rise to before.
-/

namespace CallSite

namespace Resolution

/-! ## Made-up names -/

/-- The name may stand in a source text: it has no `#`. -/
def Plain (name : String) : Prop := '#' ∉ name.toList

instance (name : String) : Decidable (Plain name) :=
  inferInstanceAs (Decidable ('#' ∉ name.toList))

theorem toList_freshName (name : String) (count : Nat) :
    (freshName name count).toList = name.toList ++ '#' :: (toString count).toList := by
  simp [freshName]

theorem not_plain_freshName (name : String) (count : Nat) : ¬ Plain (freshName name count) := by
  rw [Plain, toList_freshName, not_not]
  exact List.mem_append_right _ List.mem_cons_self

theorem takeWhile_of_plain {name : String} (plain : Plain name) :
    name.toList.takeWhile (· != '#') = name.toList := by
  refine List.takeWhile_eq_self_iff.mpr fun char member => bne_iff_ne.mpr ?_
  rintro rfl
  exact plain member

theorem takeWhile_freshName {name : String} (plain : Plain name) (count : Nat) :
    (freshName name count).toList.takeWhile (· != '#') = name.toList := by
  rw [toList_freshName, List.takeWhile_append, takeWhile_of_plain plain, if_pos rfl]
  simp

theorem baseName_of_plain {identifier : Identifier} (plain : Plain identifier.name) :
    identifier.baseName = identifier.name := by
  rw [Identifier.baseName, takeWhile_of_plain plain, String.ofList_toList]

theorem baseName_of_freshName {identifier : Identifier} {name : String} {count : Nat}
    (plain : Plain name) (made : identifier.name = freshName name count) :
    identifier.baseName = name := by
  rw [Identifier.baseName, made, takeWhile_freshName plain, String.ofList_toList]

/-- Made-up names with different numbers differ, whatever names they are made from. -/
theorem count_eq_of_freshName_eq {name other : String} {count another : Nat} (plain : Plain name)
    (otherPlain : Plain other) (same : freshName name count = freshName other another) :
    count = another := by
  have lists := congrArg String.toList same
  have bases : name.toList = other.toList := by
    rw [← takeWhile_freshName plain count, same, takeWhile_freshName otherPlain]
  rw [toList_freshName, toList_freshName, bases] at lists
  have digits := congrArg (Nat.ofDigitChars 10 · 0)
    (List.cons.inj (List.append_cancel_left lists)).2
  simpa [Nat.toString_eq_ofList_toDigits] using digits

/-- The names that can be taken after `count` declarations were renamed. -/
def Reachable (count : Nat) (name : String) : Prop :=
  Plain name ∨ ∃ base number, Plain base ∧ number ≤ count ∧ name = freshName base number

theorem Reachable.succ {count : Nat} {name : String} (reachable : Reachable count name) :
    Reachable (count + 1) name := by
  rcases reachable with plain | ⟨base, number, plain, bound, made⟩
  · exact .inl plain
  · exact .inr ⟨base, number, plain, Nat.le_succ_of_le bound, made⟩

/-- The next made-up name is not taken. -/
theorem not_reachable_freshName {name : String} (plain : Plain name) (count : Nat) :
    ¬ Reachable count (freshName name (count + 1)) := by
  rintro (written | ⟨base, number, basePlain, bound, made⟩)
  · exact not_plain_freshName _ _ written
  · have same := count_eq_of_freshName_eq plain basePlain made
    omega

/-! ## Duplicates under new names -/

/-- The second list is the first one with its duplicates renamed.  All names differ, nothing but
names has changed, the name that was written is the base of the new one, and the first declaration
of a name keeps it. -/
structure Recovers {α : Type} (identifier : α → Identifier) (rename : α → String → α)
    (items recovered : List α) : Prop where
  distinct : (recovered.map fun item => (identifier item).name).Nodup
  renamed : List.Forall₂ (fun item other => other = rename item (identifier other).name ∧
    (identifier other).baseName = (identifier item).name) items recovered
  first : ∀ before item after, items = before ++ item :: after →
    (identifier item).name ∉ before.map (fun earlier => (identifier earlier).name) →
    recovered[before.length]? = some item

namespace Registry.Naming

variable {α : Type} {registry : Registry α} (naming : registry.Naming)

section Plain

variable {taken : List String} {count : Nat} {items : List α}

theorem renamed_recover (plain : ∀ item ∈ items, Plain (naming.name item)) :
    List.Forall₂ (fun item other => other = naming.setName item (naming.name other) ∧
      (naming.identifier other).baseName = naming.name item) items
      (naming.recover taken count items).1 := by
  induction items generalizing taken count with
  | nil => exact .nil
  | cons item items ih =>
    obtain ⟨here, later⟩ := List.forall_mem_cons.mp plain
    rw [recover]
    split
    · refine .cons ⟨?_, ?_⟩ (ih later)
      · exact congrArg (naming.setName item) (naming.name_setName item _).symm
      · exact baseName_of_freshName here (naming.name_setName _ _)
    · exact .cons ⟨(naming.setName_name item).symm, baseName_of_plain here⟩ (ih later)

/-- What is taken before stays apart from the names that recovery gives. -/
theorem distinct_recover (plain : ∀ item ∈ items, Plain (naming.name item))
    (reachable : ∀ name ∈ taken, Reachable count name) :
    ((naming.recover taken count items).1.map naming.name).Nodup ∧
      ∀ name ∈ (naming.recover taken count items).1.map naming.name, name ∉ taken := by
  induction items generalizing taken count with
  | nil => exact ⟨List.nodup_nil, fun _ member => absurd member List.not_mem_nil⟩
  | cons item items ih =>
    obtain ⟨here, later⟩ := List.forall_mem_cons.mp plain
    have next : ∀ {free : String} {number : Nat}, free ∉ taken → Reachable number free →
        (∀ name ∈ taken, Reachable number name) →
        (free :: (naming.recover (free :: taken) number items).1.map naming.name).Nodup ∧
          ∀ name ∈ free :: (naming.recover (free :: taken) number items).1.map naming.name,
            name ∉ taken := by
      intro free number unused given others
      obtain ⟨distinct, apart⟩ := ih later (List.forall_mem_cons.mpr ⟨given, others⟩)
      refine ⟨List.nodup_cons.mpr ⟨fun member => apart free member List.mem_cons_self, distinct⟩,
        List.forall_mem_cons.mpr ⟨unused, fun name member used => ?_⟩⟩
      exact apart name member (List.mem_cons_of_mem free used)
    rw [recover]
    split
    · have unused : freshName (naming.name item) (count + 1) ∉ taken :=
        fun member => not_reachable_freshName here count (reachable _ member)
      have renamed := next unused (.inr ⟨naming.name item, count + 1, here, Nat.le_refl _, rfl⟩)
        fun name member => (reachable name member).succ
      simp only [List.map_cons, name, naming.name_setName] at renamed ⊢
      exact renamed
    · next free => exact next free (.inl here) reachable

theorem first_recover (plain : ∀ item ∈ items, Plain (naming.name item)) {before after : List α}
    {item : α} (split : items = before ++ item :: after) (free : naming.name item ∉ taken)
    (earliest : naming.name item ∉ before.map naming.name) :
    (naming.recover taken count items).1[before.length]? = some item := by
  induction before generalizing items taken count with
  | nil =>
    rw [split, List.nil_append, recover, if_neg free]
    rfl
  | cons head before ih =>
    subst split
    obtain ⟨differs, further⟩ := not_or.mp (mt List.mem_cons.mpr earliest)
    have inRest : ∀ other ∈ before ++ item :: after, Plain (naming.name other) :=
      (List.forall_mem_cons.mp plain).2
    rw [List.cons_append, recover]
    split
    · refine ih inRest rfl ?_ further
      refine mt List.mem_cons.mp (not_or.mpr ⟨fun same => ?_, free⟩)
      have written := inRest item (List.mem_append_right _ List.mem_cons_self)
      rw [same] at written
      exact not_plain_freshName _ _ written
    · exact ih inRest rfl (mt List.mem_cons.mp (not_or.mpr ⟨differs, free⟩)) further

theorem recovers_recover (plain : ∀ item ∈ items, Plain (naming.name item)) :
    Recovers naming.identifier naming.setName items (naming.recover [] 0 items).1 where
  distinct := (naming.distinct_recover plain fun _ member => absurd member List.not_mem_nil).1
  renamed := naming.renamed_recover plain
  first _ _ _ split earliest := naming.first_recover plain split List.not_mem_nil earliest

/-- Where all names differ already, nothing is renamed and nothing is reported. -/
theorem recover_of_distinct (distinct : (items.map naming.name).Nodup)
    (apart : ∀ name ∈ items.map naming.name, name ∉ taken) :
    naming.recover taken count items = (items, []) := by
  induction items generalizing taken with
  | nil => rfl
  | cons item items ih =>
    obtain ⟨notLater, later⟩ := List.nodup_cons.mp distinct
    obtain ⟨free, others⟩ := List.forall_mem_cons.mp apart
    have further : ∀ name ∈ items.map naming.name, name ∉ naming.name item :: taken := by
      intro name member used
      rcases List.mem_cons.mp used with rfl | old
      · exact notLater member
      · exact others name member old
    rw [recover, if_neg free, ih later further]

end Plain

end Registry.Naming

/-! ## Reports about bodies -/

namespace Lexical

/-- The reports are about names in bodies and about numbers of arguments. -/
def AboutBodies (reports : List Diagnostic) : Prop :=
  ∀ report ∈ reports, report.category = .resolution ∨ report.category = .arity

namespace AboutBodies

theorem nil : AboutBodies [] := fun _ member => absurd member List.not_mem_nil

theorem append {first second : List Diagnostic} (left : AboutBodies first)
    (right : AboutBodies second) : AboutBodies (first ++ second) :=
  List.forall_mem_append.mpr ⟨left, right⟩

theorem flatMap {α : Type} {reports : α → List Diagnostic}
    (each : ∀ item, AboutBodies (reports item)) (items : List α) :
    AboutBodies (items.flatMap reports) :=
  List.forall_mem_flatMap.mpr fun item _ => each item

theorem missing {problem : Problem} (category : problem.category = .resolution) (known : Bool)
    (position : Position) : AboutBodies (missing known problem position) := by
  cases known with
  | true => exact nil
  | false => exact List.forall_mem_singleton.mpr (.inl category)

theorem arity (callee : String) (params : List Param) (supplied : Nat) (position : Position) :
    AboutBodies (arityReports callee params supplied position) := by
  rw [arityReports]
  cases acceptsArguments params supplied with
  | true => exact nil
  | false => exact List.forall_mem_singleton.mpr (.inr rfl)

variable (table : SymbolTable)

theorem callee (visible : List String) (name : String) (supplied : Nat) (position : Position) :
    AboutBodies (calleeReports table visible name supplied position) := by
  rw [calleeReports]
  cases table.function? name with
  | some entry => exact arity _ _ _ _
  | none => exact missing rfl _ _

mutual

theorem expr (visible : List String) : ∀ expression : Expr,
    AboutBodies (exprReports table visible expression)
  | .var _ _ | .pointer _ _ => missing rfl _ _
  | .int _ _ | .float _ _ | .bool _ _ | .string _ _ => nil
  | .list _ elements => exprs visible elements
  | .binary _ _ left right => (expr visible left).append (expr visible right)
  | .unary _ _ operand | .len _ operand | .chop _ operand | .chomp _ operand =>
    expr visible operand
  | .call _ function arguments => by
    have given := exprs visible arguments
    cases function with
    | var place name => exact (callee table visible name _ place).append given
    | lambda place params statements =>
      exact (param visible params).append ((body _ statements).append
        ((arity _ _ _ _).append given))
    | _ => exact (expr visible _).append given
  | .index _ target values | .append _ target values =>
    (expr visible target).append (exprs visible values)
  | .lambda _ params statements => (param visible params).append (body _ statements)
  | .matching _ _ argument => (missing rfl _ _).append (expr visible argument)
termination_by structural expression => expression

theorem exprs (visible : List String) : ∀ expressions : List Expr,
    AboutBodies (exprsReports table visible expressions)
  | [] => nil
  | expression :: expressions => (expr visible expression).append (exprs visible expressions)
termination_by structural expressions => expressions

theorem param (visible : List String) : ∀ params : List Param,
    AboutBodies (paramReports table visible params)
  | [] => nil
  | ⟨_, none⟩ :: params => param _ params
  | ⟨_, some default⟩ :: params => (expr _ default).append (param _ params)
termination_by structural params => params

theorem range (visible : List String) : ∀ range : Range,
    AboutBodies (rangeReports table visible range)
  | .elements values => exprs visible values
  | .value operand => expr visible operand
  | .span first last => (expr visible first).append (expr visible last)
termination_by structural range => range

theorem stmt (visible : List String) : ∀ statement : Stmt,
    AboutBodies (stmtReports table visible statement)
  | .expr _ value | .put _ value | .ret _ (some value) => expr visible value
  | .assign _ _ (some index) _ value =>
    (expr visible index).append ((expr visible value).append (missing rfl _ _))
  | .assign _ _ none operator value => by
    refine (expr visible value).append ?_
    split
    · exact missing rfl _ _
    · exact nil
  | .ifElse _ conditions thenBody elseBody =>
    (exprs visible conditions).append ((body visible thenBody).append (body visible elseBody))
  | .ret _ none => nil
  | .push _ target value => (expr visible target).append (expr visible value)
  | .loop _ statements => body visible statements
  | .forEach _ _ values statements => (range visible values).append (body _ statements)
  | .breakWhen _ conditions | .nextWhen _ conditions => exprs visible conditions
termination_by structural statement => statement

theorem body (visible : List String) : ∀ statements : List Stmt,
    AboutBodies (bodyReports table visible statements)
  | [] => nil
  | statement :: statements => (stmt visible statement).append (body _ statements)
termination_by structural statements => statements

end

theorem function (function : Function) : AboutBodies (functionReports table function) :=
  append (flatMap (fun _ => missing rfl _ _) _)
    ((param table [] function.params).append (body table _ function.body))

theorem pattern (pattern : Pattern) : AboutBodies (patternReports table pattern) :=
  (exprs table _ pattern.conditions).append (exprs table _ pattern.returns)

theorem program (program : Program) : AboutBodies (programReports table program) :=
  (flatMap (function table) program.functions).append
    ((flatMap (pattern table) program.patterns).append (body table [] program.main.body))

end AboutBodies

end Lexical

end Resolution

/-! ## Redefinitions among the reports -/

namespace Diagnostic

/-- The report is about a declaration whose name is taken. -/
def isRedefinition (report : Diagnostic) : Bool := report.category = .redefinition

end Diagnostic

namespace Program

open Resolution

/-- Resolution reports the redefinitions, and then what lexical scoping finds in the bodies of the
program with its duplicates renamed. -/
theorem resolve_eq (program : Program) (sink : Sink) :
    program.resolve sink = (program.recovered, sink.reportAll (program.redefinitions ++
      Lexical.programReports program.recovered.table program.recovered)) := by
  rw [resolve_eq_resolveBodies, Sink.reportAll_append]
  exact congrArg (program.recovered, ·) (works_resolveBodies program.recovered
    { env := { table := program.recovered.table }, sink := _ } rfl rfl).2.2

theorem isRedefinition_of_mem_redefinitions {program : Program} {report : Diagnostic}
    (member : report ∈ program.redefinitions) : report.isRedefinition = true := by
  rcases List.mem_append.mp member with first | second
  · obtain ⟨function, rfl⟩ := functionNaming.redefined_of_mem_recover first
    rfl
  · obtain ⟨pattern, rfl⟩ := patternNaming.redefined_of_mem_recover second
    rfl

theorem isRedefinition_of_mem_programReports {program : Program} {table : SymbolTable}
    {report : Diagnostic} (member : report ∈ Lexical.programReports table program) :
    report.isRedefinition = false := by
  rcases Lexical.AboutBodies.program table program report member with named | counted
  · rw [Diagnostic.isRedefinition, named]
    rfl
  · rw [Diagnostic.isRedefinition, counted]
    rfl

/-- The reports of resolution fall into redefinitions and those on bodies. -/
theorem filter_isRedefinition (program : Program) (table : SymbolTable) (other : Program) :
    let reports := program.redefinitions ++ Lexical.programReports table other
    reports.filter (!·.isRedefinition) = Lexical.programReports table other ∧
      reports.filter Diagnostic.isRedefinition = program.redefinitions := by
  have redefinitions : ∀ report ∈ program.redefinitions, report.isRedefinition = true :=
    fun _ => isRedefinition_of_mem_redefinitions
  have bodies : ∀ report ∈ Lexical.programReports table other, report.isRedefinition = false :=
    fun _ => isRedefinition_of_mem_programReports
  constructor
  · rw [List.filter_append, List.filter_eq_nil_iff.mpr, List.filter_eq_self.mpr, List.nil_append]
    · intro report member
      rw [bodies report member]
      rfl
    · intro report member
      rw [redefinitions report member]
      decide
  · rw [List.filter_append, List.filter_eq_self.mpr redefinitions, List.filter_eq_nil_iff.mpr,
      List.append_nil]
    intro report member
    rw [bodies report member]
    decide

/-- Where all names differ, resolution renames nothing and reports what lexical scoping finds. -/
theorem resolve_of_distinct {program : Program} (functions : program.functionNames.Nodup)
    (patterns : program.patternNames.Nodup) (sink : Sink) :
    program.resolve sink =
      (program, sink.reportAll (Lexical.programReports program.table program)) := by
  have recovered : program.recovered = program := by
    rw [Program.recovered, functionNaming.recover_of_distinct functions (by simp),
      patternNaming.recover_of_distinct patterns (by simp)]
  have redefinitions : program.redefinitions = [] := by
    rw [Program.redefinitions, functionNaming.recover_of_distinct functions (by simp),
      patternNaming.recover_of_distinct patterns (by simp)]
    rfl
  rw [resolve_eq, recovered, redefinitions, List.nil_append]

theorem analyze_of_distinct {program : Program} (functions : program.functionNames.Nodup)
    (patterns : program.patternNames.Nodup) (config : Config) :
    program.analyze config =
      let cycles := program.cyclesUnder config
      let sink := program.reportCycles cycles (program.resolve (.recording config.deduplicates)).2
      let state := (program.inferTypes config cycles sink).state
      ⟨program, state.env, state.sink.recorded, cycles, state.visited⟩ := by
  have itself : (program.resolve (.recording config.deduplicates)).1 = program := by
    rw [resolve_of_distinct functions patterns]
  simp only [analyze, itself]

/-- Resolution gives every declaration a name of its own and changes nothing else.  To resolve the
result once more renames nothing, and of the first reports only the redefinitions, which came
first, are missing. -/
theorem resolve_recovers (program : Program) (sink : Sink) (fresh : sink.recorded = [])
    (functionNames : ∀ name ∈ program.functionNames, Plain name)
    (patternNames : ∀ name ∈ program.patternNames, Plain name) :
    let first := program.resolve sink
    let second := first.1.resolve sink
    Recovers Function.name Function.rename program.functions first.1.functions ∧
      Recovers Pattern.name Pattern.rename program.patterns first.1.patterns ∧
      first.1.main = program.main ∧
      second.1 = first.1 ∧
      second.2.recorded = first.2.recorded.filter (!·.isRedefinition) ∧
      first.2.recorded.filter Diagnostic.isRedefinition <+: first.2.recorded := by
  intro first second
  have functions : Recovers Function.name Function.rename program.functions
      program.recovered.functions :=
    functionNaming.recovers_recover (List.forall_mem_map.mp functionNames)
  have patterns : Recovers Pattern.name Pattern.rename program.patterns
      program.recovered.patterns :=
    patternNaming.recovers_recover (List.forall_mem_map.mp patternNames)
  let bodies := Lexical.programReports program.recovered.table program.recovered
  have first_eq : first = (program.recovered, sink.reportAll (program.redefinitions ++ bodies)) :=
    program.resolve_eq sink
  have second_eq : second = (program.recovered, sink.reportAll bodies) := by
    change first.1.resolve sink = _
    rw [first_eq]
    exact resolve_of_distinct functions.distinct patterns.distinct sink
  rw [second_eq, first_eq]
  obtain ⟨bodiesKept, redefinitionsKept⟩ := program.filter_isRedefinition program.recovered.table
    program.recovered
  refine ⟨functions, patterns, rfl, rfl, ?_, ?_⟩
  · rw [Sink.recorded_reportAll_filter fresh, bodiesKept]
  · rw [Sink.recorded_reportAll_filter fresh, redefinitionsKept, Sink.reportAll_append]
    exact Sink.recorded_prefix_reportAll _ bodies

/-- Two functions and a pattern are declared again, one of them with a parameter of its name. -/
def duplicates : Program where
  functions := [
    .ofName ⟨"f", .atLine 1⟩ [] [.ret (.atLine 1) none],
    .ofName ⟨"g", .atLine 2⟩ [] [.ret (.atLine 2) none],
    .ofName ⟨"g", .atLine 3⟩ [⟨⟨"g", .atLine 3⟩, none⟩] [.ret (.atLine 3) none],
    .ofName ⟨"f", .atLine 4⟩ [] [.ret (.atLine 4) none]]
  patterns := [
    .ofCases ⟨"p", .atLine 5⟩ ⟨"x", .atLine 5⟩ [],
    .ofCases ⟨"p", .atLine 6⟩ ⟨"x", .atLine 6⟩ []]
  main := ⟨[.put (.atLine 8) (.var (.atLine 8) "y")], .atLine 7⟩

theorem duplicates_recover :
    (∀ name ∈ duplicates.functionNames, Plain name) ∧
      (∀ name ∈ duplicates.patternNames, Plain name) ∧
      (duplicates.resolve .distinct).1.functionNames = ["f", "g", "g#1", "f#2"] ∧
      (duplicates.resolve .distinct).2.recorded = [⟨.functionRedefined "g", .atLine 3⟩,
        ⟨.functionRedefined "f", .atLine 4⟩, ⟨.patternRedefined "p", .atLine 6⟩,
        ⟨.parameterNamedAsFunction "g", .atLine 3⟩, ⟨.variableUndeclared "y", .atLine 8⟩] ∧
      ((duplicates.resolve .distinct).1.resolve .distinct).2.recorded =
        (duplicates.resolve .distinct).2.recorded.filter (!·.isRedefinition) := by
  have functionNames : ∀ name ∈ duplicates.functionNames, Plain name := by decide
  have patternNames : ∀ name ∈ duplicates.patternNames, Plain name := by decide
  have result := duplicates.resolve_recovers .distinct rfl functionNames patternNames
  exact ⟨functionNames, patternNames, by decide +kernel, by decide +kernel, result.2.2.2.2.1⟩

end Program

end CallSite
