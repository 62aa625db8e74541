import CallSite.Proofs.Inference.Homonyms
import CallSite.Proofs.Inference.Reach

/-!
# The names of patterns

An analysis of a program whose patterns have new names is the analysis of the program under these
names, as long as no function and pattern of one name meet.  They meet where a pattern is to be
matched while a function of its name is being checked or lies on a cycle, or where a function is to
be called while a pattern of its name is being checked; then the one is refused for the sake of the
other.
-/

namespace CallSite

open Inference

variable {labels : Relabelling}

/-- The pattern that an expression itself matches with. -/
def Expr.matched? : Expr → Option String
  | .matching _ pattern _ => some pattern
  | _ => none

/-! ## What is kept -/

/-- The types of the slots, the type that was yielded and the variables that are kept for an
owner. -/
def Environment.kept (env : Environment) (owner : Owner) :
    Option (List Slot × Ty × Option Frame) :=
  (env.table.record? owner).map fun record =>
    (record.slots, record.result, record.scope.map (·.frame env.store))

theorem SymbolTable.record?_relabel (table : SymbolTable) (owner : Owner) :
    (table.relabel labels).record? (owner.relabel labels) = table.record? owner := by
  cases owner with
  | main => rfl
  | function name =>
    rw [Owner.relabel, record?, function?_relabel, Option.map_map]
    rfl
  | pattern name =>
    rw [Owner.relabel, record?, pattern?_relabel, Option.map_map]
    rfl

theorem Environment.kept_relabel (env : Environment) (owner : Owner) :
    (env.relabel labels).kept (owner.relabel labels) = env.kept owner := by
  rw [kept, relabel, SymbolTable.record?_relabel, kept]

/-- Where the names of all functions stay, the names in the second set are those of the first under
new names. -/
theorem NameSet.Relabelled.key_mem_iff {declared : Owner → Prop} {names others : NameSet}
    (relabelled : names.Relabelled labels declared others)
    (stays : ∀ name, declared (.function name) → labels.key name = name) (name : String) :
    labels.key name ∈ others.names ↔ name ∈ names.names := by
  obtain ⟨entered, all, old, new⟩ := relabelled
  have renamed : Owner.names (entered.map (Owner.relabel labels)) =
      (Owner.names entered).map labels.key := by
    rw [Owner.names, List.filterMap_map, Owner.names, List.map_filterMap]
    refine List.filterMap_congr fun owner member => ?_
    cases owner with
    | main | pattern => rfl
    | function other => exact congrArg some (stays other (all _ member)).symm
  rw [old, new, renamed, List.mem_map_of_injective labels.key.injective]

/-- The second analysis is the first under new names. -/
structure Analysis.Relabels (labels : Relabelling) (analysis other : Analysis) : Prop where
  program : other.program = analysis.program.relabel labels
  diagnostics : other.diagnostics = analysis.diagnostics.map (Diagnostic.relabel labels)
  cycles : other.cycles = analysis.cycles
  visited : analysis.visited.Relabelled labels (·.DeclaredIn analysis.program) other.visited
  kept : ∀ owner, other.env.kept (owner.relabel labels) = analysis.env.kept owner

/-! ## The runs of two analyses -/

theorem Inference.Context.ofTable_relabel (table : SymbolTable) (blocked : List String)
    (infersCyclic : Bool) :
    Context.ofTable (table.relabel labels) blocked infersCyclic =
      (Context.ofTable table blocked infersCyclic).relabel labels := by
  simp only [ofTable, relabel, SymbolTable.relabel, List.map_map]
  rfl

theorem Inference.Context.Presents.declaresOwner_iff {context : Context} {program : Program}
    (presents : context.Presents program) (owner : Owner) :
    context.DeclaresOwner owner ↔ owner.DeclaredIn program := by
  cases owner with
  | main => exact Iff.rfl
  | function name => exact presents.declares_iff (.call name [])
  | pattern name => exact presents.declares_iff (.matching name .unresolved)

/-- What is being checked is declared. -/
theorem Inference.Licence.Nested.declaresOwner {licence : Licence} {context : Context}
    {stack : List Owner} (nested : licence.Nested context stack) :
    ∀ owner ∈ stack, context.DeclaresOwner owner := by
  induction nested with
  | main => exact List.forall_mem_nil _
  | call _ _ _ declared ih | matching _ _ _ declared ih =>
    exact List.forall_mem_cons.mpr ⟨declared, ih⟩

namespace Program

/-- The context in which the analysis of a program infers types. -/
def contextUnder (program : Program) (config : Config) : Context :=
  ((program.checker config).register (program.analyze config).program).context

/-- What the analysis of a program comes to, the latest first. -/
def encounters (program : Program) (config : Config) : List Encounter :=
  (program.contextUnder config).encounters (program.trace config).demands

/-- What is declared under the name and is not followed stands in its own way.  So no function and
pattern of the name meet. -/
def Separates (program : Program) (config : Config) (name : String) : Prop :=
  ∀ encounter ∈ program.encounters config,
    encounter.invocation.name = name → encounter.followed = false →
      (program.contextUnder config).Declares encounter.invocation →
        (program.contextUnder config).MeetsItself encounter.stack encounter.invocation

instance (program : Program) (config : Config) (name : String) :
    Decidable (program.Separates config name) :=
  inferInstanceAs (Decidable (∀ encounter ∈ program.encounters config, _ → _ → _ → _))

/-- A pattern with a new name does not get that of a function, and what is shown of the name of a
pattern is shown anew. -/
structure LabelsFit (labels : Relabelling) (program : Program) : Prop where
  apart : ∀ name ∈ program.patternNames, labels.key name ∈ program.functionNames →
    labels.key name = name
  shown : ∀ pattern ∈ program.patterns,
    (pattern.relabel labels).name.baseName = labels.shown pattern.name.baseName

section Distinct

variable {program : Program} (functions : program.functionNames.Nodup)
  (patterns : program.patternNames.Nodup) (config : Config)

include functions patterns

/-- Types are inferred from where the other passes end, with all declarations registered. -/
theorem register_of_distinct :
    (program.checker config).register (program.analyze config).program =
      { state :=
          { env := { table := program.table }
            sink := program.reportCycles (program.cyclesUnder config)
              (program.resolve (.recording config.deduplicates)).2 }
        blocked := (program.cyclesUnder config).flatten
        infersCyclic := config.infersCyclic } := by
  have itself : (program.resolve (.recording config.deduplicates)).1 = program := by
    rw [resolve_of_distinct functions patterns]
  simp only [checker, analyze, itself]
  rfl

theorem contextUnder_of_distinct :
    program.contextUnder config =
      .ofTable program.table (program.cyclesUnder config).flatten config.infersCyclic := by
  rw [contextUnder, register_of_distinct functions patterns]
  rfl

theorem contextUnder_relabel :
    (program.relabel labels).contextUnder config =
      (program.contextUnder config).relabel labels := by
  rw [contextUnder_of_distinct functions patterns,
    contextUnder_of_distinct (nodup_functionNames_relabel labels functions)
      (nodup_patternNames_relabel labels patterns),
    cyclesUnder_relabel, table_relabel, Context.ofTable_relabel]

theorem presents_contextUnder : (program.contextUnder config).Presents program := by
  rw [contextUnder_of_distinct functions patterns]
  exact Context.presents_ofTable program _ _

theorem mem_functionNames_of_blocked {name : String}
    (blocked : name ∈ (program.contextUnder config).blocked) : name ∈ program.functionNames := by
  rw [contextUnder_of_distinct functions patterns] at blocked
  obtain ⟨cycle, listed, member⟩ := List.mem_flatten.mp blocked
  exact mem_functionNames_of_mem_cyclesUnder listed member

theorem LabelsFit.context (fits : program.LabelsFit labels) :
    (program.contextUnder config).LabelsFit labels where
  apart name known taken := by
    have presents := presents_contextUnder functions patterns config
    rw [presents.patterns, program.isSome_pattern?_iff] at known
    rw [presents.functions, program.isSome_function?_iff] at taken
    exact fits.apart name known
      (taken.elim id (mem_functionNames_of_blocked functions patterns config))
  shown pattern member := by
    rw [contextUnder_of_distinct functions patterns] at member
    obtain ⟨entry, listed, rfl⟩ := List.mem_map.mp member
    exact fits.shown _ (declaration_mem_patterns listed)

theorem relabelled_register (context : Context) :
    ((program.checker config).register (program.analyze config).program).state.Relabelled labels
      context (((program.relabel labels).checker config).register
        ((program.relabel labels).analyze config).program).state := by
  let sink : Sink := .recording config.deduplicates
  have resolved : (program.relabel labels).resolve sink = _ :=
    resolve_relabel labels functions patterns sink
  rw [register_of_distinct functions patterns,
    register_of_distinct (nodup_functionNames_relabel labels functions)
      (nodup_patternNames_relabel labels patterns),
    cyclesUnder_relabel, table_relabel, resolved, reportCycles_relabel]
  have nobody : NameSet.empty.Relabelled labels context.DeclaresOwner NameSet.empty :=
    ⟨[], by simp, by simp [Owner.names, NameSet.empty], by simp [Owner.names, NameSet.empty]⟩
  exact ⟨rfl, rfl, nobody⟩

/-- As long as nothing is refused for the sake of the other kind, the two analyses go side by
side. -/
theorem relabelled_trace (fits : program.LabelsFit labels)
    (separate : ∀ demand ∈ (program.trace config).demands,
      (program.contextUnder config).Separates labels demand) :
    (program.trace config).Relabelled labels (program.contextUnder config)
      ((program.relabel labels).trace config) := by
  have body : ((program.relabel labels).analyze config).program.main.body =
      Stmt.relabelAll labels (program.analyze config).program.main.body := by
    rw [analyze_of_distinct functions patterns,
      analyze_of_distinct (nodup_functionNames_relabel labels functions)
        (nodup_patternNames_relabel labels patterns)]
    rfl
  have checked : Relabels labels (program.contextUnder config) []
      (checkMain (program.contextUnder config) (watch (program.contextUnder config) [])
        (program.analyze config).program.main.body)
      (checkMain ((program.relabel labels).contextUnder config)
        (watch ((program.relabel labels).contextUnder config) [])
        ((program.relabel labels).analyze config).program.main.body) := by
    rw [body, contextUnder_relabel functions patterns]
    exact relabels_checkMain (Context.hasFunction_relabel labels _)
      (relabels_watch (fits.context functions patterns config) (by simp)) _
  have start : Traced.Relabelled labels (program.contextUnder config)
      { state := ((program.checker config).register (program.analyze config).program).state }
      { state := (((program.relabel labels).checker config).register
          ((program.relabel labels).analyze config).program).state } :=
    ⟨relabelled_register functions patterns config _, rfl, rfl⟩
  exact (checked.alike _ _ start rfl separate).2.1

/-- The analysis of a program whose patterns have new names is then that of the program under these
names. -/
theorem analyze_relabel (fits : program.LabelsFit labels)
    (separate : ∀ demand ∈ (program.trace config).demands,
      (program.contextUnder config).Separates labels demand) :
    (program.analyze config).Relabels labels ((program.relabel labels).analyze config) := by
  have run := relabelled_trace functions patterns config fits separate
  obtain ⟨env, visited, diagnostics⟩ := program.keptBy_trace config
  obtain ⟨otherEnv, otherVisited, otherDiagnostics⟩ :=
    (program.relabel labels).keptBy_trace config
  have itself : (program.analyze config).program = program := by
    rw [analyze_of_distinct functions patterns]
  refine ⟨?_, ?_, ?_, ?_, fun owner => ?_⟩
  · rw [itself, analyze_of_distinct (nodup_functionNames_relabel labels functions)
      (nodup_patternNames_relabel labels patterns)]
  · rw [← otherDiagnostics, ← diagnostics, run.state.sink]
    rfl
  · rw [analyze_of_distinct functions patterns,
      analyze_of_distinct (nodup_functionNames_relabel labels functions)
        (nodup_patternNames_relabel labels patterns)]
    exact cyclesUnder_relabel labels program config
  · rw [← otherVisited, ← visited, itself]
    obtain ⟨entered, declared, names⟩ := run.state.visited
    refine ⟨entered, fun owner member => ?_, names⟩
    exact ((presents_contextUnder functions patterns config).declaresOwner_iff owner).mp
      (declared owner member)
  · rw [← otherEnv, ← env, run.state.env, Environment.kept_relabel]

end Distinct

/-! ## Meetings -/

/-- What is declared and not followed is refused among declarations that are being checked. -/
theorem refused_of_encounter {program : Program} {config : Config} {encounter : Encounter}
    (member : encounter ∈ program.encounters config) (ignored : encounter.followed = false)
    (known : (program.contextUnder config).Declares encounter.invocation) :
    (∀ owner ∈ encounter.stack, (program.contextUnder config).DeclaresOwner owner) ∧
      (program.contextUnder config).refuses (Owner.names encounter.stack)
        encounter.invocation.name = true := by
  obtain ⟨demand, listed, same⟩ := List.mem_filterMap.mp member
  have permitted : (Licence.ofProgram _).Permits (program.contextUnder config) demand :=
    (program.checker config).permits_trace _ (Checker.covers_ofProgram rfl _) demand listed
  cases demand with
  | lookup => cases same
  | invoke stack invocation refused =>
    obtain rfl := Option.some.inj same
    obtain ⟨nested, _, refusal⟩ := permitted
    have refuses : refused = true := by simpa [known] using ignored
    exact ⟨nested.declaresOwner, refusal ▸ refuses⟩

section Exchange

/-- No function and no pattern has the name, and no match names it. -/
def Unused (program : Program) (name : String) : Prop :=
  name ∉ program.functionNames ∧ name ∉ program.patternNames ∧
    ∀ part ∈ program.parts, part.matched? ≠ some name

variable {program : Program} {pattern : Identifier} {fresh : String}

theorem key_exchange : (Relabelling.exchange pattern fresh).key pattern.name = fresh :=
  Equiv.swap_apply_left _ _

theorem key_exchange_of_ne {name : String} (other : name ≠ pattern.name) (unused : name ≠ fresh) :
    (Relabelling.exchange pattern fresh).key name = name :=
  Equiv.swap_apply_of_ne_of_ne other unused

theorem labelsFit_exchange (plain : Resolution.Plain fresh) (unused : program.Unused fresh)
    (apart : ∀ other ∈ program.patterns, other.name.name ≠ pattern.name →
      other.name.baseName ≠ pattern.baseName ∧ other.name.baseName ≠ fresh) :
    program.LabelsFit (.exchange pattern fresh) where
  apart name declared taken := by
    refine key_exchange_of_ne ?_ fun same => unused.2.1 (same ▸ declared)
    rintro rfl
    rw [key_exchange] at taken
    exact unused.1 taken
  shown other declared := by
    by_cases same : other.name.name = pattern.name
    · have renamed : (other.relabel (.exchange pattern fresh)).name.name = fresh := by
        change (Relabelling.exchange pattern fresh).key other.name.name = fresh
        rw [same, key_exchange]
      have shown : other.name.baseName = pattern.baseName := by
        rw [Identifier.baseName, same, Identifier.baseName]
      have whole := Resolution.baseName_of_plain (renamed.symm ▸ plain)
      rw [whole, renamed, shown]
      exact (Equiv.swap_apply_left _ _).symm
    · have stays : (other.relabel (.exchange pattern fresh)).name.name = other.name.name :=
        key_exchange_of_ne same fun taken => unused.2.1 (taken ▸ List.mem_map_of_mem declared)
      have different := apart other declared same
      rw [Identifier.baseName, stays]
      exact (Equiv.swap_apply_of_ne_of_ne different.1 different.2).symm

variable (functions : program.functionNames.Nodup) (patterns : program.patternNames.Nodup)
  (config : Config)

include functions patterns

theorem name_ne_of_unused (unused : program.Unused fresh) {invocation : Invocation}
    (known : (program.contextUnder config).Declares invocation) : invocation.name ≠ fresh := by
  rw [(presents_contextUnder functions patterns config).declares_iff] at known
  rintro rfl
  cases invocation with
  | call => exact unused.1 known
  | matching => exact unused.2.1 known

theorem Separates.demands (separate : program.Separates config pattern.name)
    (unused : program.Unused fresh) : ∀ demand ∈ (program.trace config).demands,
    (program.contextUnder config).Separates (.exchange pattern fresh) demand := by
  intro demand listed
  cases demand with
  | lookup => trivial
  | invoke stack invocation refused =>
    intro refuses known
    by_cases named : invocation.name = pattern.name
    · have member : ⟨stack, invocation, false⟩ ∈ program.encounters config :=
        List.mem_filterMap.mpr ⟨_, listed, by simp [Context.encounter?, refuses]⟩
      exact .inl (separate _ member named rfl known)
    · exact .inr (key_exchange_of_ne named
        (name_ne_of_unused functions patterns config unused known))

theorem separates_of_encounters (fits : program.LabelsFit (.exchange pattern fresh))
    (unused : program.Unused fresh)
    (same : (program.relabel (.exchange pattern fresh)).encounters config =
      (program.encounters config).map (Encounter.relabel (.exchange pattern fresh))) :
    program.Separates config pattern.name := by
  intro encounter member named ignored known
  have declared := (refused_of_encounter member ignored known).1
  have there : encounter.relabel (.exchange pattern fresh) ∈
      (program.relabel (.exchange pattern fresh)).encounters config :=
    same ▸ List.mem_map_of_mem member
  have moved : (program.relabel (.exchange pattern fresh)).contextUnder config = _ :=
    contextUnder_relabel functions patterns config
  have refused := (refused_of_encounter there ignored
    (moved ▸ (Context.declares_relabel _ _ _).mpr known)).2
  rw [moved] at refused
  have cause := ((fits.context functions patterns config).refuses_iff declared known).mp refused
  refine cause.resolve_right fun ⟨_, stays⟩ => ?_
  rw [named, key_exchange] at stays
  exact name_ne_of_unused functions patterns config unused known (named.trans stays.symm)

theorem separates_of_not_mem {name : String} (noFunction : name ∉ program.functionNames) :
    program.Separates config name := by
  intro encounter member named ignored known
  have presents := presents_contextUnder functions patterns config
  obtain ⟨declared, refused⟩ := refused_of_encounter member ignored known
  obtain ⟨stack, invocation, followed⟩ := encounter
  rw [Context.refuses_iff, Owner.mem_names_iff, named] at refused
  rcases refused with (entered | entered) | blocked
  · exact absurd ((presents.declaresOwner_iff _).mp (declared _ entered)) noFunction
  · cases invocation with
    | call other types =>
      obtain rfl : other = name := named
      exact absurd ((presents.declares_iff _).mp known) noFunction
    | matching other type =>
      obtain rfl : other = name := named
      exact .inl entered
  · exact absurd (mem_functionNames_of_blocked functions patterns config
      (Context.mem_blocked_of_refuses blocked)) noFunction

end Exchange

/-- To rename one pattern changes nothing in an analysis but that name, provided that no function
and pattern of the name meet and that no other pattern is shown under the old name or the new one.
They do not meet exactly if the analysis comes to the same calls and matches under the new name,
inside the same declarations, and follows the same ones.  Where no function has the name they never
do, and the visited names are the same but for that name. -/
theorem pattern_renaming_changes_name_only (program : Program) (config : Config)
    (functions : program.functionNames.Nodup) (patterns : program.patternNames.Nodup)
    (pattern : Identifier) {fresh : String} (plain : Resolution.Plain fresh)
    (unused : program.Unused fresh)
    (apart : ∀ other ∈ program.patterns, other.name.name ≠ pattern.name →
      other.name.baseName ≠ pattern.baseName ∧ other.name.baseName ≠ fresh) :
    let labels := Relabelling.exchange pattern fresh
    let renamed := program.relabel labels
    (program.Separates config pattern.name ↔
      renamed.encounters config = (program.encounters config).map (Encounter.relabel labels)) ∧
    (program.Separates config pattern.name →
      (program.analyze config).Relabels labels (renamed.analyze config)) ∧
    (pattern.name ∉ program.functionNames → program.Separates config pattern.name ∧
      ∀ name, labels.key name ∈ (renamed.analyze config).visited.names ↔
        name ∈ (program.analyze config).visited.names) := by
  intro labels renamed
  have fits : program.LabelsFit labels := labelsFit_exchange plain unused apart
  have alike (separate : program.Separates config pattern.name) :=
    analyze_relabel functions patterns config fits
      (separate.demands functions patterns config unused)
  refine ⟨⟨fun separate => ?_, ?_⟩, alike, fun noFunction => ?_⟩
  · have run := relabelled_trace functions patterns config fits
      (separate.demands functions patterns config unused)
    rw [encounters, contextUnder_relabel functions patterns, run.encounters, encounters]
  · exact separates_of_encounters functions patterns config fits unused
  · have separate := separates_of_not_mem functions patterns config noFunction
    refine ⟨separate, (alike separate).visited.key_mem_iff fun name declared => ?_⟩
    have listed : name ∈ program.functionNames := by
      rwa [analyze_of_distinct functions patterns] at declared
    exact key_exchange_of_ne (fun same => noFunction (same ▸ listed))
      fun same => unused.1 (same ▸ listed)

/-- The main body calls a function and matches with a pattern of the same name. -/
def signs : Program where
  functions := [
    .ofName ⟨"sign", .atLine 1⟩ [⟨⟨"n", .atLine 1⟩, none⟩]
      [.ret (.atLine 2) (some (.var (.atLine 2) "n"))]]
  patterns := [
    .ofCases ⟨"sign", .atLine 4⟩ ⟨"n", .atLine 4⟩ [
      (.binaryOf .lt (.var (.atLine 5) "n") (.int (.atLine 5) 0), .string (.atLine 5) "negative"),
      (.bool (.atLine 6) true, .int (.atLine 6) 0)]]
  main := ⟨[
    .assign (.atLine 8) "whole" none .set (.callNamed (.atLine 8) "sign" [.int (.atLine 8) 1]),
    .assign (.atLine 9) "kind" none .set (.matchingOf "sign" (.var (.atLine 9) "whole"))],
    .atLine 8⟩

theorem sign_renamed :
    let labels := Relabelling.exchange ⟨"sign", .atLine 4⟩ "polarity"
    signs.Unused "polarity" ∧ signs.Separates {} "sign" ∧
      (signs.analyze {}).diagnostics = [⟨.patternReturnsDiffer "sign", .atLine 4⟩] ∧
      ((signs.relabel labels).analyze {}).diagnostics =
        [⟨.patternReturnsDiffer "polarity", .atLine 4⟩] := by
  intro labels
  have unused : signs.Unused "polarity" := by
    refine ⟨?_, ?_, ?_⟩ <;> decide +kernel
  have separate : signs.Separates {} "sign" := by decide +kernel
  have renamed := (signs.pattern_renaming_changes_name_only {} (by decide) (by decide)
    ⟨"sign", .atLine 4⟩ (by decide) unused (by decide +kernel)).2.1 separate
  have reported : (signs.analyze {}).diagnostics =
      [⟨.patternReturnsDiffer "sign", .atLine 4⟩] := by decide +kernel
  refine ⟨unused, separate, reported, ?_⟩
  rw [renamed.diagnostics, reported]
  decide +kernel

/-- A function leaves the kind of a number to a pattern of the given name. -/
def classifier (pattern : String) (otherwise : Expr) : Program where
  functions := [
    .ofName ⟨"classify", .atLine 1⟩ [⟨⟨"n", .atLine 1⟩, none⟩]
      [.ret (.atLine 2) (some (.matchingOf pattern (.var (.atLine 2) "n")))]]
  patterns := [
    .ofCases ⟨pattern, .atLine 4⟩ ⟨"n", .atLine 4⟩ [
      (.binaryOf .lt (.var (.atLine 5) "n") (.int (.atLine 5) 0), .string (.atLine 5) "negative"),
      (.bool (.atLine 6) true, otherwise)]]
  main := ⟨[.assign (.atLine 8) "kind" none .set
    (.callNamed (.atLine 8) "classify" [.int (.atLine 8) 1])], .atLine 8⟩

/-- Where the function and the pattern share a name, the match inside the function is refused for
the sake of the function, which then has no type.  Under another name for the pattern it has one. -/
theorem homonyms_not_separate :
    let program := classifier "classify" (.string (.atLine 6) "positive")
    let labels := Relabelling.exchange ⟨"classify", .atLine 4⟩ "sign"
    program.functionNames.Nodup ∧ program.patternNames.Nodup ∧ program.Unused "sign" ∧
      ¬ program.Separates {} "classify" ∧
      ¬ (program.analyze {}).Relabels labels ((program.relabel labels).analyze {}) := by
  intro program labels
  have unused : program.Unused "sign" := by
    refine ⟨?_, ?_, ?_⟩ <;> decide +kernel
  have untyped : (program.analyze {}).env.kept .main =
      some ([], .noValue, some [("kind", .unresolved)]) := by decide +kernel
  have typed : ((program.relabel labels).analyze {}).env.kept .main =
      some ([], .noValue, some [("kind", .string)]) := by decide +kernel
  refine ⟨by decide, by decide, unused, by decide +kernel, fun relabels => ?_⟩
  have same := relabels.kept .main
  rw [Owner.relabel, typed, untyped] at same
  revert same
  decide

end Program

end CallSite
