import CallSite.Proofs.Syntax.Parts
import CallSite.Resolution.Program
import Mathlib.Data.List.Forall2

/-!
# Registering declarations

To declare a list of functions keeps the first one of each name.  Resolution reads functions and
patterns in order and gives one whose name is taken a new name, made from the old one and a count.
It registers all of them under the names that it returns them with, so its symbol table is the one
that the renamed program gives rise to.  Renaming leaves the code of a declaration as it was.
-/

namespace CallSite

/-! ## The first of each name -/

namespace SymbolTable

/-- Add an entry unless there is one of that name. -/
def addNew {α : Type} (name : α → String) (entries : List α) (entry : α) : List α :=
  if (entries.find? (name · == name entry)).isSome then entries else entries ++ [entry]

section AddNew

variable {α : Type} (name : α → String)

theorem mem_of_mem_foldl_addNew (added : List α) {entries : List α} {entry : α}
    (member : entry ∈ added.foldl (addNew name) entries) : entry ∈ entries ∨ entry ∈ added := by
  induction added generalizing entries with
  | nil => exact .inl member
  | cons first rest ih =>
    rcases ih member with old | new
    · unfold addNew at old
      split at old
      · exact .inl old
      · rcases List.mem_append.mp old with older | last
        · exact .inl older
        · rw [List.mem_singleton.mp last]
          exact .inr List.mem_cons_self
    · exact .inr (List.mem_cons_of_mem first new)

theorem find?_addNew (entries : List α) (entry : α) (key : String) :
    (addNew name entries entry).find? (name · == key) =
      (entries.find? (name · == key)).or ([entry].find? (name · == key)) := by
  unfold addNew
  split
  · next taken =>
    by_cases same : name entry = key
    · rw [same] at taken
      rw [Option.or_of_isSome taken]
    · simp [same]
  · exact List.find?_append

/-- What was there before comes first, and then the first of what is added. -/
theorem find?_foldl_addNew (added entries : List α) (key : String) :
    (added.foldl (addNew name) entries).find? (name · == key) =
      (entries.find? (name · == key)).or (added.find? (name · == key)) := by
  induction added generalizing entries with
  | nil => simp
  | cons first rest ih =>
    rw [List.foldl_cons, ih, find?_addNew, Option.or_assoc, ← List.find?_append,
      List.singleton_append]

theorem nodup_foldl_addNew (added : List α) {entries : List α}
    (distinct : (entries.map name).Nodup) :
    ((added.foldl (addNew name) entries).map name).Nodup := by
  induction added generalizing entries with
  | nil => exact distinct
  | cons first rest ih =>
    refine ih ?_
    unfold addNew
    split
    · exact distinct
    · next free =>
      rw [List.map_append, List.map_singleton]
      refine List.nodup_append.mpr ⟨distinct, List.pairwise_singleton _ _, ?_⟩
      rintro taken listed _ last rfl
      obtain ⟨entry, member, same⟩ := List.mem_map.mp listed
      have found : name entry = name first := same.trans (List.mem_singleton.mp last)
      exact free (List.find?_isSome.mpr ⟨entry, member, by simp [found]⟩)

/-- Where no name is there twice, an entry is found by its name. -/
theorem find?_of_mem {entries : List α} (distinct : (entries.map name).Nodup) {entry : α}
    (member : entry ∈ entries) : entries.find? (name · == name entry) = some entry := by
  induction entries with
  | nil => cases member
  | cons first rest ih =>
    obtain ⟨absent, apart⟩ := List.nodup_cons.mp distinct
    rcases List.mem_cons.mp member with rfl | later
    · simp
    · have differs : name first ≠ name entry := by
        intro same
        rw [same] at absent
        exact absent (List.mem_map_of_mem later)
      rw [List.find?_cons_of_neg (by simpa using differs)]
      exact ih apart later

/-- Where no name is there twice, the order of the entries does not matter. -/
theorem find?_eq_of_perm {entries others : List α} (reordered : entries.Perm others)
    (distinct : (entries.map name).Nodup) (key : String) :
    entries.find? (name · == key) = others.find? (name · == key) := by
  cases found : entries.find? (name · == key) with
  | none =>
    have absent := List.find?_eq_none.mp found
    exact (List.find?_eq_none.mpr fun entry member =>
      absent entry (reordered.mem_iff.mpr member)).symm
  | some entry =>
    have member := reordered.mem_iff.mp (List.mem_of_find?_eq_some found)
    have named : name entry = key := by simpa using List.find?_some found
    rw [← named, find?_of_mem name ((reordered.map name).nodup_iff.mp distinct) member]

theorem find?_foldl_addNew_of_perm {added others : List α} (reordered : added.Perm others)
    (distinct : (added.map name).Nodup) (key : String) :
    (added.foldl (addNew name) []).find? (name · == key) =
      (others.foldl (addNew name) []).find? (name · == key) := by
  rw [find?_foldl_addNew, find?_foldl_addNew, find?_eq_of_perm name reordered distinct]

end AddNew

theorem declareFunction_getD (table : SymbolTable) (entry : FunctionEntry) :
    (table.declareFunction entry).toOption.getD table =
      { table with functions := addNew FunctionEntry.name table.functions entry } := by
  rw [declareFunction, hasFunction, function?, addNew]
  split <;> rfl

theorem declarePattern_getD (table : SymbolTable) (entry : PatternEntry) :
    (table.declarePattern entry).toOption.getD table =
      { table with patterns := addNew PatternEntry.name table.patterns entry } := by
  rw [declarePattern, hasPattern, pattern?, addNew]
  split <;> rfl

theorem declareFunctions_cons (table : SymbolTable) (function : Function)
    (functions : List Function) :
    table.declareFunctions (function :: functions) =
      { table with
        functions := addNew FunctionEntry.name table.functions (.fresh function) }.declareFunctions
          functions :=
  congrArg (·.declareFunctions functions) (table.declareFunction_getD (.fresh function))

theorem declarePatterns_cons (table : SymbolTable) (pattern : Pattern)
    (patterns : List Pattern) :
    table.declarePatterns (pattern :: patterns) =
      { table with
        patterns := addNew PatternEntry.name table.patterns (.fresh pattern) }.declarePatterns
          patterns :=
  congrArg (·.declarePatterns patterns) (table.declarePattern_getD (.fresh pattern))

theorem declareFunctions_eq (table : SymbolTable) (functions : List Function) :
    table.declareFunctions functions =
      { table with
        functions := (functions.map FunctionEntry.fresh).foldl (addNew FunctionEntry.name)
          table.functions } := by
  induction functions generalizing table with
  | nil => rfl
  | cons function functions ih =>
    rw [declareFunctions_cons, ih]
    rfl

theorem declarePatterns_eq (table : SymbolTable) (patterns : List Pattern) :
    table.declarePatterns patterns =
      { table with
        patterns := (patterns.map PatternEntry.fresh).foldl (addNew PatternEntry.name)
          table.patterns } := by
  induction patterns generalizing table with
  | nil => rfl
  | cons pattern patterns ih =>
    rw [declarePatterns_cons, ih]
    rfl

end SymbolTable

/-! ## What resolution registers -/

namespace Resolution

open SymbolTable

/-- Another symbol table, and more reports. -/
def State.registering (state : State) (table : SymbolTable) (reports : List Diagnostic) : State :=
  { state with env.table := table, sink := state.sink.reportAll reports }

/-- How declarations of one kind are registered, one after the other. -/
structure Registry (α : Type) where
  taken : SymbolTable → α → Bool
  declare : SymbolTable → α → SymbolTable
  /-- The declaration as the one that is renamed as number `count`. -/
  rename : α → (count : Nat) → α
  redefined : α → Diagnostic
  register : α → ResolveM Bool
  registerAll : Nat → List α → ResolveM (List α)
  declare_of_taken : ∀ table item, taken table item = true → declare table item = table
  run_register : ∀ item state, (register item).run state =
    (!taken state.env.table item, state.registering (declare state.env.table item) [])
  registerAll_nil : ∀ count, registerAll count [] = pure []
  registerAll_cons : ∀ count item items, registerAll count (item :: items) = do
    if ← register item then
      let rest ← registerAll count items
      pure (item :: rest)
    else
      report (redefined item).problem (redefined item).position
      let _ ← register (rename item (count + 1))
      let rest ← registerAll (count + 1) items
      pure (rename item (count + 1) :: rest)

namespace Registry

variable {α : Type} (registry : Registry α)

/-- The second is the first, or the first renamed. -/
def Renames (item other : α) : Prop := other = item ∨ ∃ count, other = registry.rename item count

/-- What renaming does not change is the same for all declarations. -/
theorem map_eq_of_renames {items renamed : List α}
    (related : List.Forall₂ registry.Renames items renamed)
    {β : Type} {view : α → β} (kept : ∀ item count, view (registry.rename item count) = view item) :
    renamed.map view = items.map view := by
  induction related with
  | nil => rfl
  | cons same _ ih =>
    rw [List.map_cons, List.map_cons, ih]
    obtain rfl | ⟨count, rfl⟩ := same
    · rfl
    · exact congrArg (· :: _) (kept _ count)

end Registry

/-- The registry tells declarations apart by their names alone. -/
structure Registry.Naming {α : Type} (registry : Registry α) where
  identifier : α → Identifier
  setName : α → String → α
  /-- The names that are taken in a symbol table. -/
  names : SymbolTable → List String
  name_setName : ∀ item name, (identifier (setName item name)).name = name
  setName_name : ∀ item, setName item (identifier item).name = item
  rename_eq : ∀ item count,
    registry.rename item count = setName item (freshName (identifier item).name count)
  taken_iff : ∀ table item,
    registry.taken table item = true ↔ (identifier item).name ∈ names table
  mem_names_declare_iff : ∀ table item name, name ∈ names (registry.declare table item) ↔
    name = (identifier item).name ∨ name ∈ names table

namespace Registry.Naming

variable {α : Type} {registry : Registry α} (naming : registry.Naming)

def name (item : α) : String := (naming.identifier item).name

/-- The declarations under the names that they go on with, and the redefinitions to be reported,
where the given names are taken and `count` declarations were renamed before. -/
def recover (taken : List String) (count : Nat) : List α → List α × List Diagnostic
  | [] => ([], [])
  | item :: items =>
    if naming.name item ∈ taken then
      let fresh := freshName (naming.name item) (count + 1)
      let rest := recover (fresh :: taken) (count + 1) items
      (naming.setName item fresh :: rest.1, registry.redefined item :: rest.2)
    else
      let rest := recover (naming.name item :: taken) count items
      (item :: rest.1, rest.2)

/-- A name that is declared is taken from then on. -/
theorem mem_names_declare {taken : List String} {table : SymbolTable}
    (same : ∀ name, name ∈ naming.names table ↔ name ∈ taken) (item : α) (name : String) :
    name ∈ naming.names (registry.declare table item) ↔ name ∈ naming.name item :: taken := by
  rw [naming.mem_names_declare_iff, List.mem_cons, same]
  rfl

theorem run_registerAll_eq (count : Nat) (items : List α) (state : State) (taken : List String)
    (same : ∀ name, name ∈ naming.names state.env.table ↔ name ∈ taken) :
    (registry.registerAll count items).run state =
      ((naming.recover taken count items).1, state.registering
        ((naming.recover taken count items).1.foldl registry.declare state.env.table)
        (naming.recover taken count items).2) := by
  induction items generalizing count state taken with
  | nil =>
    rw [registry.registerAll_nil]
    rfl
  | cons item items ih =>
    have taken_iff : registry.taken state.env.table item = true ↔ naming.name item ∈ taken :=
      (naming.taken_iff _ item).trans (same _)
    rw [registry.registerAll_cons, StateT.run_bind, registry.run_register, recover]
    change (ite (!_) _ _ : ResolveM (List α)).run _ = _
    by_cases known : naming.name item ∈ taken
    · have found := taken_iff.mpr known
      let other := registry.rename item (count + 1)
      have named : naming.name other = freshName (naming.name item) (count + 1) := by
        change (naming.identifier (registry.rename item (count + 1))).name = _
        rw [naming.rename_eq, naming.name_setName]
        rfl
      have ran := ih (count + 1)
        (state.registering (registry.declare state.env.table other) [registry.redefined item])
        (freshName (naming.name item) (count + 1) :: taken)
        (fun name => named ▸ naming.mem_names_declare same other name)
      have shape : naming.setName item (freshName (naming.name item) (count + 1)) = other :=
        (naming.rename_eq item (count + 1)).symm
      simp only [found, known, if_true, shape]
      rw [registry.declare_of_taken state.env.table item found]
      change Prod.map (other :: ·) id ((registry.registerAll (count + 1) items).run
        ((registry.register other).run _).2) = _
      rw [registry.run_register]
      exact congrArg (Prod.map (other :: ·) id) ran
    · have missing : registry.taken state.env.table item = false :=
        Bool.eq_false_iff.mpr (mt taken_iff.mp known)
      have ran := ih count (state.registering (registry.declare state.env.table item) [])
        (naming.name item :: taken) (naming.mem_names_declare same item)
      simp only [missing, known, if_false]
      exact congrArg (Prod.map (item :: ·) id) ran

theorem redefined_of_mem_recover {taken : List String} {count : Nat} {items : List α}
    {report : Diagnostic} (member : report ∈ (naming.recover taken count items).2) :
    ∃ item, report = registry.redefined item := by
  induction items generalizing taken count with
  | nil => cases member
  | cons item items ih =>
    rw [recover] at member
    split at member
    · rcases List.mem_cons.mp member with rfl | later
      · exact ⟨item, rfl⟩
      · exact ih later
    · exact ih member

theorem renames_recover (taken : List String) (count : Nat) (items : List α) :
    List.Forall₂ registry.Renames items (naming.recover taken count items).1 := by
  induction items generalizing taken count with
  | nil => exact .nil
  | cons item items ih =>
    rw [recover]
    split
    · exact .cons (.inr ⟨count + 1, (naming.rename_eq item _).symm⟩) (ih _ _)
    · exact .cons (.inl rfl) (ih _ _)

/-- Where nothing is reported, nothing was renamed. -/
theorem recover_eq_self {taken : List String} {count : Nat} {items : List α}
    (silent : (naming.recover taken count items).2 = []) :
    (naming.recover taken count items).1 = items := by
  induction items generalizing taken count with
  | nil => rfl
  | cons item items ih =>
    rw [recover] at silent ⊢
    split at silent
    · cases silent
    · next free =>
      rw [if_neg free]
      exact congrArg (item :: ·) (ih silent)

end Registry.Naming

/-- How functions are registered. -/
def functionRegistry : Registry Function where
  taken table function := table.hasFunction function.name.name
  declare table function := table.declareFunctions [function]
  rename function count := function.rename (freshName function.name.name count)
  redefined function := ⟨.functionRedefined function.name.name, function.position⟩
  register := registerFunction
  registerAll := registerFunctions
  declare_of_taken table function taken := by
    have kept : addNew FunctionEntry.name table.functions (.fresh function) = table.functions :=
      if_pos taken
    rw [declareFunctions_eq]
    exact congrArg (fun functions => { table with functions := functions }) kept
  run_register function state := by
    change (match state.env.table.declareFunction (.fresh function) with
      | .ok table => do
        setTable table
        pure true
      | .error _ => (pure false : ResolveM Bool)).run state =
        (!state.env.table.hasFunction (FunctionEntry.fresh function).name,
          state.registering ((state.env.table.declareFunction (.fresh function)).toOption.getD
            state.env.table) [])
    rw [declareFunction]
    cases state.env.table.hasFunction (FunctionEntry.fresh function).name <;> rfl
  registerAll_nil _ := rfl
  registerAll_cons _ _ _ := rfl

/-- How patterns are registered. -/
def patternRegistry : Registry Pattern where
  taken table pattern := table.hasPattern pattern.name.name
  declare table pattern := table.declarePatterns [pattern]
  rename pattern count := pattern.rename (freshName pattern.name.name count)
  redefined pattern := ⟨.patternRedefined pattern.name.name, pattern.position⟩
  register := registerPattern
  registerAll := registerPatterns
  declare_of_taken table pattern taken := by
    have kept : addNew PatternEntry.name table.patterns (.fresh pattern) = table.patterns :=
      if_pos taken
    rw [declarePatterns_eq]
    exact congrArg (fun patterns => { table with patterns := patterns }) kept
  run_register pattern state := by
    change (match state.env.table.declarePattern (.fresh pattern) with
      | .ok table => do
        setTable table
        pure true
      | .error _ => (pure false : ResolveM Bool)).run state =
        (!state.env.table.hasPattern (PatternEntry.fresh pattern).name,
          state.registering ((state.env.table.declarePattern (.fresh pattern)).toOption.getD
            state.env.table) [])
    rw [declarePattern]
    cases state.env.table.hasPattern (PatternEntry.fresh pattern).name <;> rfl
  registerAll_nil _ := rfl
  registerAll_cons _ _ _ := rfl

theorem mem_map_addNew_iff {α : Type} (name : α → String) (entries : List α) (entry : α)
    (key : String) :
    key ∈ (SymbolTable.addNew name entries entry).map name ↔
      key = name entry ∨ key ∈ entries.map name := by
  unfold SymbolTable.addNew
  split
  · next taken =>
    rw [List.find?_isSome] at taken
    obtain ⟨old, member, same⟩ := taken
    refine ⟨.inr, ?_⟩
    rintro (rfl | listed)
    · exact List.mem_map.mpr ⟨old, member, eq_of_beq same⟩
    · exact listed
  · rw [List.map_append, List.mem_append, or_comm]
    simp

/-- Functions are told apart by their names. -/
def functionNaming : functionRegistry.Naming where
  identifier := Function.name
  setName := Function.rename
  names table := table.functions.map FunctionEntry.name
  name_setName _ _ := rfl
  setName_name _ := rfl
  rename_eq _ _ := rfl
  taken_iff table function := by
    change (table.function? function.name.name).isSome = true ↔ _
    rw [SymbolTable.function?, List.find?_isSome, List.mem_map]
    simp
  mem_names_declare_iff table function name := by
    change name ∈ (table.declareFunctions [function]).functions.map FunctionEntry.name ↔ _
    rw [SymbolTable.declareFunctions_eq]
    exact mem_map_addNew_iff FunctionEntry.name table.functions (.fresh function) name

/-- Patterns are told apart by their names. -/
def patternNaming : patternRegistry.Naming where
  identifier := Pattern.name
  setName := Pattern.rename
  names table := table.patterns.map PatternEntry.name
  name_setName _ _ := rfl
  setName_name _ := rfl
  rename_eq _ _ := rfl
  taken_iff table pattern := by
    change (table.pattern? pattern.name.name).isSome = true ↔ _
    rw [SymbolTable.pattern?, List.find?_isSome, List.mem_map]
    simp
  mem_names_declare_iff table pattern name := by
    change name ∈ (table.declarePatterns [pattern]).patterns.map PatternEntry.name ↔ _
    rw [SymbolTable.declarePatterns_eq]
    exact mem_map_addNew_iff PatternEntry.name table.patterns (.fresh pattern) name

/-- Resolve every body of a program whose declarations are registered. -/
def resolveBodies (program : Program) : ResolveM Unit := do
  resolveFunctions program.functions
  resolvePatterns program.patterns
  inScope .body (resolveBody program.main.body)

end Resolution

namespace Program

open Resolution

/-- The symbol table with the declarations of a program. -/
def table (program : Program) : SymbolTable :=
  (SymbolTable.empty.declareFunctions program.functions).declarePatterns program.patterns

/-- The table has entries and nothing else. -/
theorem table_eq (program : Program) :
    program.table = { SymbolTable.empty with
      functions := program.table.functions, patterns := program.table.patterns } := by
  rw [table, SymbolTable.declarePatterns_eq, SymbolTable.declareFunctions_eq]

theorem functions_table (program : Program) :
    program.table.functions =
      (program.functions.map FunctionEntry.fresh).foldl (SymbolTable.addNew FunctionEntry.name)
        [] := by
  rw [table, SymbolTable.declarePatterns_eq, SymbolTable.declareFunctions_eq]
  rfl

theorem patterns_table (program : Program) :
    program.table.patterns =
      (program.patterns.map PatternEntry.fresh).foldl (SymbolTable.addNew PatternEntry.name)
        [] := by
  rw [table, SymbolTable.declarePatterns_eq, SymbolTable.declareFunctions_eq]
  rfl

theorem nodup_functions_table (program : Program) :
    (program.table.functions.map (·.name)).Nodup := by
  rw [functions_table]
  exact SymbolTable.nodup_foldl_addNew _ _ List.nodup_nil

theorem nodup_patterns_table (program : Program) :
    (program.table.patterns.map (·.name)).Nodup := by
  rw [patterns_table]
  exact SymbolTable.nodup_foldl_addNew _ _ List.nodup_nil

theorem fresh_of_mem_functions_table {program : Program} {entry : FunctionEntry}
    (member : entry ∈ program.table.functions) :
    ∃ function ∈ program.functions, FunctionEntry.fresh function = entry := by
  rw [functions_table] at member
  rcases SymbolTable.mem_of_mem_foldl_addNew _ _ member with none_ | added
  · cases none_
  · exact List.mem_map.mp added

theorem fresh_of_mem_patterns_table {program : Program} {entry : PatternEntry}
    (member : entry ∈ program.table.patterns) :
    ∃ pattern ∈ program.patterns, PatternEntry.fresh pattern = entry := by
  rw [patterns_table] at member
  rcases SymbolTable.mem_of_mem_foldl_addNew _ _ member with none_ | added
  · cases none_
  · exact List.mem_map.mp added

theorem declaration_mem_functions {program : Program} {entry : FunctionEntry}
    (member : entry ∈ program.table.functions) : entry.declaration ∈ program.functions := by
  obtain ⟨function, declared, rfl⟩ := fresh_of_mem_functions_table member
  exact declared

theorem declaration_mem_patterns {program : Program} {entry : PatternEntry}
    (member : entry ∈ program.table.patterns) : entry.declaration ∈ program.patterns := by
  obtain ⟨pattern, declared, rfl⟩ := fresh_of_mem_patterns_table member
  exact declared

/-- The table has the first function of each name. -/
theorem function?_table (program : Program) (name : String) :
    (program.table.function? name).map (·.declaration) = program.function? name := by
  rw [SymbolTable.function?, functions_table, SymbolTable.find?_foldl_addNew, List.find?_nil,
    Option.none_or, List.find?_map, Option.map_map]
  exact Option.map_id_apply

theorem isSome_function?_iff (program : Program) (name : String) :
    (program.function? name).isSome ↔ name ∈ program.functionNames := by
  rw [function?, List.find?_isSome, functionNames, List.mem_map]
  simp

theorem hasFunction_table_iff (program : Program) (name : String) :
    program.table.hasFunction name ↔ name ∈ program.functionNames := by
  rw [SymbolTable.hasFunction, ← isSome_function?_iff, ← function?_table, Option.isSome_map]

theorem pattern?_table (program : Program) (name : String) :
    (program.table.pattern? name).map (·.declaration) = program.pattern? name := by
  rw [SymbolTable.pattern?, patterns_table, SymbolTable.find?_foldl_addNew, List.find?_nil,
    Option.none_or, List.find?_map, Option.map_map]
  exact Option.map_id_apply

theorem isSome_pattern?_iff (program : Program) (name : String) :
    (program.pattern? name).isSome ↔ name ∈ program.patternNames := by
  rw [pattern?, List.find?_isSome, patternNames, List.mem_map]
  simp

theorem hasPattern_table_iff (program : Program) (name : String) :
    program.table.hasPattern name ↔ name ∈ program.patternNames := by
  rw [SymbolTable.hasPattern, ← isSome_pattern?_iff, ← pattern?_table, Option.isSome_map]

/-- What resolution makes of a program: the declarations are renamed, and then the bodies are
resolved with the renamed declarations registered. -/
structure Resolves (program : Program) (sink : Sink) (resolved : Program) (last : Sink) : Prop where
  functions : List.Forall₂ functionRegistry.Renames program.functions resolved.functions
  patterns : List.Forall₂ patternRegistry.Renames program.patterns resolved.patterns
  main : resolved.main = program.main
  sink : ∃ reports : List Diagnostic,
    (∀ report ∈ reports, (∃ name, report.problem = .functionRedefined name) ∨
      ∃ name, report.problem = .patternRedefined name) ∧
    last = ((resolveBodies resolved).run
      { env := { table := resolved.table }, sink := sink.reportAll reports }).2.sink

/-- The program with its duplicates renamed. -/
def recovered (program : Program) : Program :=
  { program with
    functions := (functionNaming.recover [] 0 program.functions).1
    patterns := (patternNaming.recover [] 0 program.patterns).1 }

/-- The redefinitions that are reported. -/
def redefinitions (program : Program) : List Diagnostic :=
  (functionNaming.recover [] 0 program.functions).2 ++
    (patternNaming.recover [] 0 program.patterns).2

theorem recovered_eq_self {program : Program} (silent : program.redefinitions = []) :
    program.recovered = program := by
  obtain ⟨functions, patterns⟩ := List.append_eq_nil_iff.mp silent
  rw [recovered, functionNaming.recover_eq_self functions, patternNaming.recover_eq_self patterns]

theorem resolve_eq_resolveBodies (program : Program) (sink : Sink) :
    program.resolve sink = (program.recovered, ((resolveBodies program.recovered).run
      { env := { table := program.recovered.table },
        sink := sink.reportAll program.redefinitions }).2.sink) := by
  have ranFunctions := functionNaming.run_registerAll_eq 0 program.functions { sink := sink } []
    fun _ => Iff.rfl
  have patternNamesFree : ∀ name, name ∈ patternNaming.names
      (SymbolTable.empty.declareFunctions program.recovered.functions) ↔ name ∈ [] := by
    rw [SymbolTable.declareFunctions_eq]
    exact fun _ => Iff.rfl
  have ranPatterns := patternNaming.run_registerAll_eq 0 program.patterns
    ((functionRegistry.registerAll 0 program.functions).run { sink := sink }).2 []
    (by rw [ranFunctions]; exact patternNamesFree)
  let finish (first : List Function × State) (second : List Pattern × State) : Program × Sink :=
    let renamed := { program with functions := first.1, patterns := second.1 }
    (renamed, ((resolveBodies renamed).run second.2).2.sink)
  have resolved : program.resolve sink =
      finish ((functionRegistry.registerAll 0 program.functions).run { sink := sink })
        ((patternRegistry.registerAll 0 program.patterns).run
          ((functionRegistry.registerAll 0 program.functions).run { sink := sink }).2) := rfl
  rw [resolved, ranPatterns, ranFunctions, redefinitions, Sink.reportAll_append]
  rfl

theorem resolves_resolve (program : Program) (sink : Sink) :
    program.Resolves sink (program.resolve sink).1 (program.resolve sink).2 := by
  rw [resolve_eq_resolveBodies]
  refine ⟨functionNaming.renames_recover [] 0 _, patternNaming.renames_recover [] 0 _, rfl,
    program.redefinitions, ?_, rfl⟩
  intro report member
  rcases List.mem_append.mp member with first | second
  · obtain ⟨function, rfl⟩ := functionNaming.redefined_of_mem_recover first
    exact .inl ⟨function.name.name, rfl⟩
  · obtain ⟨pattern, rfl⟩ := patternNaming.redefined_of_mem_recover second
    exact .inr ⟨pattern.name.name, rfl⟩

namespace Resolves

variable {program resolved : Program} {sink last : Sink}

/-- Renaming leaves the code of a program as it was. -/
theorem parts_eq (resolves : program.Resolves sink resolved last) :
    resolved.parts = program.parts := by
  have functions : resolved.functions.map Function.parts = program.functions.map Function.parts :=
    functionRegistry.map_eq_of_renames resolves.functions fun _ _ => rfl
  have patterns : resolved.patterns.map Pattern.parts = program.patterns.map Pattern.parts :=
    patternRegistry.map_eq_of_renames resolves.patterns fun _ _ => rfl
  rw [Program.parts, Program.parts, List.flatMap, List.flatMap, List.flatMap, List.flatMap,
    functions, patterns, resolves.main]

end Resolves

end Program

end CallSite
