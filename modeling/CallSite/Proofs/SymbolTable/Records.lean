import CallSite.Proofs.Scope.Growth
import CallSite.Query

/-!
# What a symbol table keeps of a check

The table keeps the outcome of the last check of each function and pattern, and of the main body.
Such an outcome is the types of the slots, the type that was yielded and the scope.  Work on the
open scopes leaves all of them alone.
-/

namespace CallSite

structure Record where
  slots : List Slot
  result : Ty
  scope : Option Scope

namespace Record

/-- Write the outcome of a check, apart from its scope. -/
def fill (record : Record) (types : List Ty) (result : Ty) : Record :=
  { record with slots := Slot.fill record.slots types, result := result }

def keep (record : Record) (scope : Option Scope) : Record := { record with scope := scope }

@[simp]
theorem keep_keep (record : Record) (first second : Option Scope) :
    (record.keep first).keep second = record.keep second := rfl

theorem fill_keep (record : Record) (types : List Ty) (result : Ty) (scope : Option Scope) :
    (record.keep scope).fill types result = (record.fill types result).keep scope := rfl

end Record

namespace SymbolTable

/-- What is kept for a function, a pattern or the main body.  The main body has no slots. -/
def record? (table : SymbolTable) : Owner → Option Record
  | .main => some ⟨[], .noValue, table.mainScope⟩
  | .function name =>
    (table.function? name).map fun entry => ⟨entry.params, entry.returns, entry.scope⟩
  | .pattern name =>
    (table.pattern? name).map fun entry => ⟨[entry.target], entry.value, entry.scope⟩

/-- Changing the entries of one name, and not their names, is seen by a search for that name. -/
theorem find?_map_change {α : Type} (nameOf : α → String) (entries : List α) (name other : String)
    (change : α → α) (named : ∀ entry, nameOf (change entry) = nameOf entry) :
    (entries.map fun entry => if nameOf entry == name then change entry else entry).find?
        (nameOf · == other) =
      if other = name then (entries.find? (nameOf · == other)).map change
      else entries.find? (nameOf · == other) := by
  induction entries with
  | nil => simp
  | cons entry entries ih =>
    have kept : nameOf (if nameOf entry == name then change entry else entry) = nameOf entry := by
      split
      · exact named entry
      · rfl
    rw [List.map_cons, List.find?_cons, List.find?_cons, kept, ih]
    by_cases here : nameOf entry = other
    · by_cases same : other = name <;> simp [here, same]
    · have differs : (nameOf entry == other) = false := by simp [here]
      rw [differs]

theorem function?_updateFunction (table : SymbolTable) (name other : String)
    (change : FunctionEntry → FunctionEntry)
    (named : ∀ entry, (change entry).name = entry.name) :
    (table.updateFunction name change).function? other =
      if other = name then (table.function? other).map change else table.function? other :=
  find?_map_change FunctionEntry.name table.functions name other change named

theorem pattern?_updatePattern (table : SymbolTable) (name other : String)
    (change : PatternEntry → PatternEntry)
    (named : ∀ entry, (change entry).name = entry.name) :
    (table.updatePattern name change).pattern? other =
      if other = name then (table.pattern? other).map change else table.pattern? other :=
  find?_map_change PatternEntry.name table.patterns name other change named

theorem record?_recordFunction (table : SymbolTable) (name : String) (types : List Ty)
    (returns : Ty) (scope : Option Scope) (owner : Owner) :
    (table.updateFunction name (·.record types returns scope)).record? owner =
      if owner = .function name then
        (table.record? owner).map fun record => (record.fill types returns).keep scope
      else table.record? owner := by
  cases owner with
  | main => rfl
  | pattern other => rfl
  | function other =>
    rw [record?, table.function?_updateFunction name other (·.record types returns scope)
      fun _ => rfl, record?]
    by_cases same : other = name
    · simp [same, Option.map_map, Function.comp_def, FunctionEntry.record, Record.fill,
        Record.keep]
    · simp [same]

theorem record?_recordPattern (table : SymbolTable) (name : String) (type value : Ty)
    (scope : Option Scope) (owner : Owner) :
    (table.updatePattern name (·.record type value scope)).record? owner =
      if owner = .pattern name then
        (table.record? owner).map fun record => (record.fill [type] value).keep scope
      else table.record? owner := by
  cases owner with
  | main => rfl
  | function other => rfl
  | pattern other =>
    rw [record?, table.pattern?_updatePattern name other (·.record type value scope)
      fun _ => rfl, record?]
    by_cases same : other = name
    · simp [same, Option.map_map, Function.comp_def, PatternEntry.record, Record.fill,
        Record.keep, Slot.fill]
    · simp [same]

theorem record?_recordMain (table : SymbolTable) (scope : Option Scope) (owner : Owner) :
    ({ table with mainScope := scope } : SymbolTable).record? owner =
      if owner = .main then
        (table.record? owner).map fun record => (record.fill [] .noValue).keep scope
      else table.record? owner := by
  cases owner with
  | main => rfl
  | function other => rfl
  | pattern other => rfl

theorem map_declaration_function? (table : SymbolTable) (name : String) :
    (table.function? name).map (·.declaration) =
      (table.functions.map (·.declaration)).find? (·.name.name == name) := by
  rw [List.find?_map]
  rfl

theorem map_declaration_pattern? (table : SymbolTable) (name : String) :
    (table.pattern? name).map (·.declaration) =
      (table.patterns.map (·.declaration)).find? (·.name.name == name) := by
  rw [List.find?_map]
  rfl

theorem declarations_recordFunction (table : SymbolTable) (name : String) (types : List Ty)
    (returns : Ty) (scope : Option Scope) :
    (table.updateFunction name (·.record types returns scope)).functions.map (·.declaration) =
      table.functions.map (·.declaration) := by
  rw [updateFunction, List.map_map]
  refine List.map_congr_left fun entry _ => ?_
  rw [Function.comp_apply]
  split <;> rfl

theorem declarations_recordPattern (table : SymbolTable) (name : String) (type value : Ty)
    (scope : Option Scope) :
    (table.updatePattern name (·.record type value scope)).patterns.map (·.declaration) =
      table.patterns.map (·.declaration) := by
  rw [updatePattern, List.map_map]
  refine List.map_congr_left fun entry _ => ?_
  rw [Function.comp_apply]
  split <;> rfl

/-- Two tables with the same declarations and the same outcomes of their checks. -/
structure SameGlobals (table other : SymbolTable) : Prop where
  functions : other.functions = table.functions
  patterns : other.patterns = table.patterns
  mainScope : other.mainScope = table.mainScope

theorem SameGlobals.record? {table other : SymbolTable} (same : table.SameGlobals other)
    (owner : Owner) : other.record? owner = table.record? owner := by
  cases owner with
  | main => rw [SymbolTable.record?, SymbolTable.record?, same.mainScope]
  | function name =>
    rw [SymbolTable.record?, SymbolTable.record?, function?, same.functions, function?]
  | pattern name =>
    rw [SymbolTable.record?, SymbolTable.record?, pattern?, same.patterns, pattern?]

end SymbolTable

namespace Environment

theorem sameGlobals_extend (env : Environment) (name : String) (type : Ty) :
    env.table.SameGlobals (env.extend name type).table := by
  unfold extend
  split <;> exact ⟨rfl, rfl, rfl⟩

theorem sameGlobals_declared (env : Environment) (name : String) (type : Ty) :
    env.table.SameGlobals (env.declared name type).table := by
  unfold declared
  split
  · exact ⟨rfl, rfl, rfl⟩
  · exact env.sameGlobals_extend name type

theorem sameGlobals_assigned (env : Environment) (name : String) (type : Ty) :
    env.table.SameGlobals (env.assigned name type).table := by
  unfold assigned
  split
  · exact ⟨rfl, rfl, rfl⟩
  · exact env.sameGlobals_declared name type

theorem sameGlobals_rebind (env : Environment) (name : String) (type : Ty) :
    env.table.SameGlobals (env.rebind name type).table := by
  unfold rebind
  split
  · exact env.sameGlobals_extend name type
  · split <;> exact ⟨rfl, rfl, rfl⟩

end Environment

end CallSite
