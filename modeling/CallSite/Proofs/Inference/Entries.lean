import CallSite.Inference.Simulation
import CallSite.Inference.State

/-!
# Inference does not read entries

What a function or a pattern is comes from the context.  The entries in the table are only written:
inference does the same whatever they hold and in whatever order they stand, and changes each of
them without looking at the others.
-/

namespace CallSite

/-! ## Tables with other entries -/

/-- The table with these entries in place of its own. -/
def SymbolTable.withEntries (table : SymbolTable) (functions : List FunctionEntry)
    (patterns : List PatternEntry) : SymbolTable :=
  { table with functions := functions, patterns := patterns }

namespace Environment

def withEntries (env : Environment) (functions : List FunctionEntry)
    (patterns : List PatternEntry) : Environment :=
  { env with table := env.table.withEntries functions patterns }

variable (env : Environment) (functions : List FunctionEntry) (patterns : List PatternEntry)
variable (name : String) (type : Ty)

theorem extend_withEntries :
    (env.withEntries functions patterns).extend name type =
      (env.extend name type).withEntries functions patterns := by
  obtain ⟨⟨_, _, _, scopes, _⟩, store⟩ := env
  cases scopes <;> rfl

theorem declared_withEntries :
    (env.withEntries functions patterns).declared name type =
      (env.declared name type).withEntries functions patterns := by
  have refusal : (env.withEntries functions patterns).refusal? name = env.refusal? name := rfl
  rw [declared, declared, refusal]
  split
  · rfl
  · exact env.extend_withEntries functions patterns name type

theorem assigned_withEntries :
    (env.withEntries functions patterns).assigned name type =
      (env.assigned name type).withEntries functions patterns := by
  have located : (env.withEntries functions patterns).table.locate? name =
      env.table.locate? name := rfl
  rw [assigned, assigned, located]
  split
  · rfl
  · exact env.declared_withEntries functions patterns name type

theorem rebind_withEntries :
    (env.withEntries functions patterns).rebind name type =
      (env.rebind name type).withEntries functions patterns := by
  have refusal : (env.withEntries functions patterns).refusal? name = env.refusal? name := rfl
  have located : (env.withEntries functions patterns).table.locate? name =
      env.table.locate? name := rfl
  rw [rebind, rebind, refusal, located]
  split
  · exact env.extend_withEntries functions patterns name type
  · split <;> rfl

end Environment

namespace Inference

def State.withEntries (state : State) (functions : List FunctionEntry)
    (patterns : List PatternEntry) : State :=
  { state with env := state.env.withEntries functions patterns }

/-- A change of entries, one by one, that leaves their names. -/
structure EntryChange where
  function : FunctionEntry → FunctionEntry
  pattern : PatternEntry → PatternEntry
  name_function : ∀ entry, (function entry).name = entry.name
  name_pattern : ∀ entry, (pattern entry).name = entry.name

namespace EntryChange

def none : EntryChange := ⟨id, id, fun _ => rfl, fun _ => rfl⟩

def after (later earlier : EntryChange) : EntryChange where
  function := later.function ∘ earlier.function
  pattern := later.pattern ∘ earlier.pattern
  name_function entry := (later.name_function _).trans (earlier.name_function entry)
  name_pattern entry := (later.name_pattern _).trans (earlier.name_pattern entry)

/-- Change the entries of one function. -/
def ofFunction (name : String) (change : FunctionEntry → FunctionEntry)
    (kept : ∀ entry, (change entry).name = entry.name) : EntryChange where
  function entry := if entry.name == name then change entry else entry
  pattern := id
  name_function entry := by
    split
    · exact kept entry
    · rfl
  name_pattern _ := rfl

/-- Change the entries of one pattern. -/
def ofPattern (name : String) (change : PatternEntry → PatternEntry)
    (kept : ∀ entry, (change entry).name = entry.name) : EntryChange where
  function := id
  pattern entry := if entry.name == name then change entry else entry
  name_function _ := rfl
  name_pattern entry := by
    split
    · exact kept entry
    · rfl

end EntryChange

/-- The action does the same whatever the entries are, and changes them one by one. -/
def Heedless {α : Type} (action : CheckM α) : Prop :=
  ∀ state : State, ∃ (value : α) (after : State) (change : EntryChange),
    ∀ functions patterns, action.run (state.withEntries functions patterns) =
      (value, after.withEntries (functions.map change.function) (patterns.map change.pattern))

namespace Heedless

variable {α β : Type}

/-- An action that leaves the entries alone. -/
theorem change {action : CheckM α}
    (apart : ∀ state functions patterns, action.run (state.withEntries functions patterns) =
      ((action.run state).1, (action.run state).2.withEntries functions patterns)) :
    Heedless action := by
  intro state
  refine ⟨(action.run state).1, (action.run state).2, .none, fun functions patterns => ?_⟩
  rw [apart, EntryChange.none, List.map_id, List.map_id]

theorem pure (value : α) : Heedless (Pure.pure value) := change fun _ _ _ => rfl

theorem bind {action : CheckM α} {next : α → CheckM β} (first : Heedless action)
    (second : ∀ value, Heedless (next value)) : Heedless (action >>= next) := by
  intro state
  obtain ⟨value, between, early, ran⟩ := first state
  obtain ⟨result, after, late, ranNext⟩ := second value between
  refine ⟨result, after, late.after early, fun functions patterns => ?_⟩
  let entered := action.run (state.withEntries functions patterns)
  have ranFirst : entered = _ := ran functions patterns
  change (next entered.1).run entered.2 = _
  rw [ranFirst, ranNext, EntryChange.after, List.map_map, List.map_map]

/-- An update of the scopes and the store. -/
theorem update (change : Environment → Environment)
    (apart : ∀ env functions patterns, change (env.withEntries functions patterns) =
      (change env).withEntries functions patterns) :
    Heedless (modify fun state => { state with env := change state.env } : CheckM Unit) :=
  Heedless.change fun state functions patterns =>
    congrArg (fun env => ((), ({ state with env := env } : State)))
      (apart state.env functions patterns)

theorem inScope (kind : ScopeKind) {action : CheckM α} (inner : Heedless action) :
    Heedless (CheckM.inScope kind action) :=
  bind (change fun _ _ _ => rfl) fun _ => inner.bind fun result =>
    bind (change fun _ _ _ => rfl) fun scope => pure (result, scope)

theorem recordCall (function : String) (types : List Ty) (returns : Ty) (scope : Option Scope) :
    Heedless (modify (·.recordCall function types returns scope) : CheckM Unit) := by
  intro state
  let change := EntryChange.ofFunction function (·.record types returns scope) fun _ => rfl
  refine ⟨(), state, change, fun functions patterns => ?_⟩
  have untouched : patterns.map change.pattern = patterns := List.map_id patterns
  rw [untouched]
  rfl

theorem recordMatch (pattern : String) (type value : Ty) (scope : Option Scope) :
    Heedless (modify (·.recordMatch pattern type value scope) : CheckM Unit) := by
  intro state
  let change := EntryChange.ofPattern pattern (·.record type value scope) fun _ => rfl
  refine ⟨(), state, change, fun functions patterns => ?_⟩
  have untouched : functions.map change.function = functions := List.map_id functions
  rw [untouched]
  rfl

end Heedless

/-- Inference does the same whatever the entries are. -/
def heedless : Simulation CheckM CheckM where
  rel left _ := Heedless left
  rel_pure := .pure
  rel_bind first second := first.bind second
  rel_report _ _ _ := .change fun _ _ _ => rfl
  rel_typeOf _ := .change fun _ _ _ => rfl
  rel_declare name type := .update (·.declared name type) fun env functions patterns =>
    env.declared_withEntries functions patterns name type
  rel_assign name type := .update (·.assigned name type) fun env functions patterns =>
    env.assigned_withEntries functions patterns name type
  rel_rebind name type := .update (·.rebind name type) fun env functions patterns =>
    env.rebind_withEntries functions patterns name type
  rel_inBranch inner := (Heedless.inScope .branch inner).bind fun result => .pure result.1
  rel_inCall function _ _ inner := .bind (.change fun _ _ _ => rfl) fun _ =>
    (Heedless.inScope .body inner).bind fun ((types, returns), scope) =>
      .bind (.recordCall function types returns scope) fun _ => .pure returns
  rel_inMatch pattern type _ _ inner := .bind (.change fun _ _ _ => rfl) fun _ =>
    (Heedless.inScope .body inner).bind fun (value, scope) =>
      .bind (.recordMatch pattern type value scope) fun _ => .pure value
  rel_inMain inner := (Heedless.inScope .body inner).bind fun _ => .change fun _ _ _ => rfl

theorem heedless_checkMain (context : Context) (body : List Stmt) :
    Heedless (checkMain context (infer context []) body : CheckM Unit) :=
  heedless.rel_checkMain context (heedless.rel_infer context []) body

/-! ## Entries by name -/

/-- Two states with the same entries by name, whatever the order of these, and with the same
variables, visited names and reports. -/
structure SameByName (one other : State) : Prop where
  store : one.env.store = other.env.store
  mainScope : one.env.table.mainScope = other.env.table.mainScope
  visited : one.visited = other.visited
  sink : one.sink = other.sink
  function? : ∀ name, one.env.table.function? name = other.env.table.function? name
  pattern? : ∀ name, one.env.table.pattern? name = other.env.table.pattern? name

theorem find?_map_of_names {α : Type} {nameOf : α → String} {change : α → α}
    (kept : ∀ entry, nameOf (change entry) = nameOf entry) (entries : List α) (name : String) :
    (entries.map change).find? (nameOf · == name) =
      (entries.find? (nameOf · == name)).map change := by
  have named : (nameOf · == name) ∘ change = (nameOf · == name) := by
    funext entry
    exact congrArg (· == name) (kept entry)
  rw [List.find?_map, named]

/-- Two runs of such an action on tables that have the same entries by name. -/
theorem Heedless.same {action : CheckM Unit} (heedless : Heedless action) (state : State)
    {functions others : List FunctionEntry} {patterns otherPatterns : List PatternEntry}
    (sameFunctions : ∀ name, functions.find? (·.name == name) = others.find? (·.name == name))
    (samePatterns : ∀ name, patterns.find? (·.name == name) =
      otherPatterns.find? (·.name == name)) :
    SameByName (action.run (state.withEntries functions patterns)).2
      (action.run (state.withEntries others otherPatterns)).2 := by
  obtain ⟨value, after, change, ran⟩ := heedless state
  rw [ran, ran]
  refine ⟨rfl, rfl, rfl, rfl, fun name => ?_, fun name => ?_⟩
  · change (functions.map _).find? _ = (others.map _).find? _
    rw [find?_map_of_names change.name_function, find?_map_of_names change.name_function,
      sameFunctions]
  · change (patterns.map _).find? _ = (otherPatterns.map _).find? _
    rw [find?_map_of_names change.name_pattern, find?_map_of_names change.name_pattern,
      samePatterns]

end Inference

end CallSite
