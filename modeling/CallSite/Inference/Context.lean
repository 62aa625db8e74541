import CallSite.SymbolTable.Basic

/-!
# The context of inference

What stays fixed while a program is checked: the declarations, and the functions that lie on a call
cycle and are not to be entered.
-/

namespace CallSite.Inference

structure Context where
  functions : List Function
  patterns : List Pattern
  blocked : List String
  infersCyclic : Bool

namespace Context

/-- The declarations that a symbol table holds. -/
def ofTable (table : SymbolTable) (blocked : List String) (infersCyclic : Bool) : Context where
  functions := table.functions.map (·.declaration)
  patterns := table.patterns.map (·.declaration)
  blocked := blocked
  infersCyclic := infersCyclic

def function? (context : Context) (name : String) : Option Function :=
  context.functions.find? (·.name.name == name)

def pattern? (context : Context) (name : String) : Option Pattern :=
  context.patterns.find? (·.name.name == name)

def hasFunction (context : Context) (name : String) : Bool := (context.function? name).isSome

/-- The names of all declarations. -/
def names (context : Context) : List String :=
  context.functions.map (·.name.name) ++ context.patterns.map (·.name.name)

/-- The names that are not being checked yet. -/
def unentered (context : Context) (active : List String) : List String :=
  context.names.filter fun name => !active.contains name

/-- A declaration is not entered while one of that name is being checked, nor when the name lies on
a call cycle, unless such functions are to be inferred as well. -/
def refuses (context : Context) (active : List String) (name : String) : Bool :=
  active.contains name || !context.infersCyclic && context.blocked.contains name

theorem refuses_of_mem (context : Context) {active : List String} {name : String}
    (entered : name ∈ active) : context.refuses active name = true := by
  simp [refuses, entered]

theorem not_mem_of_not_refuses {context : Context} {active : List String} {name : String}
    (admitted : context.refuses active name = false) : name ∉ active := by
  intro entered
  rw [context.refuses_of_mem entered] at admitted
  cases admitted

/-- A name that is not refused is not refused either where fewer names are being checked. -/
theorem not_refuses_of_fewer (context : Context) {active other : List String}
    (fewer : ∀ name ∈ other, name ∈ active) {name : String}
    (admitted : context.refuses active name = false) : context.refuses other name = false := by
  rw [refuses, Bool.or_eq_false_iff] at admitted ⊢
  refine ⟨?_, admitted.2⟩
  rw [Bool.eq_false_iff, ne_eq, List.contains_iff_mem] at admitted ⊢
  exact fun member => admitted.1 (fewer name member)

theorem name_of_function? {context : Context} {name : String} {function : Function}
    (found : context.function? name = some function) : function.name.name = name := by
  have named := List.find?_some found
  simpa using named

theorem name_of_pattern? {context : Context} {name : String} {pattern : Pattern}
    (found : context.pattern? name = some pattern) : pattern.name.name = name := by
  have named := List.find?_some found
  simpa using named

theorem mem_names_of_function? {context : Context} {name : String} {function : Function}
    (found : context.function? name = some function) : name ∈ context.names := by
  have member := List.mem_of_find?_eq_some found
  exact List.mem_append_left _ (List.mem_map.mpr ⟨function, member, name_of_function? found⟩)

theorem mem_names_of_pattern? {context : Context} {name : String} {pattern : Pattern}
    (found : context.pattern? name = some pattern) : name ∈ context.names := by
  have member := List.mem_of_find?_eq_some found
  exact List.mem_append_right _ (List.mem_map.mpr ⟨pattern, member, name_of_pattern? found⟩)

/-- Entering a declared name that was not being checked leaves fewer names to enter. -/
theorem length_unentered_cons_lt {context : Context} {active : List String} {name : String}
    (declared : name ∈ context.names) (free : name ∉ active) :
    (context.unentered (name :: active)).length < (context.unentered active).length := by
  have narrower : context.unentered (name :: active) =
      (context.unentered active).filter fun other => other != name := by
    simp only [unentered, List.filter_filter, List.contains_cons]
    congr 1
    funext other
    by_cases same : other = name <;> simp [same, bne]
  rw [narrower]
  refine List.length_filter_lt_length_iff_exists.mpr ⟨name, ?_, by simp⟩
  exact List.mem_filter.mpr ⟨declared, by simpa using free⟩

end Context

end CallSite.Inference
