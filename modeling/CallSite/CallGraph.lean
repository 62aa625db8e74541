import CallSite.Diagnostic.Sink
import CallSite.Syntax.References

/-!
# Call graphs

Functions in the order they were added, each with the functions it refers to, in the order these
references were added and each once.  Every elementary cycle, self-references included, is listed
once and starts at the earliest added of its functions.  The call graph of a program has its
functions as nodes and their references as edges, as far as they lead to declared functions, and
every cycle of it is a problem.
-/

namespace CallSite

structure CallGraph where
  entries : List (String × List String) := []
deriving DecidableEq, Repr

namespace CallGraph

def empty : CallGraph := {}

def nodes (graph : CallGraph) : List String := graph.entries.map (·.1)

/-- What a function refers to; nothing for a function that was never added. -/
def callees (graph : CallGraph) (caller : String) : List String :=
  (graph.entries.lookup caller).getD []

def hasEdge (graph : CallGraph) (caller callee : String) : Bool :=
  (graph.callees caller).contains callee

def addNode (graph : CallGraph) (name : String) : CallGraph :=
  if graph.nodes.contains name then graph else ⟨graph.entries ++ [(name, [])]⟩

/-- Extend one list of callees by a name, unless it is already there. -/
def addCallee (callee : String) (callees : List String) : List String :=
  if callees.contains callee then callees else callees ++ [callee]

/-- Add both ends, the caller first, and then the reference between them. -/
def addEdge (graph : CallGraph) (caller callee : String) : CallGraph :=
  ⟨((graph.addNode caller).addNode callee).entries.map fun entry =>
    if entry.1 = caller then (entry.1, addCallee callee entry.2) else entry⟩

def addEdges (graph : CallGraph) (edges : List (String × String)) : CallGraph :=
  edges.foldl (fun graph edge => graph.addEdge edge.1 edge.2) graph

/-! ## Cycles

Starts are taken in the order of the nodes, and the references of each function in the order they
were added. -/

/-- Extend a path from `start` to `node` in every possible way, and list it each time it closes on
`start`.  Only the functions in `available` may still be put on the path. -/
def extend (graph : CallGraph) (start : String) (available path : List String)
    (node : String) : List (List String) :=
  (graph.callees node).flatMap fun callee =>
    if callee = start then [path]
    else if _usable : callee ∈ available then
      graph.extend start (available.erase callee) (path ++ [callee]) callee
    else []
termination_by available.length
decreasing_by
  rw [List.length_erase_of_mem _usable]
  have := List.length_pos_of_mem _usable
  omega

/-- The cycles that start at one of the given functions and use only functions after it. -/
def cyclesAmong (graph : CallGraph) : List String → List (List String)
  | [] => []
  | start :: later => graph.extend start later [start] start ++ graph.cyclesAmong later

def cycles (graph : CallGraph) : List (List String) :=
  graph.cyclesAmong graph.nodes

/-! ## The call graph of a program -/

/-- Add a function and its references to declared functions. -/
def addFunction (declared : List String) (graph : CallGraph) (function : Function) : CallGraph :=
  (function.references.filter declared.contains).foldl
    (fun graph callee => graph.addEdge function.name.name callee)
    (graph.addNode function.name.name)

def ofProgram (program : Program) : CallGraph :=
  program.functions.foldl (addFunction program.functionNames) empty

end CallGraph

namespace Program

/-- The position of the last declaration of a function name. -/
def declaredAt? (program : Program) (name : String) : Option Position :=
  (program.functions.reverse.find? (·.name.name == name)).map (·.position)

/-- A cycle is reported where its first function is declared. -/
def cycleDiagnostic (program : Program) (cycle : List String) : Diagnostic where
  problem := .recursion cycle
  position := (cycle.head?.bind program.declaredAt?).getD .null

/-- Report cycles of the program's call graph, each at its first function. -/
def reportCycles (program : Program) (cycles : List (List String)) (sink : Sink) : Sink :=
  sink.reportAll (cycles.map program.cycleDiagnostic)

end Program

end CallSite
