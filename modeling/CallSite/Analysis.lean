import CallSite.CallGraph
import CallSite.Inference.Call
import CallSite.Inference.State
import CallSite.Resolution.Program

/-!
# Analysing a program

Names are resolved first, then the call graph is searched for cycles, and then types are inferred
from the main body.  The three passes report to one sink.  A checker carries the state of inference
from one task to the next, together with the names that are not to be entered; every task starts
with no declaration being checked.
-/

namespace CallSite

open Inference

structure Checker where
  state : State
  blocked : List String := []
  infersCyclic : Bool := false

namespace Checker

def context (checker : Checker) : Context :=
  .ofTable checker.state.env.table checker.blocked checker.infersCyclic

/-- Refuse to enter the functions of the given cycles. -/
def block (checker : Checker) (cycles : List (List String)) : Checker :=
  { checker with blocked := checker.blocked ++ cycles.flatten }

/-- Run one task of inference. -/
def perform {α : Type} (checker : Checker)
    (task : Context → (Invocation → CheckM Ty) → CheckM α) : α × Checker :=
  let context := checker.context
  let result := (task context (infer context [])).run checker.state
  (result.1, { checker with state := result.2 })

/-- Register the declarations of a program. -/
def register (checker : Checker) (program : Program) : Checker :=
  let table := checker.state.env.table
  { checker with
    state.env.table := (table.declareFunctions program.functions).declarePatterns
      program.patterns }

/-- Register the declarations of a program and check its main body.  A function or a pattern is
checked only where a call or a match leads to it. -/
def checkProgram (checker : Checker) (program : Program) : Checker :=
  ((checker.register program).perform fun context enter =>
    checkMain context enter program.main.body).2

end Checker

/-! ## The passes -/

structure Config where
  checksDependencies : Bool := true
  deduplicates : Bool := true
  infersCyclic : Bool := false
deriving DecidableEq, Repr

structure Analysis where
  /-- The program with its duplicates renamed. -/
  program : Program
  /-- The entries of all declarations, with the types of their last check. -/
  env : Environment
  diagnostics : List Diagnostic
  /-- The cycles of the call graph. -/
  cycles : List (List String)
  /-- The declarations that inference reached. -/
  visited : NameSet

namespace Analysis

def hasErrors (analysis : Analysis) : Bool := !analysis.diagnostics.isEmpty

/-- The diagnostics whose problem has that name. -/
def diagnosticsNamed (analysis : Analysis) (name : String) : List Diagnostic :=
  analysis.diagnostics.filter (·.problem.name == name)

end Analysis

namespace Program

/-- The cycles that an analysis takes into account. -/
def cyclesUnder (program : Program) (config : Config) : List (List String) :=
  if config.checksDependencies then (CallGraph.ofProgram program).cycles else []

/-- Infer the types of a resolved program, refusing to enter the functions on its cycles. -/
def inferTypes (program : Program) (config : Config) (cycles : List (List String))
    (sink : Sink) : Checker :=
  let checker : Checker := { state := { sink := sink }, infersCyclic := config.infersCyclic }
  (checker.block cycles).checkProgram program

def analyze (program : Program) (config : Config) : Analysis :=
  let resolved := program.resolve (.recording config.deduplicates)
  let cycles := resolved.1.cyclesUnder config
  let sink := resolved.1.reportCycles cycles resolved.2
  let checker := resolved.1.inferTypes config cycles sink
  { program := resolved.1
    env := checker.state.env
    diagnostics := checker.state.sink.recorded
    cycles := cycles
    visited := checker.state.visited }

end Program

end CallSite
