import CallSite.Analysis

/-!
# Asking for types after an analysis

A query replays one analysed body: whoever asks walks the body in order, records the statements that
bind variables and enters and leaves branches.  Each answer reflects the variables recorded so far.
Nothing is reported, and the analysis stays as it was.
-/

namespace CallSite

open Inference

/-- The body that a query replays. -/
inductive Owner where
  | main
  | function (name : String)
  | pattern (name : String)
deriving DecidableEq, Repr

namespace Owner

/-- What the owner's scope starts with: its parameters or its target, as last checked. -/
def slots (owner : Owner) (table : SymbolTable) : List Slot :=
  match owner with
  | main => []
  | function name => ((table.function? name).map (·.params)).getD []
  | pattern name => ((table.pattern? name).map fun entry => [entry.target]).getD []

end Owner

structure Query where
  env : Environment
  cycles : List (List String)
  infersCyclic : Bool

namespace Query

/-- Begin a query in a body scope that holds the owner's slots. -/
def start (analysis : Analysis) (owner : Owner) (config : Config) : Query where
  env := (owner.slots analysis.env.table).foldl
    (fun env slot => env.declared slot.name slot.type) analysis.env.openBody
  cycles := analysis.cycles
  infersCyclic := config.infersCyclic

/-- Run one task of inference on the query's variables, without reports. -/
def perform {α : Type} (query : Query)
    (task : Context → (Invocation → CheckM Ty) → CheckM α) : α × Query :=
  let checker : Checker :=
    { state := { env := query.env, sink := .silent }, infersCyclic := query.infersCyclic }
  let result := (checker.block query.cycles).perform task
  (result.1, { query with env := result.2.state.env })

/-- The type of an expression where the replay stands. -/
def typeOf (query : Query) (expression : Expr) : Ty × Query :=
  query.perform fun context enter => checkExpr context enter expression

/-- Replay the bindings that a statement makes in the current scope. -/
def record (query : Query) (statement : Stmt) : Query :=
  match statement with
  | .assign _ _ _ _ _ | .push _ _ _ =>
    (query.perform fun context enter => checkStmt context enter statement).2
  | .forEach position iterator range _ =>
    (query.perform fun context enter => do
      let type ← checkRange context enter position range
      rebind iterator type).2
  | _ => query

/-- Enter a branch of the replayed body. -/
def enterBranch (query : Query) : Query := { query with env := query.env.openBranch }

/-- Leave the innermost branch.  The owner's own scope stays open. -/
def exitBranch (query : Query) : Query :=
  if 1 < query.env.table.depth then { query with env := query.env.close } else query

end Query

end CallSite
