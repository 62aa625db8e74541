import CallSite.Inference.Simulation
import CallSite.Query
import CallSite.Syntax.Sameness
import CallSite.Proofs.Inference.Stack
import CallSite.Proofs.Scope.Frames
import CallSite.Proofs.Scope.Growth
import CallSite.Proofs.SymbolTable.Records
import CallSite.Proofs.Inference.Local
import CallSite.Proofs.Inference.Realization
import CallSite.Proofs.Inference.History
import CallSite.Proofs.Scope.OpenScopes
import CallSite.Proofs.Scope.Levels
import CallSite.Proofs.Inference.Expressions
import CallSite.Proofs.Inference.Framing
import CallSite.Proofs.Inference.OpenScopes
import CallSite.Proofs.CallGraph.Building
import CallSite.Proofs.CallGraph.Elementary
import CallSite.Proofs.Syntax.Parts
import CallSite.Proofs.CallGraph.Recursion
import CallSite.Proofs.Inference.Trace
import CallSite.Proofs.Inference.Pointers
import CallSite.Proofs.Scope.Contents
import CallSite.Proofs.Syntax.Visibility
import CallSite.Proofs.Inference.Licence
import CallSite.Proofs.Inference.Admission
import CallSite.Proofs.Inference.Grants
import CallSite.Proofs.CallGraph.Bound
import CallSite.Proofs.Resolution.Lexical
import CallSite.Proofs.Diagnostic.Recording
import CallSite.Proofs.Inference.Names
import CallSite.Proofs.Inference.Answers
import CallSite.Proofs.Query.Replay
import CallSite.Proofs.Resolution.Recovery
import CallSite.Proofs.Query.Independence
import CallSite.Proofs.Inference.Consistency
import CallSite.Proofs.Query.FunctionReplay
import CallSite.Proofs.Resolution.Relabelling
import CallSite.Proofs.Resolution.Scoping
import CallSite.Proofs.Inference.Sinks
import CallSite.Proofs.Inference.Completeness
import CallSite.Proofs.Inference.Reach
import CallSite.Proofs.Inference.Coverage
import CallSite.Proofs.Inference.Relabelling
import CallSite.Proofs.Inference.Homonyms
import CallSite.Proofs.Inference.Namespaces
import CallSite.Proofs.Ty.Order
import CallSite.Proofs.Analysis.Passes
import CallSite.Proofs.Analysis.CycleOptions
import CallSite.Proofs.Analysis.DeclarationOrder
import CallSite.Proofs.Ty.Unification
import CallSite.Proofs.Inference.Attempts
import CallSite.Proofs.Inference.Returns
import CallSite.Proofs.Inference.Compound
import CallSite.Proofs.Analysis.Defaults
import CallSite.Proofs.CallGraph.Occurrences
import CallSite.Proofs.CallGraph.CycleOrder
import CallSite.Proofs.CallGraph.StackSearch
import CallSite.Proofs.Syntax.Uses
import CallSite.Proofs.Inference.Guarded
import CallSite.Proofs.Scope.Named
import CallSite.Proofs.Ty.Pushing
import CallSite.Proofs.Inference.Pushes
import CallSite.Proofs.Scope.Inside
import CallSite.Proofs.Inference.ClosedLambda
import CallSite.Proofs.Analysis.Arity
import CallSite.Proofs.Scope.Brackets
import CallSite.Proofs.Scope.Identity
import CallSite.Proofs.Inference.Moments
