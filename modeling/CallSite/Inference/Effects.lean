import CallSite.Diagnostic.Sink
import CallSite.Ty.Basic

/-!
# The effects of inference

Inference looks up and binds variables, runs parts of a program in scopes of their own and reports
problems.  It is written against these operations alone, in any monad that has them.
-/

namespace CallSite.Inference

/-- A call of a function or a match with a pattern, by name and with the types supplied. -/
inductive Invocation where
  | call (function : String) (types : List Ty)
  | matching (pattern : String) (type : Ty)
deriving DecidableEq, Repr

namespace Invocation

def name : Invocation → String
  | call function _ => function
  | matching pattern _ => pattern

end Invocation

class MonadInfer (m : Type → Type) where
  report : Problem → Position → m Unit
  /-- The type of the visible variable of that name, unresolved when there is none. -/
  typeOf : String → m Ty
  /-- Declare a variable in the innermost scope; a second declaration there changes nothing. -/
  declare : String → Ty → m Unit
  /-- Give the visible variable a type, or declare it when none is visible. -/
  assign : String → Ty → m Unit
  /-- Declare a variable in the innermost scope; when it is already there, give it the type. -/
  rebind : String → Ty → m Unit
  /-- Run an action in a branch of its own. -/
  inBranch : {α : Type} → m α → m α
  /-- Run the check of a function in a body of its own.  The function's entry keeps the types of
  its parameters and of what it returns, together with its scope. -/
  inCall : String → m (List Ty × Ty) → m Ty
  /-- Run the check of a pattern, for a target of the given type, in a body of its own.  The
  pattern's entry keeps that type and the one it yields, together with its scope. -/
  inMatch : String → Ty → m Ty → m Ty
  /-- Run the check of the main body, and keep its scope. -/
  inMain : m Unit → m Unit

export MonadInfer (report typeOf declare assign rebind inBranch inCall inMatch inMain)

variable {m : Type → Type} [Monad m] [MonadInfer m]

/-- Report what a rule found, if anything. -/
def reportAny (position : Position) : Option Problem → m Unit
  | some problem => report problem position
  | none => pure ()

/-- The type a rule yields; where the rule finds a problem instead, report it and go on with an
unresolved type. -/
def settle (position : Position) : Except Problem Ty → m Ty
  | .ok type => pure type
  | .error problem => do
    report problem position
    pure .unresolved

/-- The reports of a rule that is settled at a position. -/
def reported (position : Position) : Except Problem Ty → List Diagnostic
  | .ok _ => []
  | .error problem => [⟨problem, position⟩]

end CallSite.Inference
