import CallSite.Diagnostic.Problem
import CallSite.Syntax.Basic

/-!
# Diagnostics and where they go

A diagnostic is a problem at a position.  A sink records diagnostics in the order they are reported;
it may drop one that it already holds, and a muted sink drops them all.
-/

namespace CallSite

structure Diagnostic where
  problem : Problem
  position : Position
deriving DecidableEq, Repr

namespace Diagnostic

def category (diagnostic : Diagnostic) : Category := diagnostic.problem.category

def text (diagnostic : Diagnostic) : String :=
  "Line:" ++ toString diagnostic.position.line ++ "-> " ++ diagnostic.problem.text

end Diagnostic

structure Sink where
  recorded : List Diagnostic := []
  deduplicates : Bool := false
  muted : Bool := false
deriving DecidableEq, Repr

namespace Sink

/-- A sink that records every report. -/
def plain : Sink := {}

/-- A sink that records a diagnostic once. -/
def distinct : Sink := { deduplicates := true }

/-- A recording sink, of either kind. -/
def recording (deduplicates : Bool) : Sink := { deduplicates := deduplicates }

/-- A sink that records nothing. -/
def silent : Sink := { deduplicates := true, muted := true }

/-- The report has no effect on this sink. -/
def drops (sink : Sink) (diagnostic : Diagnostic) : Bool :=
  sink.muted || sink.deduplicates && sink.recorded.contains diagnostic

def report (sink : Sink) (diagnostic : Diagnostic) : Sink :=
  if sink.drops diagnostic then sink
  else { sink with recorded := sink.recorded ++ [diagnostic] }

def reportAll (sink : Sink) (diagnostics : List Diagnostic) : Sink :=
  diagnostics.foldl report sink

@[simp]
theorem reportAll_append (sink : Sink) (first second : List Diagnostic) :
    sink.reportAll (first ++ second) = (sink.reportAll first).reportAll second :=
  List.foldl_append

theorem report_plain (sink : Sink) (diagnostic : Diagnostic)
    (everything : sink.deduplicates = false) (open_ : sink.muted = false) :
    (sink.report diagnostic).recorded = sink.recorded ++ [diagnostic] := by
  simp [report, drops, everything, open_]

theorem report_silent (sink : Sink) (diagnostic : Diagnostic) (muted : sink.muted = true) :
    sink.report diagnostic = sink := by
  simp [report, drops, muted]

end Sink

end CallSite
