import CallSite.Diagnostic.Sink
import CallSite.Proofs.CallGraph.Building

/-!
# What a sink records

The reports that a sink holds, after some were made, as a function of those reports: a plain sink
holds them all, and one that deduplicates holds the first of each.
-/

namespace CallSite.Sink

/-! ## Growth -/

theorem recorded_prefix_report (sink : Sink) (report : Diagnostic) :
    sink.recorded <+: (sink.report report).recorded := by
  unfold Sink.report
  split
  · exact List.prefix_rfl
  · exact List.prefix_append _ _

theorem recorded_prefix_reportAll (sink : Sink) (reports : List Diagnostic) :
    sink.recorded <+: (sink.reportAll reports).recorded := by
  induction reports generalizing sink with
  | nil => exact List.prefix_rfl
  | cons first rest ih => exact (sink.recorded_prefix_report first).trans (ih _)

theorem mem_recorded_report_self {sink : Sink} (open_ : sink.muted = false)
    (diagnostic : Diagnostic) : diagnostic ∈ (sink.report diagnostic).recorded := by
  unfold report
  split
  · next dropped =>
    rw [drops, open_, Bool.false_or, Bool.and_eq_true] at dropped
    exact List.contains_iff_mem.mp dropped.2
  · exact List.mem_append_right _ List.mem_cons_self

theorem muted_report (sink : Sink) (diagnostic : Diagnostic) :
    (sink.report diagnostic).muted = sink.muted := by
  unfold report
  split <;> rfl

/-- A sink that is not muted records every diagnostic that is reported, at least once. -/
theorem mem_recorded_reportAll {sink : Sink} (open_ : sink.muted = false)
    {reports : List Diagnostic} {diagnostic : Diagnostic}
    (member : diagnostic ∈ sink.recorded ∨ diagnostic ∈ reports) :
    diagnostic ∈ (sink.reportAll reports).recorded := by
  induction reports generalizing sink with
  | nil => exact member.resolve_right List.not_mem_nil
  | cons first rest ih =>
    refine ih ((sink.muted_report first).trans open_) ?_
    rcases member with old | new
    · exact .inl ((sink.recorded_prefix_report first).subset old)
    rcases List.mem_cons.mp new with rfl | later
    · exact .inl (mem_recorded_report_self open_ diagnostic)
    · exact .inr later

theorem eq_nil_of_recorded_reportAll {sink : Sink} (open_ : sink.muted = false)
    {reports : List Diagnostic} (nothing : (sink.reportAll reports).recorded = []) :
    reports = [] := by
  refine List.eq_nil_iff_forall_not_mem.mpr fun diagnostic member => ?_
  have recorded := mem_recorded_reportAll open_ (.inr member)
  exact absurd (nothing ▸ recorded) List.not_mem_nil

/-! ## Parts of the reports -/

/-- The sink as if only certain reports had been made. -/
def filter (sink : Sink) (keeps : Diagnostic → Bool) : Sink :=
  { sink with recorded := sink.recorded.filter keeps }

theorem filter_report (sink : Sink) (keeps : Diagnostic → Bool) (report : Diagnostic) :
    (sink.report report).filter keeps =
      if keeps report then (sink.filter keeps).report report else sink.filter keeps := by
  unfold Sink.report drops filter
  by_cases kept : keeps report = true
  · rw [if_pos kept]
    simp only [List.contains_eq_mem, List.mem_filter, kept, and_true]
    split <;> simp [List.filter_append, kept]
  · rw [if_neg kept]
    split <;> simp [List.filter_append, kept]

/-- Which reports of one kind are recorded does not depend on the other reports. -/
theorem filter_reportAll (sink : Sink) (keeps : Diagnostic → Bool)
    (reports : List Diagnostic) :
    (sink.reportAll reports).filter keeps =
      (sink.filter keeps).reportAll (reports.filter keeps) := by
  induction reports generalizing sink with
  | nil => rfl
  | cons first rest ih =>
    change ((sink.report first).reportAll rest).filter keeps = _
    rw [ih, filter_report, List.filter_cons]
    split <;> rfl

/-- In a sink that was empty stand, of one kind, the reports of that kind alone. -/
theorem recorded_reportAll_filter {sink : Sink} (fresh : sink.recorded = [])
    (keeps : Diagnostic → Bool) (reports : List Diagnostic) :
    (sink.reportAll reports).recorded.filter keeps =
      (sink.reportAll (reports.filter keeps)).recorded := by
  have empty : sink.filter keeps = sink := by
    rw [filter, fresh]
    exact congrArg (fun recorded => { sink with recorded := recorded }) fresh.symm
  have filtered := congrArg recorded (sink.filter_reportAll keeps reports)
  rwa [empty] at filtered

/-! ## The two kinds of sinks that record -/

theorem reportAll_plain (reports : List Diagnostic) :
    plain.reportAll reports = { recorded := reports } := by
  induction reports using List.reverseRecOn with
  | nil => rfl
  | append_singleton reports last ih =>
    rw [reportAll_append, ih]
    rfl

/-- The first of equal reports is recorded and the later ones are dropped. -/
theorem reportAll_distinct (reports : List Diagnostic) :
    distinct.reportAll reports = { recorded := reports.eraseDups, deduplicates := true } := by
  induction reports using List.reverseRecOn with
  | nil => rfl
  | append_singleton reports last ih =>
    rw [reportAll_append, ih, CallGraph.eraseDups_concat]
    change Sink.report _ last = _
    rw [report, drops]
    by_cases known : last ∈ reports.eraseDups
    · simp [known]
    · simp [known]

/-! ## Sequences of reports -/

/-- What a recording sink holds of some reports. -/
theorem recorded_recording (deduplicates : Bool) (reports : List Diagnostic) :
    ((recording deduplicates).reportAll reports).recorded =
      if deduplicates then reports.eraseDups else reports := by
  cases deduplicates with
  | false => exact congrArg recorded (reportAll_plain reports)
  | true => exact congrArg recorded (reportAll_distinct reports)

theorem mem_recorded_recording_iff (deduplicates : Bool) (reports : List Diagnostic)
    (report : Diagnostic) :
    report ∈ ((recording deduplicates).reportAll reports).recorded ↔ report ∈ reports := by
  rw [recorded_recording]
  split
  · exact List.mem_eraseDups
  · exact Iff.rfl

theorem recorded_of_nodup (deduplicates : Bool) {reports : List Diagnostic}
    (distinct : reports.Nodup) :
    ((recording deduplicates).reportAll reports).recorded = reports := by
  rw [recorded_recording]
  split
  · exact CallGraph.eraseDups_of_nodup distinct
  · rfl

/-- Reports that were not made before are recorded as if nothing had been. -/
theorem recorded_append (deduplicates : Bool) {first second : List Diagnostic}
    (apart : ∀ report ∈ second, report ∉ first) :
    ((recording deduplicates).reportAll (first ++ second)).recorded =
      ((recording deduplicates).reportAll first).recorded ++
        ((recording deduplicates).reportAll second).recorded := by
  have kept : second.removeAll first = second := by
    rw [List.removeAll, List.filter_eq_self]
    intro report member
    simp [apart report member]
  simp only [recorded_recording]
  split
  · rw [List.eraseDups_append, kept]
  · rfl

end CallSite.Sink
