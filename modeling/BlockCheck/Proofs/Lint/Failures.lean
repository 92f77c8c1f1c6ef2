import BlockCheck.Lint.Components
import BlockCheck.Lint.Documents

/-!
# The failures of a run

A failure is an error with the place that it was found at. A run is ok if and only if it has none.
-/

namespace BlockCheck

/-- The component is named by its source in a run over components, and by its identifier in a run
over documents. -/
structure Failure where
  document : String
  path : String
  component : String
  error : Issue

def Failure.inside (outer : String) (failure : Failure) : Failure :=
  { failure with path := chainPath outer failure.path }

/-! ## A run over documents -/

def Report.failures (report : Report) : List Failure :=
  report.errors.map (Failure.mk report.file report.path report.identifier)

theorem Report.failures_inside (outer : String) (report : Report) :
    (report.inside outer).failures = report.failures.map (Failure.inside outer) := by
  unfold failures
  rw [List.map_map]
  rfl

namespace Outcome

def failures (outcome : Outcome) : List Failure := outcome.reports.flatMap Report.failures

theorem failures_append (a b : Outcome) : (a ++ b).failures = a.failures ++ b.failures :=
  List.flatMap_append

theorem failures_concat (outcomes : List Outcome) :
    (concat outcomes).failures = outcomes.flatMap failures := by
  rw [failures, reports_concat, List.flatMap_assoc]
  rfl

theorem failures_inside (outer : String) (outcome : Outcome) :
    (outcome.inside outer).failures = outcome.failures.map (Failure.inside outer) := by
  simp only [failures, reports_inside, List.flatMap_map, List.map_flatMap, Report.failures_inside]

end Outcome

namespace DocumentLint

def failures (lint : DocumentLint) : List Failure := lint.reports.flatMap Report.failures

theorem ok_iff (lint : DocumentLint) : lint.ok = true ↔ lint.failures = [] := by
  simp [ok, failures, Report.failures, List.flatMap_eq_nil_iff]

end DocumentLint

/-! ## A run over components -/

namespace ComponentResult

def failures (c : ComponentResult) : List Failure :=
  (c.issues.filter Issue.isError).map (Failure.mk "" "" c.file) ++
    c.occurrences.flatMap fun o => o.errors.map (Failure.mk o.document o.path c.file)

theorem length_failures (c : ComponentResult) : c.failures.length = c.errorCount := by
  simp [failures, errorCount, errors, List.length_flatMap]

theorem failures_markUnused (identifiers : List String) (c : ComponentResult) :
    (Lint.markUnused identifiers c).failures = c.failures := by
  unfold Lint.markUnused
  split
  · simp [failures, Issue.isError, Issue.severity, Problem.severity]
  · rfl

end ComponentResult

namespace ComponentLint

def failures (lint : ComponentLint) : List Failure :=
  lint.components.flatMap ComponentResult.failures ++
    lint.documentErrors.map fun d => ⟨d.document, "", "", ⟨"", d.problem⟩⟩

theorem ok_iff (lint : ComponentLint) : lint.ok = true ↔ lint.failures = [] := by
  have hlength : lint.failures.length = lint.errorCount := by
    simp [failures, errorCount, List.length_flatMap, ComponentResult.length_failures,
      ComponentResult.errorCount]
  rw [ok, ← hlength, decide_eq_true_iff, List.length_eq_zero_iff]

end ComponentLint

end BlockCheck
