import BlockCheck.CommandLine.Summary
import BlockCheck.Proofs.Lint.Standings

/-!
# The failures on the screen

What failed can be read off the lines on the screen alone. A line that says so is followed by one line for
each error of a component, and by none if it is about a document.
-/

namespace BlockCheck.CommandLine

def isFailure (line : String) : Bool := Text.startsWith line "[FAILED] "

def isIssueLine (line : String) : Bool := Text.startsWith line "  - "

/-- For each line that says that something failed, the number of the issues right below it. -/
def shownFailures : List String → List Nat
  | [] => []
  | line :: rest =>
    if isFailure line then (rest.takeWhile isIssueLine).length :: shownFailures rest
    else shownFailures rest

/-- The first of the lines is no issue of what stands above it. -/
def StartsAnew (lines : List String) : Prop := ∀ line ∈ lines.head?, isIssueLine line = false

variable {lines issues rest : List String} {head : String} {c : ComponentResult} {verbose : Bool}

/-! ## Heads and what stands below them -/

theorem isFailure_of_isIssueLine {line : String} (h : isIssueLine line = true) :
    isFailure line = false := by
  rw [isIssueLine, Text.startsWith, List.isPrefixOf_iff_prefix] at h
  obtain ⟨after, hline⟩ := h
  rw [isFailure, Text.startsWith, ← hline]
  rfl

theorem shownFailures_append (h : ∀ line ∈ lines, isFailure line = false) :
    shownFailures (lines ++ rest) = shownFailures rest := by
  induction lines with
  | nil => rfl
  | cons line lines ih =>
    obtain ⟨hline, hlines⟩ := List.forall_mem_cons.1 h
    rw [List.cons_append, shownFailures, if_neg (by simp [hline]), ih hlines]

theorem shownFailures_block (head : String) (hissues : ∀ line ∈ issues, isIssueLine line = true)
    (hrest : StartsAnew rest) :
    shownFailures (head :: issues ++ rest) =
      (if isFailure head then [issues.length] else []) ++ shownFailures rest := by
  have hbelow : (issues ++ rest).takeWhile isIssueLine = issues := by
    rw [List.takeWhile_append_of_pos hissues]
    cases rest with
    | nil => simp
    | cons line rest => simp [hrest line rfl]
  rw [List.cons_append, shownFailures, hbelow,
    shownFailures_append fun line hline => isFailure_of_isIssueLine (hissues line hline)]
  split <;> rfl

theorem startsAnew_cons (h : isIssueLine head = false) : StartsAnew (head :: rest) := by
  rintro _ ⟨⟩
  exact h

/-! ## Components -/

theorem isIssueLine_of_mem_errorLines (o : OccurrenceResult) :
    ∀ line ∈ errorLines o, isIssueLine line = true := by
  simp [errorLines, isIssueLine, Text.startsWith]

theorem isIssueLine_of_mem_warningLines (o : OccurrenceResult) :
    ∀ line ∈ warningLines o, isIssueLine line = true := by
  simp [warningLines, isIssueLine, Text.startsWith]

theorem length_errorLines (hc : c.Consistent) :
    (c.occurrences.flatMap errorLines).length = c.errorCount := by
  rw [ComponentResult.errorCount, hc.errors_eq, List.length_flatMap, List.length_flatMap]
  simp [errorLines]

/-- The lines of a component are a head with issues below it, or there are none. The head says that the
component failed if it did, and then there are as many issues as errors. -/
theorem componentLines_cases (hc : c.Consistent) (verbose : Bool) :
    (∃ head issues, componentLines verbose c = head :: issues ∧ isIssueLine head = false ∧
      (∀ line ∈ issues, isIssueLine line = true) ∧ isFailure head = Standing.failing.holds c ∧
      (Standing.failing.holds c = true → issues.length = c.errorCount)) ∨
    componentLines verbose c = [] ∧ Standing.failing.holds c = false := by
  unfold componentLines
  split
  · rename_i hunused
    have hholds : Standing.failing.holds c = false := by
      simp [Standing.holds, hc.errorCount_of_unused hunused]
    refine .inl ⟨_, [], rfl, ?_, by simp, ?_, by simp [hholds]⟩
    · simp [isIssueLine, Text.startsWith, List.isPrefixOf]
    · simp [hholds, isFailure, Text.startsWith, List.isPrefixOf]
  split
  · rename_i herrors
    refine .inl ⟨_, _, rfl, ?_, List.forall_mem_flatMap.2 fun o _ => isIssueLine_of_mem_errorLines o, ?_,
      fun _ => length_errorLines hc⟩
    · simp [isIssueLine, Text.startsWith, List.isPrefixOf, componentHead]
    · simp [Standing.holds, herrors, isFailure, Text.startsWith, List.isPrefixOf, componentHead]
  have hholds : Standing.failing.holds c = false := by
    rename_i herrors
    simpa [Standing.holds] using herrors
  split
  · refine .inl ⟨_, _, rfl, ?_, List.forall_mem_flatMap.2 fun o _ => isIssueLine_of_mem_warningLines o, ?_,
      by simp [hholds]⟩
    · simp [isIssueLine, Text.startsWith, List.isPrefixOf, componentHead]
    · simp [hholds, isFailure, Text.startsWith, List.isPrefixOf, componentHead]
  split
  · refine .inl ⟨_, [], rfl, ?_, by simp, ?_, by simp [hholds]⟩
    · simp [isIssueLine, Text.startsWith, List.isPrefixOf, componentHead]
    · simp [hholds, isFailure, Text.startsWith, List.isPrefixOf, componentHead]
  · exact .inr ⟨rfl, hholds⟩

theorem startsAnew_components {cs : List ComponentResult} (h : ∀ c ∈ cs, c.Consistent)
    (hrest : StartsAnew rest) : StartsAnew (cs.flatMap (componentLines verbose) ++ rest) := by
  induction cs with
  | nil => exact hrest
  | cons c cs ih =>
    obtain ⟨hc, hcs⟩ := List.forall_mem_cons.1 h
    rw [List.flatMap_cons, List.append_assoc]
    rcases componentLines_cases hc verbose with ⟨head, issues, hlines, hhead, -⟩ | ⟨hlines, -⟩
    · rw [hlines]
      exact startsAnew_cons hhead
    · rw [hlines]
      exact ih hcs

theorem shownFailures_components {cs : List ComponentResult} (h : ∀ c ∈ cs, c.Consistent)
    (hrest : StartsAnew rest) :
    shownFailures (cs.flatMap (componentLines verbose) ++ rest) =
      (cs.filter Standing.failing.holds).map (·.errorCount) ++ shownFailures rest := by
  induction cs with
  | nil => rfl
  | cons c cs ih =>
    obtain ⟨hc, hcs⟩ := List.forall_mem_cons.1 h
    rw [List.flatMap_cons, List.append_assoc, List.filter_cons]
    rcases componentLines_cases hc verbose with
      ⟨head, issues, hlines, -, hissues, hfailure, hlength⟩ | ⟨hlines, hholds⟩
    · rw [hlines, shownFailures_block head hissues (startsAnew_components hcs hrest), ih hcs, hfailure]
      split
      · rename_i hholds
        rw [hlength hholds]
        rfl
      · rfl
    · rw [hlines, hholds]
      exact ih hcs

/-! ## The whole screen -/

theorem shownFailures_documents (ds : List DocumentIssue) (hrest : StartsAnew rest) :
    shownFailures (ds.map (fun d => "[FAILED] " ++ d.document ++ " - " ++ d.message) ++ rest) =
        List.replicate ds.length 0 ++ shownFailures rest ∧
      StartsAnew (ds.map (fun d => "[FAILED] " ++ d.document ++ " - " ++ d.message) ++ rest) := by
  induction ds with
  | nil => exact ⟨rfl, hrest⟩
  | cons d ds ih =>
    have hfailure : isFailure ("[FAILED] " ++ d.document ++ " - " ++ d.message) = true := by
      simp [isFailure, Text.startsWith, List.isPrefixOf]
    rw [List.map_cons, List.cons_append]
    refine ⟨?_, startsAnew_cons (by simp [isIssueLine, Text.startsWith, List.isPrefixOf])⟩
    have hblock := shownFailures_block ("[FAILED] " ++ d.document ++ " - " ++ d.message)
      (List.forall_mem_nil _) ih.2
    rw [hfailure, ih.1] at hblock
    exact hblock

theorem startsAnew_antiPatterns (ps : List AntiPattern) (hrest : StartsAnew rest) :
    StartsAnew (ps.flatMap antiPatternLines ++ rest) := by
  cases ps with
  | nil => exact hrest
  | cons p ps => exact startsAnew_cons (by simp [isIssueLine, Text.startsWith, List.isPrefixOf])

theorem isFailure_statusLine (ok : Bool) : isFailure (statusLine ok) = false := by
  simp [isFailure, Text.startsWith, List.isPrefixOf, statusLine]

theorem isFailure_count (title : String) (n : Nat) : isFailure (count title n) = false := by
  simp [isFailure, Text.startsWith, List.isPrefixOf, count]

theorem isFailure_of_mem_antiPatternLines {p : AntiPattern} :
    ∀ line ∈ antiPatternLines p, isFailure line = false := by
  simp [antiPatternLines, isFailure, Text.startsWith, List.isPrefixOf]

/-- The failed components come first, each with its errors, and then the documents. -/
theorem shownFailures_componentSummary {lint : ComponentLint}
    (h : ∀ c ∈ lint.components, c.Consistent) (verbose : Bool) :
    shownFailures (componentSummary verbose lint) =
      (lint.components.filter Standing.failing.holds).map (·.errorCount) ++
        List.replicate lint.documentErrors.length 0 := by
  unfold componentSummary
  simp only [List.append_assoc]
  generalize hcounts : [statusLine lint.ok, count "Components" lint.components.length,
      count "Occurrences" lint.occurrenceCount, count "Errors" lint.errorCount,
      count "Warnings" lint.warningCount, count "Unused" lint.unused.length] ++
    (if lint.antiPatterns.isEmpty then [] else [count "Anti-patterns" lint.antiPatterns.length]) = counts
  have hanew : StartsAnew counts := by
    rw [← hcounts]
    exact startsAnew_cons (by simp [isIssueLine, Text.startsWith, List.isPrefixOf, statusLine])
  have hquiet : ∀ line ∈ counts, isFailure line = false := by
    rw [← hcounts]
    refine List.forall_mem_append.2 ⟨?_, ?_⟩
    · simp [isFailure_statusLine, isFailure_count]
    · split <;> simp [isFailure_count]
  have hpatterns : ∀ line ∈ lint.antiPatterns.flatMap antiPatternLines, isFailure line = false := by
    intro line hline
    obtain ⟨p, -, hline⟩ := List.mem_flatMap.1 hline
    exact isFailure_of_mem_antiPatternLines line hline
  obtain ⟨hdocuments, hstart⟩ :=
    shownFailures_documents lint.documentErrors (startsAnew_antiPatterns lint.antiPatterns hanew)
  have hnone : shownFailures counts = [] := by
    rw [← List.append_nil counts, shownFailures_append hquiet]
    rfl
  rw [shownFailures_components h hstart, hdocuments, shownFailures_append hpatterns, hnone,
    List.append_nil]

end BlockCheck.CommandLine
