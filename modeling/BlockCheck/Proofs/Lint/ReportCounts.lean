import BlockCheck.Proofs.CommandLine.ShownFailures
import BlockCheck.Proofs.Disk.Entries
import BlockCheck.Report
import Mathlib.Algebra.GroupWithZero.Nat

/-!
# The counts of a report

The report of a run adds up: every component is counted with one standing, the totals are those of what is
listed, and what the screen shows as failed is what the report counts as errors.
-/

namespace BlockCheck

def Json.itemsAt (key : String) (value : Json) : List Json :=
  match value.get? key with
  | some (.array items) => items
  | _ => []

namespace RunReport

open CommandLine (shownFailures componentSummary)

/-! ## Reading a report -/

def report (time : String) (lint : ComponentLint) : Json :=
  .object (("timestamp", .string time) :: body lint)

def summaryNumber? (title : String) (report : Json) : Option Int :=
  match (report.get? "summary").bind (Json.get? title) with
  | some (.int n) => some n
  | _ => none

def listed (group key : String) (report : Json) : List Json :=
  (report.itemsAt group).flatMap (Json.itemsAt key)

def told (entry : Json) : Option String × Option String :=
  (entry.stringAt? "property", entry.stringAt? "message")

def toldOf (issue : Issue) : Option String × Option String := (some issue.path, some issue.problem.message)

def title : Standing → String
  | .failing => "sectionsWithErrors"
  | .warned => "sectionsWithWarnings"
  | .unused => "unusedSections"
  | .valid => "validSections"

/-- The report and the screen of a run say the same as its results. -/
structure AddsUp (time : String) (lint : ComponentLint) : Prop where
  one_standing : ∀ c ∈ lint.components, ∃! s : Standing, s.holds c = true
  standings : ∀ s : Standing,
    summaryNumber? (title s) (report time lint) = some (lint.components.countP s.holds : Nat)
  sections : summaryNumber? "totalSections" (report time lint) =
    some (lint.components.countP (Standing.holds .failing) + lint.components.countP (Standing.holds .warned) +
      lint.components.countP (Standing.holds .unused) + lint.components.countP (Standing.holds .valid) : Nat)
  errors : (listed "sectionsWithErrors" "errors" (report time lint)).map told =
    (lint.components.flatMap (·.errors)).map toldOf
  totalErrors : summaryNumber? "totalErrors" (report time lint) =
    some ((listed "sectionsWithErrors" "errors" (report time lint)).length +
      ((report time lint).itemsAt "documentErrors").length : Nat)
  /-- On the screen a failure with nothing below it is that of a document. -/
  shown : ∀ verbose, shownFailures (componentSummary verbose lint) =
    (lint.components.filter Standing.failing.holds).map (·.errorCount) ++
      List.replicate lint.documentErrors.length 0
  totalErrors_shown : ∀ verbose, summaryNumber? "totalErrors" (report time lint) =
    some ((shownFailures (componentSummary verbose lint)).sum +
      (shownFailures (componentSummary verbose lint)).count 0 : Nat)
  /-- The warnings of used components are listed, but for those of components with errors. -/
  warnings : (listed "sectionsWithWarnings" "warnings" (report time lint)).map told =
    ((lint.components.filter fun c => !c.unused && !Standing.failing.holds c).flatMap (·.warnings)).map toldOf
  totalWarnings : summaryNumber? "totalWarnings" (report time lint) =
    some ((listed "sectionsWithWarnings" "warnings" (report time lint)).length +
      ((lint.components.filter Standing.failing.holds).map (·.warningCount)).sum : Nat)
  totalOccurrences : summaryNumber? "totalOccurrences" (report time lint) =
    some ((lint.components.map (·.occurrences.length)).sum : Nat)
  ok_iff : lint.ok = true ↔ summaryNumber? "totalErrors" (report time lint) = some 0

variable {time : String} {lint : ComponentLint} {cs : List ComponentResult}

/-! ## The numbers of the summary -/

theorem summaryNumber?_totals (time : String) (lint : ComponentLint) :
    summaryNumber? "totalSections" (report time lint) = some (lint.components.length : Nat) ∧
      summaryNumber? "totalOccurrences" (report time lint) = some (lint.occurrenceCount : Nat) ∧
      summaryNumber? "totalErrors" (report time lint) = some (lint.errorCount : Nat) ∧
      summaryNumber? "totalWarnings" (report time lint) = some (lint.warningCount : Nat) :=
  ⟨rfl, rfl, rfl, rfl⟩

theorem listed_errors (time : String) (lint : ComponentLint) :
    listed "sectionsWithErrors" "errors" (report time lint) = (withErrors lint).flatMap errorEntries := by
  have hgroup : (report time lint).itemsAt "sectionsWithErrors" =
      (withErrors lint).map fun c => componentEntry "errors" (errorEntries c) c := rfl
  rw [listed, hgroup, List.flatMap_map]
  rfl

theorem listed_warnings (time : String) (lint : ComponentLint) :
    listed "sectionsWithWarnings" "warnings" (report time lint) = (withWarnings lint).flatMap warningEntries := by
  have hgroup : (report time lint).itemsAt "sectionsWithWarnings" =
      (withWarnings lint).map fun c => componentEntry "warnings" (warningEntries c) c := rfl
  rw [listed, hgroup, List.flatMap_map]
  rfl

theorem length_documentErrors (time : String) (lint : ComponentLint) :
    ((report time lint).itemsAt "documentErrors").length = lint.documentErrors.length := by
  have hitems : (report time lint).itemsAt "documentErrors" = lint.documentErrors.map fun d =>
      .object [("document", .string d.document), ("message", .string d.message)] := rfl
  rw [hitems, List.length_map]

/-! ## What is listed -/

theorem flatMap_filter_of_eq_nil {α β : Type} {l : List α} {p : α → Bool} {f : α → List β}
    (h : ∀ a ∈ l, p a = false → f a = []) : (l.filter p).flatMap f = l.flatMap f := by
  induction l with
  | nil => rfl
  | cons a rest ih =>
    obtain ⟨ha, hrest⟩ := List.forall_mem_cons.1 h
    cases hp : p a with
    | true => rw [List.filter_cons_of_pos hp, List.flatMap_cons, List.flatMap_cons, ih hrest]
    | false =>
      rw [List.filter_cons_of_neg (by simp [hp]), List.flatMap_cons, ha hp, List.nil_append, ih hrest]

theorem errors_of_not_failing {c : ComponentResult} (h : Standing.failing.holds c = false) : c.errors = [] := by
  simpa [Standing.holds, ComponentResult.errorCount] using h

theorem withErrors_eq (h : ∀ c ∈ lint.components, c.Consistent) :
    withErrors lint = lint.components.filter Standing.failing.holds := by
  refine List.filter_congr fun c hc => ?_
  cases hunused : c.unused with
  | true => simp [Standing.holds, (h c hc).errorCount_of_unused hunused]
  | false => rfl

theorem withWarnings_eq (lint : ComponentLint) :
    withWarnings lint = lint.components.filter Standing.warned.holds := by
  refine List.filter_congr fun c _ => ?_
  rw [Standing.holds, Bool.and_comm _ (!c.unused), Bool.and_assoc]

theorem told_errorEntries {c : ComponentResult} (hc : c.Consistent) :
    (errorEntries c).map told = c.errors.map toldOf := by
  rw [hc.errors_eq, errorEntries, List.map_flatMap, List.map_flatMap]
  simp only [List.map_map]
  rfl

theorem told_warningEntries {c : ComponentResult} (hc : c.Consistent) (hunused : c.unused = false) :
    (warningEntries c).map told = c.warnings.map toldOf := by
  rw [hc.warnings_eq hunused, warningEntries, List.map_flatMap, List.map_flatMap]
  simp only [List.map_map]
  rfl

theorem told_listed_errors (time : String) (h : ∀ c ∈ lint.components, c.Consistent) :
    (listed "sectionsWithErrors" "errors" (report time lint)).map told =
      (lint.components.flatMap (·.errors)).map toldOf := by
  rw [listed_errors, withErrors_eq h, List.map_flatMap, List.map_flatMap]
  rw [List.flatMap_congr fun c hc => told_errorEntries (h c (List.mem_filter.1 hc).1)]
  exact flatMap_filter_of_eq_nil fun c _ hc => by rw [errors_of_not_failing hc, List.map_nil]

theorem told_listed_warnings (time : String) (h : ∀ c ∈ lint.components, c.Consistent) :
    (listed "sectionsWithWarnings" "warnings" (report time lint)).map told =
      ((lint.components.filter fun c => !c.unused && !Standing.failing.holds c).flatMap
        (·.warnings)).map toldOf := by
  have hwarned : lint.components.filter Standing.warned.holds =
      (lint.components.filter fun c => !c.unused && !Standing.failing.holds c).filter
        fun c => c.warningCount != 0 := by
    rw [List.filter_filter]
    refine List.filter_congr fun c _ => ?_
    simp only [Standing.holds]
    cases c.unused <;> cases herrors : c.errorCount == 0 <;> simp_all
  have htold : ∀ c ∈ lint.components.filter Standing.warned.holds,
      (warningEntries c).map told = c.warnings.map toldOf := by
    intro c hc
    obtain ⟨hmem, hholds⟩ := List.mem_filter.1 hc
    refine told_warningEntries (h c hmem) ?_
    simp only [Standing.holds, Bool.and_eq_true, Bool.not_eq_true'] at hholds
    exact hholds.2
  rw [listed_warnings, withWarnings_eq, List.map_flatMap, List.map_flatMap, List.flatMap_congr htold, hwarned]
  refine flatMap_filter_of_eq_nil fun c _ hc => ?_
  have hnone : c.warnings = [] := by simpa [ComponentResult.warningCount] using hc
  rw [hnone, List.map_nil]

/-! ## Totals -/

theorem sum_errorCount (cs : List ComponentResult) :
    ((cs.filter Standing.failing.holds).map (·.errorCount)).sum = (cs.flatMap (·.errors)).length := by
  have hfiltered : (cs.filter Standing.failing.holds).flatMap (·.errors) = cs.flatMap (·.errors) :=
    flatMap_filter_of_eq_nil fun c _ hc => errors_of_not_failing hc
  rw [← hfiltered, List.length_flatMap]
  rfl

theorem length_warnings (h : ∀ c ∈ cs, c.Consistent) :
    ((cs.filter fun c => !c.unused).flatMap (·.warnings)).length =
      ((cs.filter fun c => !c.unused && !Standing.failing.holds c).flatMap (·.warnings)).length +
        ((cs.filter Standing.failing.holds).map (·.warningCount)).sum := by
  induction cs with
  | nil => rfl
  | cons c cs ih =>
    obtain ⟨hc, hcs⟩ := List.forall_mem_cons.1 h
    have hrest := ih hcs
    cases hunused : c.unused with
    | true =>
      have hholds : Standing.failing.holds c = false := by
        simp [Standing.holds, hc.errorCount_of_unused hunused]
      simpa [hunused, hholds] using hrest
    | false =>
      cases hholds : Standing.failing.holds c <;>
        simp [hunused, hholds, hrest, ComponentResult.warningCount] <;> omega

theorem count_zero_failing (cs : List ComponentResult) :
    ((cs.filter Standing.failing.holds).map (·.errorCount)).count 0 = 0 := by
  rw [List.count_eq_zero, List.mem_map]
  rintro ⟨c, hc, hzero⟩
  simpa [Standing.holds, hzero] using (List.mem_filter.1 hc).2

theorem summaryNumber?_title (h : ∀ c ∈ lint.components, c.Consistent) (s : Standing) :
    summaryNumber? (title s) (report time lint) = some (lint.components.countP s.holds : Nat) := by
  have hfailing : (withErrors lint).length = lint.components.countP (Standing.holds .failing) := by
    rw [withErrors_eq h, List.countP_eq_length_filter]
  have hwarned : (withWarnings lint).length = lint.components.countP (Standing.holds .warned) := by
    rw [withWarnings_eq, List.countP_eq_length_filter]
  have hunused : lint.unused.length = lint.components.countP (Standing.holds .unused) := by
    rw [ComponentLint.unused, List.length_map, List.countP_eq_length_filter]
    rfl
  cases s with
  | failing => exact congrArg (fun n : Nat => some (n : Int)) hfailing
  | warned => exact congrArg (fun n : Nat => some (n : Int)) hwarned
  | unused => exact congrArg (fun n : Nat => some (n : Int)) hunused
  | valid =>
    have hvalid : validCount lint = lint.components.countP (Standing.holds .valid) := by
      have hall := length_eq_countP h
      rw [validCount, hfailing, hwarned, hunused]
      omega
    exact congrArg some hvalid

theorem errorCount_eq_listed (h : ∀ c ∈ lint.components, c.Consistent) :
    lint.errorCount = (listed "sectionsWithErrors" "errors" (report time lint)).length +
      ((report time lint).itemsAt "documentErrors").length := by
  have hlisted := congrArg List.length (told_listed_errors time h)
  rw [List.length_map, List.length_map] at hlisted
  rw [ComponentLint.errorCount, hlisted, length_documentErrors]

theorem errorCount_eq_shown (h : ∀ c ∈ lint.components, c.Consistent) (verbose : Bool) :
    lint.errorCount = (shownFailures (componentSummary verbose lint)).sum +
      (shownFailures (componentSummary verbose lint)).count 0 := by
  rw [CommandLine.shownFailures_componentSummary h, List.sum_append, List.count_append, sum_errorCount,
    count_zero_failing, List.count_replicate_self, ComponentLint.errorCount]
  simp

theorem warningCount_eq_listed (h : ∀ c ∈ lint.components, c.Consistent) :
    lint.warningCount = (listed "sectionsWithWarnings" "warnings" (report time lint)).length +
      ((lint.components.filter Standing.failing.holds).map (·.warningCount)).sum := by
  have hlisted := congrArg List.length (told_listed_warnings time h)
  rw [List.length_map, List.length_map] at hlisted
  rw [hlisted]
  exact length_warnings h

theorem addsUp_of_consistent (h : ∀ c ∈ lint.components, c.Consistent) : AddsUp time lint := by
  obtain ⟨hsections, hoccurrences, herrors, hwarnings⟩ := summaryNumber?_totals time lint
  exact
    { one_standing := fun c hc => ⟨c.standing, ((h c hc).holds_iff _).2 rfl, fun s hs => by
        rw [← ((h c hc).holds_iff s).1 hs]⟩
      standings := summaryNumber?_title h
      sections := by
        rw [hsections, length_eq_countP h]
      errors := told_listed_errors time h
      totalErrors := by
        rw [herrors, errorCount_eq_listed h]
      shown := CommandLine.shownFailures_componentSummary h
      totalErrors_shown := fun verbose => by
        rw [herrors, errorCount_eq_shown h verbose]
      warnings := told_listed_warnings time h
      totalWarnings := by
        rw [hwarnings, warningCount_eq_listed h]
      totalOccurrences := by
        rw [hoccurrences, ComponentLint.occurrenceCount, List.length_flatMap]
      ok_iff := by
        rw [herrors, ComponentLint.ok]
        simp }

/-- The counts of every run add up, whatever the project is and whichever components are looked at. -/
theorem addsUp_of_run {disk : Disk} {cwd : String} {config : Config} {target : Option String}
    (hlint : Lint.components disk cwd config target = some lint) : AddsUp time lint :=
  addsUp_of_consistent (Lint.consistent_of_mem hlint)

/-! ## A shop with one component of each standing -/

def shopDisk : Disk where
  files := [
    ("/p/b/a.json", ("[\x7b\"k\":\"s/A.ts\",\"n\":\"1\",\"m\":2\x7d,\x7b\"k\":\"s/C.ts\",\"m\":2\x7d," ++
      "\x7b\"k\":\"s/D.ts\"\x7d]").toUTF8.toList),
    ("/p/b/z.json", "[".toUTF8.toList),
    ("/p/s/A.ts", "export interface Props \x7b n: number \x7d".toUTF8.toList),
    ("/p/s/B.ts", []),
    ("/p/s/C.ts", "export interface Props \x7b\x7d".toUTF8.toList),
    ("/p/s/D.ts", "export interface Props \x7b\x7d".toUTF8.toList)]
  directories := ["/", "/p", "/p/b", "/p/s"]

def shopConfig : Config where
  root := "/p"
  blocksDir := "/p/b"
  settings :=
    { discriminator := "k", localPrefix := "", componentRoots := [("s", [".ts"])],
      reportUnusedProperties := true }

def shopLint : ComponentLint := Lint.whole shopDisk "/" shopConfig

theorem documents_shop :
    Discovery.documents shopDisk shopConfig.blocksDir = ["/p/b/a.json", "/p/b/z.json"] := by
  have hfound : Discovery.unsortedDocuments shopDisk shopConfig.blocksDir =
      ["/p/b/a.json", "/p/b/z.json"] := by decide +kernel
  rw [Discovery.documents_eq_of_pairwise (hfound ▸ by decide +kernel), hfound]

theorem components_shop :
    Discovery.components shopDisk shopConfig.root shopConfig.settings.componentRoots =
      ["/p/s/A.ts", "/p/s/B.ts", "/p/s/C.ts", "/p/s/D.ts"] := by
  unfold Discovery.components
  generalize hfound : List.flatMap _ shopConfig.settings.componentRoots = found
  obtain rfl : found = ["/p/s/A.ts", "/p/s/B.ts", "/p/s/C.ts", "/p/s/D.ts"] := by
    rw [← hfound]
    decide +kernel
  exact (Path.sorted_of_pairwise (by decide +kernel)).trans (by decide +kernel)

theorem components_shopLint :
    shopLint.components.map (·.standing) = [.failing, .unused, .warned, .valid] ∧
      (shopLint.components.filter Standing.failing.holds).map (·.errorCount) = [1] ∧
      shopLint.documentErrors.length = 1 := by
  rw [shopLint, Lint.whole, components_shop, Lint.componentsAt, documents_shop]
  decide +kernel

theorem addsUp_shopLint :
    Lint.components shopDisk "/" shopConfig none = some shopLint ∧
      (∀ s, summaryNumber? (title s) (report "" shopLint) = some 1) ∧
      summaryNumber? "totalSections" (report "" shopLint) = some 4 ∧
      shownFailures (componentSummary false shopLint) = [1, 0] ∧
      summaryNumber? "totalErrors" (report "" shopLint) = some 2 ∧ shopLint.ok = false := by
  have hlint : Lint.components shopDisk "/" shopConfig none = some shopLint := rfl
  have haddsUp : AddsUp "" shopLint := addsUp_of_run hlint
  obtain ⟨hstandings, hfailing, hdocuments⟩ := components_shopLint
  have hone (s : Standing) : shopLint.components.countP s.holds = 1 := by
    rw [countP_holds (Lint.consistent_of_mem hlint), hstandings]
    cases s <;> rfl
  have hshown : shownFailures (componentSummary false shopLint) = [1, 0] := by
    rw [haddsUp.shown, hfailing, hdocuments]
    rfl
  have htotal : summaryNumber? "totalErrors" (report "" shopLint) = some 2 := by
    rw [haddsUp.totalErrors_shown false, hshown]
    rfl
  refine ⟨hlint, fun s => ?_, ?_, hshown, htotal, ?_⟩
  · rw [haddsUp.standings, hone]
    rfl
  · rw [haddsUp.sections, hone, hone, hone, hone]
    rfl
  · rw [← Bool.not_eq_true, haddsUp.ok_iff, htotal]
    decide

end RunReport

end BlockCheck
