import BlockCheck.Proofs.Blocks.Escapes
import BlockCheck.Proofs.Blocks.Walk
import BlockCheck.Proofs.Schema.Codes
import Mathlib.Tactic.Choose

/-!
# Circular references

Checking a document reports each walk that closes once, in the order of a reader who looks into
each block where it is mentioned, and it reports nothing else as circular. Two references to one
block side by side are two walks, and neither closes the other. A document that stops the run gets no report.
-/

namespace BlockCheck

def Report.isCircular (report : Report) : Bool :=
  report.issues.any fun issue => issue.problem.code = .circularReference

namespace Outcome

def circularReports (outcome : Outcome) : List Report := outcome.reports.filter Report.isCircular

@[simp] theorem circularReports_append (a b : Outcome) :
    (a ++ b).circularReports = a.circularReports ++ b.circularReports := List.filter_append ..

theorem circularReports_concat (outcomes : List Outcome) :
    (concat outcomes).circularReports = outcomes.flatMap circularReports := by
  rw [circularReports, reports_concat, List.filter_flatMap]
  rfl

theorem circularReports_inside (outer : String) (outcome : Outcome) :
    (outcome.inside outer).circularReports = outcome.circularReports.map (Report.inside outer) := by
  rw [circularReports, reports_inside, List.filter_map]
  rfl

theorem circularReports_ofProblem (file path identifier : String) (problem : Problem) :
    (ofProblem file path identifier problem).circularReports =
      if problem.code = .circularReference then [⟨file, path, identifier, [⟨"", problem⟩]⟩]
      else [] := by
  simp [circularReports, Report.isCircular, List.filter_cons]

end Outcome

namespace Document

variable {around : Surroundings} {file text content name : String} {inProgress : List String}
  {r last : Scan.Reference} {walk : List Scan.Reference}

/-! ## What is circular in a document -/

/-- No component is circular: what is wrong with its properties are their shapes. -/
theorem circularReports_checkComponent (around : Surroundings) (file : String) (r : Scan.Reference) :
    (checkComponent around file r).circularReports = [] := by
  rw [Outcome.circularReports, List.filter_eq_nil_iff]
  intro report hreport
  unfold checkComponent at hreport
  split at hreport
  · cases List.mem_singleton.1 hreport
    simp [Report.isCircular, Problem.code]
  split at hreport
  · cases List.mem_singleton.1 hreport
    simp [Report.isCircular, Problem.code]
  dsimp only at hreport
  split at hreport
  · cases hreport
  · cases List.mem_singleton.1 hreport
    simp only [Report.isCircular, List.any_eq_true, decide_eq_true_eq, not_exists, not_and]
    intro issue hissue hcode
    have hmem := Schema.code_mem_of_mem_validate hissue
    rw [hcode] at hmem
    exact absurd hmem (by decide)

theorem circularReports_checkBlock (around : Surroundings) (file : String)
    (inProgress : List String) (r : Scan.Reference) :
    (checkBlock around file inProgress r).circularReports =
      if r.identifier ∈ inProgress then
        [⟨file, r.location.text, r.identifier, [⟨"", .circular r.identifier⟩]⟩]
      else match around.blocks.read r.identifier with
        | some (.ok content) =>
          (check around file (r.identifier :: inProgress) content).circularReports.map
            (Report.inside r.location.text)
        | _ => [] := by
  have hused : (Outcome.ofUse r.identifier).circularReports = [] := rfl
  have hproperties : (checkProperties file r).circularReports = [] := by
    unfold checkProperties
    split
    · rfl
    · rw [Outcome.circularReports_ofProblem, if_neg (by simp [Problem.code])]
  by_cases hfree : r.identifier ∈ inProgress
  · simp [checkBlock_of_mem around file hfree, hfree, hused, Outcome.circularReports_ofProblem, Problem.code]
  · rcases hread : around.blocks.read r.identifier with _ | fault | content
    · simp [checkBlock_of_none around file hfree hread, hfree, hused, hproperties,
        Outcome.circularReports_ofProblem, Problem.code]
    · simp [checkBlock_of_error around file hfree hread, hfree, hused, hproperties,
        Outcome.circularReports_ofProblem, Problem.code]
    · simp [checkBlock_of_ok around file hfree hread, hfree, hused, hproperties,
        Outcome.circularReports_inside]

theorem circularReports_check (around : Surroundings) (file : String) (inProgress : List String)
    (text : String) :
    (check around file inProgress text).circularReports =
      (blockReferences around text).flatMap fun r =>
        (checkBlock around file inProgress r).circularReports := by
  rw [check_eq_concat]
  cases hparse : Json.parse text with
  | error reason =>
    simp [blockReferences, references, hparse, Outcome.circularReports_ofProblem, Problem.code]
  | ok document =>
    rw [Outcome.circularReports_concat, List.flatMap_map]
    exact flatMap_checkReference (circularReports_checkComponent around file)

/-! ## What is reported of a walk -/

def lastName (walk : List Scan.Reference) : String := (walk.getLast?.map (·.identifier)).getD ""

def closingReport (file : String) (walk : List Scan.Reference) : Report where
  file := file
  path := Text.join " -> " (walk.map (·.location.text))
  identifier := lastName walk
  issues := [⟨"", .circular (lastName walk)⟩]

theorem closingReport_singleton (file : String) (r : Scan.Reference) :
    closingReport file [r] =
      ⟨file, r.location.text, r.identifier, [⟨"", .circular r.identifier⟩]⟩ := by
  simp [closingReport, lastName, Text.join]

theorem isEmpty_path_closingReport (file : String) (hwalk : walk ≠ []) :
    (closingReport file walk).path.isEmpty = false := by
  cases walk with
  | nil => exact absurd rfl hwalk
  | cons r rest =>
    have hr := Location.isEmpty_text r.location
    cases rest with
    | nil => simpa [closingReport, Text.join] using hr
    | cons second rest =>
      simp only [String.isEmpty_eq_false_iff] at hr ⊢
      simp [closingReport, Text.join, String.intercalate_cons_cons, hr]

theorem inside_closingReport (file : String) (r : Scan.Reference) (hwalk : walk ≠ []) :
    (closingReport file walk).inside r.location.text = closingReport file (r :: walk) := by
  have hpath := isEmpty_path_closingReport file hwalk
  obtain ⟨second, rest, rfl⟩ := List.exists_cons_of_ne_nil hwalk
  rw [Report.inside, chainPath, hpath]
  simp [closingReport, lastName, Text.join, String.intercalate_cons_cons]

/-! ## Reported and closing walks -/

/-- The walks whose reports these are: those that close, in order. -/
structure Explains (around : Surroundings) (file : String) (inProgress : List String) (text : String)
    (reports : List Report) (walks : List (List Scan.Reference)) : Prop where
  reports_eq : reports = walks.map (closingReport file)
  ordered : walks.Pairwise (Precedes around text)
  mem_iff : ∀ walk, walk ∈ walks ↔ IsWalk around text walk ∧ Closes inProgress walk

structure ExplainsFrom (around : Surroundings) (file : String) (inProgress : List String)
    (text : String) (r : Scan.Reference) (walks : List (List Scan.Reference)) : Prop where
  reports_eq : (checkBlock around file inProgress r).circularReports = walks.map (closingReport file)
  ordered : walks.Pairwise (Precedes around text)
  mem_iff : ∀ walk, walk ∈ walks ↔ ∃ rest, walk = r :: rest ∧ Closes inProgress walk ∧
    (rest = [] ∨ ∃ content, around.blocks.read r.identifier = some (.ok content) ∧
      IsWalk around content rest)

theorem explainsFrom_of_mem (hprogress : r.identifier ∈ inProgress) :
    ExplainsFrom around file inProgress text r [[r]] where
  reports_eq := by
    rw [circularReports_checkBlock, if_pos hprogress, List.map_singleton, closingReport_singleton]
  ordered := List.pairwise_singleton _ _
  mem_iff walk := by
    rw [List.mem_singleton]
    constructor
    · rintro rfl
      exact ⟨[], rfl, closes_singleton.2 hprogress, Or.inl rfl⟩
    · rintro ⟨rest, rfl, hcloses, rfl | ⟨content, -, hwalk⟩⟩
      · rfl
      · exact absurd hprogress ((closes_cons hwalk.ne_nil).1 hcloses).1

theorem explainsFrom_of_read {walks : List (List Scan.Reference)} (hfree : r.identifier ∉ inProgress)
    (hread : around.blocks.read r.identifier = some (.ok content))
    (h : Explains around file (r.identifier :: inProgress) content
      (check around file (r.identifier :: inProgress) content).circularReports walks) :
    ExplainsFrom around file inProgress text r (walks.map (r :: ·)) where
  reports_eq := by
    rw [circularReports_checkBlock, if_neg hfree, hread]
    simp only [h.reports_eq, List.map_map]
    refine List.map_congr_left fun walk hwalk => ?_
    exact inside_closingReport file r ((h.mem_iff walk).1 hwalk).1.ne_nil
  ordered := h.ordered.map _ fun _ _ => .inside hread
  mem_iff walk := by
    rw [List.mem_map]
    constructor
    · rintro ⟨rest, hrest, rfl⟩
      obtain ⟨hwalk, hcloses⟩ := (h.mem_iff rest).1 hrest
      exact ⟨rest, rfl, (closes_cons hwalk.ne_nil).2 ⟨hfree, hcloses⟩, Or.inr ⟨content, hread, hwalk⟩⟩
    · rintro ⟨rest, rfl, hcloses, rfl | ⟨content', hread', hwalk⟩⟩
      · exact absurd (closes_singleton.1 hcloses) hfree
      · cases hread.symm.trans hread'
        exact ⟨rest, (h.mem_iff rest).2 ⟨hwalk, ((closes_cons hwalk.ne_nil).1 hcloses).2⟩, rfl⟩

theorem explainsFrom_of_not_read (hfree : r.identifier ∉ inProgress)
    (hread : ∀ content, around.blocks.read r.identifier ≠ some (.ok content)) :
    ExplainsFrom around file inProgress text r [] where
  reports_eq := by
    rw [circularReports_checkBlock, if_neg hfree]
    split
    · exact absurd ‹_› (hread _)
    · rfl
  ordered := .nil
  mem_iff walk := by
    refine iff_of_false List.not_mem_nil ?_
    rintro ⟨rest, rfl, hcloses, rfl | ⟨content, hcontent, -⟩⟩
    · exact hfree (closes_singleton.1 hcloses)
    · exact hread content hcontent

theorem exists_explains (around : Surroundings) (file : String) (inProgress : List String)
    (text : String) : ∃ walks, Explains around file inProgress text
      (check around file inProgress text).circularReports walks := by
  induction inProgress, text using expanding_induction around with
  | step inProgress text ih =>
    have hfrom : ∀ r, ∃ walks, ExplainsFrom around file inProgress text r walks := by
      intro r
      by_cases hfree : r.identifier ∈ inProgress
      · exact ⟨_, explainsFrom_of_mem hfree⟩
      by_cases hread : ∃ content, around.blocks.read r.identifier = some (.ok content)
      · obtain ⟨content, hread⟩ := hread
        obtain ⟨walks, hwalks⟩ := ih r.identifier content hfree hread
        exact ⟨_, explainsFrom_of_read hfree hread hwalks⟩
      · exact ⟨[], explainsFrom_of_not_read hfree (not_exists.1 hread)⟩
    -- The walks that begin with a reference are those that are found through it.
    choose walksFrom hfrom using hfrom
    refine ⟨(blockReferences around text).flatMap walksFrom, ?_, ?_, fun walk => ?_⟩
    · rw [circularReports_check, List.map_flatMap]
      exact congrArg (List.flatMap · _) (funext fun r => (hfrom r).reports_eq)
    · rw [List.pairwise_flatMap]
      refine ⟨fun r _ => (hfrom r).ordered, List.pairwise_iff_forall_sublist.2 ?_⟩
      intro r r' hsub walk hwalk walk' hwalk'
      obtain ⟨rest, rfl, -⟩ := ((hfrom r).mem_iff walk).1 hwalk
      obtain ⟨rest', rfl, -⟩ := ((hfrom r').mem_iff walk').1 hwalk'
      exact .here hsub
    · rw [List.mem_flatMap]
      constructor
      · rintro ⟨r, hr, hwalk⟩
        obtain ⟨rest, rfl, hcloses, hrest⟩ := ((hfrom r).mem_iff walk).1 hwalk
        exact ⟨isWalk_cons_iff.2 ⟨hr, hrest⟩, hcloses⟩
      · rintro ⟨hwalk, hcloses⟩
        obtain ⟨r, rest, rfl⟩ := List.exists_cons_of_ne_nil hwalk.ne_nil
        obtain ⟨hr, hrest⟩ := isWalk_cons_iff.1 hwalk
        exact ⟨r, hr, ((hfrom r).mem_iff _).2 ⟨rest, rfl, hcloses, hrest⟩⟩

/-- The reports of circular references are those of the walks that close, each walk once and in
order. There is one if and only if a block in progress or a cycle of blocks is reached. -/
theorem circularReports_iff_closing_walks (around : Surroundings) (file : String)
    (inProgress : List String) (text : String) :
    (∃ walks : List (List Scan.Reference),
      (check around file inProgress text).circularReports = walks.map (closingReport file) ∧
      walks.Nodup ∧ walks.Pairwise (Precedes around text) ∧
      ∀ walk, walk ∈ walks ↔ IsWalk around text walk ∧ Closes inProgress walk) ∧
    ((check around file inProgress text).circularReports ≠ [] ↔
      ∃ name, Reaches around [] text name ∧ (name ∈ inProgress ∨ OnCycle around name)) := by
  obtain ⟨walks, hwalks⟩ := exists_explains around file inProgress text
  refine ⟨⟨walks, hwalks.reports_eq, hwalks.ordered.imp Precedes.ne, hwalks.ordered,
    hwalks.mem_iff⟩, ?_⟩
  rw [hwalks.reports_eq, ne_eq, List.map_eq_nil_iff, ← exists_closes_iff]
  simp only [← hwalks.mem_iff]
  exact ⟨List.exists_mem_of_ne_nil walks, fun ⟨_, hwalk⟩ => List.ne_nil_of_mem hwalk⟩

/-- The reports of circular references are those of the walks that close, unless something in the document, or
in a block that is expanded for it, stops the run. -/
theorem validate_reports_closing_walks (room : Nat → Nat) (around : Surroundings) (file : String)
    (inProgress : List String) (text : String) :
    (∀ outcome, validate room around file inProgress text = .ok outcome →
      (∃ walks : List (List Scan.Reference),
        outcome.circularReports = walks.map (closingReport file) ∧
        walks.Nodup ∧ walks.Pairwise (Precedes around text) ∧
        ∀ walk, walk ∈ walks ↔ IsWalk around text walk ∧ Closes inProgress walk) ∧
      (outcome.circularReports ≠ [] ↔
        ∃ name, Reaches around [] text name ∧ (name ∈ inProgress ∨ OnCycle around name))) ∧
    ((∃ outcome, validate room around file inProgress text = .ok outcome) ↔
      ¬Escapes room around inProgress text) := by
  refine ⟨fun outcome houtcome => ?_, exists_validate_eq_ok_iff⟩
  obtain ⟨-, rfl⟩ := validate_eq_ok_iff.1 houtcome
  exact circularReports_iff_closing_walks around file inProgress text

/-! ## A loop -/

def loopText : String := "\x7b\"__resolveType\":\"A\"\x7d"

/-- A reference to the loop, and one to a block that has half of a surrogate pair for its name. -/
def halfLoopText : String := "[\x7b\"__resolveType\":\"A\"\x7d,\x7b\"__resolveType\":\"\\ud800\"\x7d]"

def loopSurroundings : Surroundings where
  naming := {}
  key := discriminator
  mode := .lenient
  locate _ := none
  props _ := none
  blocks := .ofDirectory "/b" (.ofTexts [("/b/A.json", loopText)])

theorem read_loop : loopSurroundings.blocks.read "A" = some (.ok loopText) := by decide

theorem names_loopText : (blockReferences loopSurroundings loopText).map (·.identifier) = ["A"] ∧
    Json.overflow? 100 loopText = none := by decide +kernel

theorem mentions_loopText_iff : Mentions loopSurroundings loopText name ↔ name = "A" := by
  rw [Mentions, ← List.mem_map, names_loopText.1, List.mem_singleton]

theorem onCycle_loop : OnCycle loopSurroundings "A" :=
  .single ⟨List.not_mem_nil, loopText, read_loop, mentions_loopText_iff.2 rfl⟩

theorem not_escapes_loopText : ¬Escapes (fun _ => 100) loopSurroundings [] loopText := by
  refine not_escapes_of_within (P := (· = loopText)) ?_ ?_ ?_ rfl
  · rintro text rfl n
    exact names_loopText.2
  · rintro text rfl name hname
    rw [mentions_loopText_iff.1 hname]
    decide
  · rintro text rfl name content hname hread
    rw [mentions_loopText_iff.1 hname] at hread
    cases read_loop.symm.trans hread
    rfl

/-- The loop is reported, but not beside a name that has no bytes. -/
theorem loop_reported_unless_stopped :
    (∃ outcome, validate (fun _ => 100) loopSurroundings "home.json" [] loopText = .ok outcome ∧
      outcome.circularReports ≠ []) ∧
    (∃ walk, IsWalk loopSurroundings halfLoopText walk ∧ Closes [] walk) ∧
    ¬∃ outcome, validate (fun _ => 100) loopSurroundings "home.json" [] halfLoopText = .ok outcome := by
  have hloop : "A" ∈ (blockReferences loopSurroundings halfLoopText).map (·.identifier) := by decide +kernel
  have hhalf : ∃ name ∈ (blockReferences loopSurroundings halfLoopText).map (·.identifier),
      Text.Surrogate.isUnencodable name = true := by decide +kernel
  obtain ⟨hreports, hruns⟩ := validate_reports_closing_walks (fun _ => 100) loopSurroundings "home.json" [] loopText
  obtain ⟨-, hruns'⟩ := validate_reports_closing_walks (fun _ => 100) loopSurroundings "home.json" [] halfLoopText
  refine ⟨?_, ?_, ?_⟩
  · obtain ⟨outcome, houtcome⟩ := hruns.2 not_escapes_loopText
    have hreach : Reaches loopSurroundings [] loopText "A" := ⟨"A", mentions_loopText_iff.2 rfl, .refl⟩
    exact ⟨outcome, houtcome, (hreports outcome houtcome).2.2 ⟨"A", hreach, Or.inr onCycle_loop⟩⟩
  · exact exists_closes_iff.2 ⟨"A", ⟨"A", List.mem_map.1 hloop, .refl⟩, Or.inr onCycle_loop⟩
  · obtain ⟨name, hname, hunencodable⟩ := hhalf
    exact fun houtcome => hruns'.1 houtcome (.unencodable (List.mem_map.1 hname) List.not_mem_nil hunencodable)

end Document

end BlockCheck
