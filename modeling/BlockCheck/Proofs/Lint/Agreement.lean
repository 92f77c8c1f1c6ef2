import BlockCheck.Proofs.Lint.ComponentFiles
import BlockCheck.Proofs.Lint.UnusedBlocks
import BlockCheck.Proofs.Scan.Locations

/-!
# Where the two runs agree

A run over components goes from a component to the places that refer to it, a run over documents from
a place to the component. In an orderly project they say the same of every such place, and a document
that one of them cannot read is reported by the other. But what stops one of them need not stop the other.
-/

namespace BlockCheck.Lint

variable {disk : Disk} {cwd path : String} {config : Config} {report : Report} {problem : Problem}
  {c : ComponentResult}

/-- A location in the document at a path. Other locations may be written alike. -/
structure Place where
  document : String
  location : Location

def contentAt (disk : Disk) (cwd : String) (config : Config) (path : String) :
    Except Problem (String × Json) :=
  (LoadedDocument.load (disk.toFiles cwd) config.blocksDir path).content

def reportsOf (disk : Disk) (cwd : String) (config : Config) (path : String) (r : Scan.Reference) :
    List Report :=
  (Document.checkReference (surroundings (disk.toFiles cwd) config)
    (Path.within config.blocksDir path) [] r).reports

def reportsAt (disk : Disk) (cwd : String) (config : Config) (place : Place) : List Report :=
  match contentAt disk cwd config place.document with
  | .error _ => []
  | .ok (_, value) =>
    ((Scan.references config.naming config.settings.discriminator value).filter
      (·.location = place.location)).flatMap (reportsOf disk cwd config place.document)

/-- The places where a run over components looks at a component, in the order in which it does. -/
def places (disk : Disk) (cwd : String) (config : Config) (identifier : String) : List Place :=
  (Discovery.documents disk config.blocksDir).flatMap fun path =>
    match contentAt disk cwd config path with
    | .error _ => []
    | .ok (_, value) =>
      (Scan.occurrences config.settings.discriminator identifier value).map (Place.mk path ·.location)

/-! ## Documents -/

theorem reports_documents (disk : Disk) (cwd : String) (config : Config) :
    (documents disk cwd config).reports = (Discovery.documents disk config.blocksDir).flatMap
      fun path => (documentAt (disk.toFiles cwd) config path).reports := by
  unfold documents
  dsimp only
  rw [Outcome.reports_concat, List.flatMap_map]

theorem reports_documentAt (disk : Disk) (cwd : String) (config : Config) (path : String) :
    (documentAt (disk.toFiles cwd) config path).reports = match contentAt disk cwd config path with
      | .error problem => [⟨Path.within config.blocksDir path, "", "", [⟨"", problem⟩]⟩]
      | .ok (_, value) => (Scan.references config.naming config.settings.discriminator value).flatMap
          (reportsOf disk cwd config path) := by
  unfold documentAt contentAt LoadedDocument.load
  cases (disk.toFiles cwd).text ((disk.toFiles cwd).key path) with
  | error fault => rfl
  | ok text =>
    dsimp only
    rw [Document.check_eq_concat, Document.references]
    cases Json.parse text with
    | error reason => rfl
    | ok value =>
      dsimp only
      rw [Outcome.reports_concat, List.flatMap_map]
      rfl

theorem code_of_contentAt (h : contentAt disk cwd config path = .error problem) :
    problem.code = .documentParseError := by
  unfold contentAt LoadedDocument.load at h
  dsimp only at h
  split at h
  · cases h
    rfl
  split at h
  · cases h
    rfl
  · cases h

theorem distinctKeys_of_contentAt {text : String} {value : Json}
    (h : contentAt disk cwd config path = .ok (text, value)) : value.DistinctKeys :=
  Json.distinctKeys_of_parse (content_load_iff.1 h).2

/-- A run over documents says of a project what it says of the places in it, and of documents that
cannot be read. -/
theorem mem_reports_documents_iff :
    report ∈ (documents disk cwd config).reports ↔
      ∃ path ∈ Discovery.documents disk config.blocksDir,
        (∃ problem, contentAt disk cwd config path = .error problem ∧
          report = ⟨Path.within config.blocksDir path, "", "", [⟨"", problem⟩]⟩) ∨
        ∃ location, report ∈ reportsAt disk cwd config ⟨path, location⟩ := by
  rw [reports_documents, List.mem_flatMap]
  refine exists_congr fun path => and_congr_right fun _ => ?_
  rw [reports_documentAt]
  unfold reportsAt
  dsimp only
  cases contentAt disk cwd config path with
  | error problem => simp
  | ok content =>
    simp only [List.mem_flatMap, List.mem_filter, reduceCtorEq, false_and, exists_false, false_or,
      decide_eq_true_eq]
    constructor
    · rintro ⟨r, hr, hreport⟩
      exact ⟨r.location, r, ⟨hr, rfl⟩, hreport⟩
    · rintro ⟨location, r, ⟨hr, -⟩, hreport⟩
      exact ⟨r, hr, hreport⟩

theorem documentOccurrences_load (identifier : String) (props : Option Schema) (path : String) :
    documentOccurrences config identifier props
        (LoadedDocument.load (disk.toFiles cwd) config.blocksDir path) =
      match contentAt disk cwd config path with
      | .error _ => []
      | .ok (text, value) =>
        (Scan.occurrences config.settings.discriminator identifier value).zipIdx.map
          (occurrenceResult config (Path.within config.blocksDir path) text identifier props) := by
  unfold contentAt
  refine (documentOccurrences_eq config identifier props _).trans ?_
  cases (LoadedDocument.load (disk.toFiles cwd) config.blocksDir path).content <;> rfl

/-! ## One place -/

/-- What a run over components says of an occurrence is what a run over documents says of its place.
Where there is nothing to say, a report that reads as if it came from the place comes from another. -/
structure Agrees (disk : Disk) (cwd : String) (config : Config) (found : DocumentLint) (identifier : String)
    (place : Place) (o : OccurrenceResult) : Prop where
  document : o.document = Path.within config.blocksDir place.document
  path : o.path = place.location.text
  silent : o.errors = [] → o.warnings = [] → reportsAt disk cwd config place = []
  elsewhere : o.errors = [] → o.warnings = [] → ∀ report ∈ found.reports,
    report.file = o.document → report.path = o.path →
      ∃ other, other ≠ place ∧ report ∈ reportsAt disk cwd config other
  reported : o.errors ≠ [] ∨ o.warnings ≠ [] → ∃ report ∈ found.reports,
    reportsAt disk cwd config place = [report] ∧ report.file = o.document ∧ report.path = o.path ∧
      report.identifier = identifier ∧ report.errors = o.errors ∧ report.warnings = o.warnings

theorem checkComponent_of_props {around : Surroundings} {r : Scan.Reference} {source : String}
    {s : Schema} (hlocate : around.locate r.identifier = some source)
    (hprops : around.props source = some s) (file : String) :
    (Document.checkComponent around file r).reports =
      let issues := s.validate around.mode "" (some (.object r.properties))
      if issues.isEmpty then [] else [⟨file, r.location.text, r.identifier, issues⟩] := by
  simp only [Document.checkComponent, hlocate, hprops]

theorem exists_other_of_silent {place : Place} (hsilent : reportsAt disk cwd config place = [])
    (hreport : report ∈ (documents disk cwd config).reports) (hpath : report.path = place.location.text) :
    ∃ other, other ≠ place ∧ report ∈ reportsAt disk cwd config other := by
  obtain ⟨document, -, ⟨problem, -, rfl⟩ | ⟨location, hat⟩⟩ := mem_reports_documents_iff.1 hreport
  · -- A report about a whole document has no path, a location always has one.
    have hwritten := Location.isEmpty_text place.location
    rw [← hpath] at hwritten
    cases hwritten
  · refine ⟨⟨document, location⟩, ?_, hat⟩
    rintro rfl
    rw [hsilent] at hat
    cases hat

theorem eq_nil_of_no_error_and_warning {issues : List Issue} (herrors : issues.filter Issue.isError = [])
    (hwarnings : issues.filter Issue.isWarning = []) : issues = [] := by
  rw [List.filter_eq_nil_iff] at herrors hwarnings
  rw [List.eq_nil_iff_forall_not_mem]
  intro issue hissue
  have hwarning := hwarnings issue hissue
  rw [Issue.isWarning_eq_not_isError] at hwarning
  exact hwarning (by simpa using herrors issue hissue)

section Component

variable (h : Orderly disk cwd config)
  (hpath : path ∈ Discovery.components disk config.root config.settings.componentRoots)
  {s : Schema} (hprops : Props.schemaOfFile (disk.toFiles cwd) config.root path = some s)
  {document text : String} {value : Json} {o : Scan.Occurrence}

include h hpath hprops

theorem reportsAt_eq (hcontent : contentAt disk cwd config document = .ok (text, value))
    (ho : o ∈ Scan.occurrences config.settings.discriminator
      (config.naming.identifierOf (Path.within config.root path)) value) :
    reportsAt disk cwd config ⟨document, o.location⟩ =
      let issues := s.validate config.mode "" (some (.object o.properties))
      if issues.isEmpty then []
      else [⟨Path.within config.blocksDir document, o.location.text,
        config.naming.identifierOf (Path.within config.root path), issues⟩] := by
  have hkind : config.naming.classify (config.naming.identifierOf (Path.within config.root path)) =
      .localComponent := Naming.classify_identifierOf_iff.2 (Naming.identifierOf_ne_sentinel h.conventional.sentinel _)
  have hlocal : config.naming.classify (config.naming.identifierOf (Path.within config.root path)) ≠
      .external := by
    rw [hkind]
    rintro ⟨⟩
  have hr := Scan.mem_references_of_mem_occurrences hlocal ho
  -- Locations are distinct, so this is the only reference at the place.
  have honly := filter_eq_singleton (Scan.nodup_locations config.naming config.settings.discriminator
    (distinctKeys_of_contentAt hcontent)) hr
  unfold reportsAt
  rw [hcontent]
  dsimp only at honly ⊢
  rw [honly, List.flatMap_singleton, reportsOf, Document.checkReference, if_neg (by simp [hkind])]
  exact checkComponent_of_props (h.locate_identifier hpath)
    ((props_surroundings_normalize _ _ _).trans hprops) _

theorem agrees (hdocument : document ∈ Discovery.documents disk config.blocksDir)
    (hcontent : contentAt disk cwd config document = .ok (text, value))
    (ho : o ∈ Scan.occurrences config.settings.discriminator
      (config.naming.identifierOf (Path.within config.root path)) value) (n : Nat) :
    Agrees disk cwd config (documents disk cwd config)
      (config.naming.identifierOf (Path.within config.root path)) ⟨document, o.location⟩
      (occurrenceResult config (Path.within config.blocksDir document) text
        (config.naming.identifierOf (Path.within config.root path)) (some s) (o, n)) := by
  have hreports := reportsAt_eq h hpath hprops hcontent ho
  dsimp only at hreports
  have hsilent : (s.validate config.mode "" (some (.object o.properties))).filter Issue.isError = [] →
      (s.validate config.mode "" (some (.object o.properties))).filter Issue.isWarning = [] →
        reportsAt disk cwd config ⟨document, o.location⟩ = [] := by
    intro herrors hwarnings
    rw [hreports, eq_nil_of_no_error_and_warning herrors hwarnings]
    rfl
  constructor
  · rfl
  · rfl
  · exact hsilent
  · intro herrors hwarnings report hreport _ hwritten
    exact exists_other_of_silent (hsilent herrors hwarnings) hreport hwritten
  · intro hissues
    have hne : (s.validate config.mode "" (some (.object o.properties))).isEmpty = false := by
      rw [List.isEmpty_eq_false_iff]
      intro hnil
      simp [occurrenceResult, occurrenceIssues, hnil] at hissues
    rw [if_neg (by simp [hne])] at hreports
    refine ⟨_, ?_, hreports, rfl, rfl, rfl, rfl, rfl⟩
    refine mem_reports_documents_iff.2 ⟨document, hdocument, Or.inr ⟨o.location, ?_⟩⟩
    rw [hreports]
    exact List.mem_singleton.2 rfl

theorem forall₂_agrees :
    List.Forall₂ (Agrees disk cwd config (documents disk cwd config)
        (config.naming.identifierOf (Path.within config.root path)))
      (places disk cwd config (config.naming.identifierOf (Path.within config.root path)))
      (unmarkedAt disk cwd config path).occurrences := by
  have hoccurrences : (unmarkedAt disk cwd config path).occurrences =
      (Discovery.documents disk config.blocksDir).flatMap fun document =>
        documentOccurrences config (config.naming.identifierOf (Path.within config.root path)) (some s)
          (LoadedDocument.load (disk.toFiles cwd) config.blocksDir document) := by
    rw [← hprops, ← List.flatMap_map]
    rfl
  rw [hoccurrences]
  apply forall₂_flatMap
  intro document hdocument
  rw [documentOccurrences_load]
  cases hcontent : contentAt disk cwd config document with
  | error problem => exact .nil
  | ok content =>
    apply forall₂_map_zipIdx
    intro item hitem
    exact agrees h hpath hprops hdocument hcontent (List.fst_mem_of_mem_zipIdx hitem) item.2

end Component

/-! ## Whole runs -/

def HasProps (disk : Disk) (cwd : String) (config : Config) (c : ComponentResult) : Prop :=
  (Props.schemaOfFile (disk.toFiles cwd) config.root (Path.append config.root c.file)).isSome = true

theorem isError_of_code {issue : Issue} (h : issue.problem.code = .documentParseError) :
    issue.isError = true := by
  obtain ⟨path, problem⟩ := issue
  cases problem with
  | unreadable reason => rfl
  | _ => cases h

theorem exists_of_mem_documentErrors {issue : DocumentIssue}
    (hissue : issue ∈ (whole disk cwd config).documentErrors) :
    ∃ path ∈ Discovery.documents disk config.blocksDir,
      contentAt disk cwd config path = .error issue.problem ∧
        issue.document = Path.within config.blocksDir path := by
  unfold whole componentsAt at hissue
  dsimp only at hissue
  rw [List.filterMap_map, List.mem_filterMap] at hissue
  obtain ⟨path, hpath, heq⟩ := hissue
  refine ⟨path, hpath, ?_⟩
  unfold contentAt
  dsimp only [Function.comp_apply, LoadedDocument.issue?] at heq
  split at heq
  · rename_i problem hcontent
    cases heq
    exact ⟨hcontent, rfl⟩
  · cases heq

theorem exists_report_of_mem_documentErrors {issue : DocumentIssue}
    (hissue : issue ∈ (whole disk cwd config).documentErrors) :
    ∃ report ∈ (documents disk cwd config).reports, report.file = issue.document ∧
      ∃ i ∈ report.errors, i.problem.code = .documentParseError ∧
        i.problem.message = issue.message := by
  obtain ⟨path, hpath, hcontent, hdocument⟩ := exists_of_mem_documentErrors hissue
  have hcode := code_of_contentAt hcontent
  refine ⟨_, mem_reports_documents_iff.2 ⟨path, hpath, Or.inl ⟨_, hcontent, rfl⟩⟩, hdocument.symm, ?_⟩
  refine ⟨⟨"", issue.problem⟩, ?_, hcode, rfl⟩
  exact List.mem_filter.2 ⟨List.mem_singleton.2 rfl, isError_of_code hcode⟩

theorem errors_eq_nil_of_ok (hok : (documents disk cwd config).ok = true)
    (hreport : report ∈ (documents disk cwd config).reports) : report.errors = [] := by
  unfold DocumentLint.ok at hok
  exact List.isEmpty_iff.1 (List.all_eq_true.1 hok report hreport)

section Orderly

variable (h : Orderly disk cwd config)

include h

theorem hasProps_iff (hfound : path ∈ Discovery.components disk config.root config.settings.componentRoots) :
    HasProps disk cwd config (unmarkedAt disk cwd config path) ↔
      ∃ s, Props.schemaOfFile (disk.toFiles cwd) config.root path = some s := by
  obtain ⟨root, -, hnames⟩ := Discovery.names_of_mem_components h.sound h.absolute hfound
  have hfile : (unmarkedAt disk cwd config path).file = Path.within config.root path := rfl
  unfold HasProps
  rw [hfile, Props.schemaOfFile_congr (Path.normalize_append_within h.absolute hnames.absolute),
    Option.isSome_iff_exists]

theorem forall₂_agrees_of_hasProps (hc : c ∈ (whole disk cwd config).components)
    (hprops : HasProps disk cwd config c) :
    List.Forall₂ (Agrees disk cwd config (documents disk cwd config) c.identifier)
      (places disk cwd config c.identifier) c.occurrences := by
  obtain ⟨path, hpath, rfl⟩ := exists_path_of_mem hc
  have hfound := (List.mem_filter.1 hpath).1
  unfold HasProps at hprops
  rw [file_markUnused] at hprops
  rw [occurrences_markUnused, identifier_markUnused]
  obtain ⟨s, hs⟩ := (hasProps_iff h hfound).1 hprops
  exact forall₂_agrees h hfound hs

theorem errors_eq_nil_of_not_hasProps (hc : c ∈ (whole disk cwd config).components)
    (hprops : ¬HasProps disk cwd config c) {o : OccurrenceResult} (ho : o ∈ c.occurrences) :
    o.errors = [] := by
  obtain ⟨path, hpath, rfl⟩ := exists_path_of_mem hc
  have hfound := (List.mem_filter.1 hpath).1
  unfold HasProps at hprops
  rw [file_markUnused] at hprops
  rw [occurrences_markUnused] at ho
  have hnone : Props.schemaOfFile (disk.toFiles cwd) config.root path = none := by
    rw [Option.eq_none_iff_forall_ne_some]
    exact fun s hs => hprops ((hasProps_iff h hfound).2 ⟨s, hs⟩)
  obtain ⟨document, text, item, rfl⟩ := exists_of_mem_occurrences ho
  rw [hnone]
  rfl

theorem errors_occurrence_eq_nil (hok : (documents disk cwd config).ok = true)
    (hc : c ∈ (whole disk cwd config).components) {o : OccurrenceResult} (ho : o ∈ c.occurrences) :
    o.errors = [] := by
  by_cases hprops : HasProps disk cwd config c
  · have hagrees := forall₂_agrees_of_hasProps h hc hprops
    obtain ⟨place, hplace⟩ := exists_of_mem_right hagrees ho
    by_contra herrors
    obtain ⟨report, hreport, -, -, -, -, hsame, -⟩ := hplace.reported (Or.inl herrors)
    rw [errors_eq_nil_of_ok hok hreport] at hsame
    exact herrors hsame.symm
  · exact errors_eq_nil_of_not_hasProps h hc hprops ho

theorem components_ok_of_documents_ok (hok : (documents disk cwd config).ok = true) :
    (whole disk cwd config).ok = true := by
  have hdocuments : (whole disk cwd config).documentErrors = [] := by
    rw [List.eq_nil_iff_forall_not_mem]
    intro issue hissue
    obtain ⟨report, hreport, -, i, hi, -⟩ := exists_report_of_mem_documentErrors hissue
    rw [errors_eq_nil_of_ok hok hreport] at hi
    cases hi
  have hcomponents : ∀ c ∈ (whole disk cwd config).components, c.errors = [] := by
    intro c hc
    have hissues := issues_eq hc
    unfold ComponentResult.errors
    rw [List.append_eq_nil_iff, List.flatMap_eq_nil_iff]
    refine ⟨?_, fun o ho => errors_occurrence_eq_nil h hok hc ho⟩
    rw [hissues]
    split <;> rfl
  unfold ComponentLint.ok ComponentLint.errorCount
  rw [hdocuments, List.flatMap_eq_nil_iff.2 hcomponents]
  rfl

end Orderly

/-- In an orderly project, each occurrence of a component with props is reported by a run over
documents just as a run over components has it, and where the one finds nothing the other is silent. A
document that the one cannot read is an error of the other. So the run over components is ok if the run
over documents is. This is so if both runs come to an end, and what stops each of them is told. -/
theorem components_agree_with_documents (componentRoom : Nat) (room : Nat → Nat) (disk : Disk) (cwd : String)
    (config : Config) (h : Orderly disk cwd config) :
    (∀ lint found, runComponents componentRoom disk cwd config none = .ok (some lint) →
      runDocuments room disk cwd config = .ok found →
      (∀ c ∈ lint.components, HasProps disk cwd config c →
        List.Forall₂ (Agrees disk cwd config found c.identifier) (places disk cwd config c.identifier)
          c.occurrences) ∧
      (∀ issue ∈ lint.documentErrors, ∃ report ∈ found.reports,
        report.file = issue.document ∧ ∃ i ∈ report.errors,
          i.problem.code = .documentParseError ∧ i.problem.message = issue.message) ∧
      (found.ok = true → lint.ok = true)) ∧
    ((∃ lint, runComponents componentRoom disk cwd config none = .ok (some lint)) ↔
      ∀ path ∈ Discovery.documents disk config.blocksDir, ¬StopsComponents componentRoom disk cwd path) ∧
    ((∃ found, runDocuments room disk cwd config = .ok found) ↔
      ∀ path ∈ Discovery.documents disk config.blocksDir, ¬StopsDocuments room disk cwd config path) := by
  refine ⟨fun lint found hlint hfound => ?_, ?_, exists_runDocuments_eq_ok_iff⟩
  · obtain rfl := runDocuments_eq_ok hfound
    obtain rfl := Option.some.inj ((components_none disk cwd config).symm.trans (components_eq_of_runComponents hlint))
    refine ⟨?_, ?_, components_ok_of_documents_ok h⟩
    · exact fun c hc hprops => forall₂_agrees_of_hasProps h hc hprops
    · exact fun issue hissue => exists_report_of_mem_documentErrors hissue
  · rw [exists_runComponents_eq_ok_iff, components_none]
    exact and_iff_right rfl

/-! ## A header without its title -/

def headerDisk : Disk where
  files := [("/p/b/home.json",
      "\x7b\"__resolveType\":\"site/sections/Header.tsx\",\"title\":1\x7d".toUTF8.toList),
    ("/p/sections/Header.tsx", "export interface Props \x7b title: string \x7d".toUTF8.toList)]
  directories := ["/", "/p", "/p/b", "/p/sections"]

def headerConfig : Config := ⟨"/p", "/p/b", {}⟩

/-- Beside the page a document refers to a block that has no file name. -/
def halfHeaderDisk : Disk where
  files := headerDisk.files ++ [("/p/b/Half.json", halfText.toUTF8.toList)]
  directories := headerDisk.directories

theorem orderly_header : Orderly headerDisk "/" headerConfig := by
  have hconfig : Config.forProject headerDisk "/" "/p" (some "b") {} = .ok headerConfig := rfl
  refine orderly_of_forProject ?_ hconfig (conventional_of_default rfl rfl rfl rfl) ?_
  · constructor <;> decide +kernel
  · decide +kernel

theorem orderly_halfHeader : Orderly halfHeaderDisk "/" headerConfig := by
  have hconfig : Config.forProject halfHeaderDisk "/" "/p" (some "b") {} = .ok headerConfig := rfl
  refine orderly_of_forProject ?_ hconfig (conventional_of_default rfl rfl rfl rfl) ?_
  · constructor <;> decide +kernel
  · decide +kernel

theorem not_stopsComponents_header : ∀ disk ∈ [headerDisk, halfHeaderDisk],
    ∀ path ∈ Discovery.documents disk headerConfig.blocksDir, ¬StopsComponents 100 disk "/" path := by
  have hroom : ∀ disk ∈ [headerDisk, halfHeaderDisk],
      ∀ path ∈ Discovery.unsortedDocuments disk headerConfig.blocksDir, ¬StopsComponents 100 disk "/" path := by
    decide +kernel
  exact fun disk hdisk path hpath => hroom disk hdisk path (Discovery.mem_unsortedDocuments_iff.2 hpath)

theorem not_stopsDocuments_header : ∀ path ∈ Discovery.documents headerDisk headerConfig.blocksDir,
    ¬StopsDocuments (fun _ => 100) headerDisk "/" headerConfig path := by
  intro path hpath
  have hnames : ∀ name ∈ referredBlocks headerDisk "/" headerConfig, Text.Surrogate.isUnencodable name = false := by
    decide +kernel
  exact not_stopsDocuments (by decide) (fun _ => not_stopsComponents_header _ (by simp)) hnames hpath

theorem stopsDocuments_halfHeader :
    "/p/b/Half.json" ∈ Discovery.documents halfHeaderDisk headerConfig.blocksDir ∧
      StopsDocuments (fun _ => 100) halfHeaderDisk "/" headerConfig "/p/b/Half.json" := by
  have htext : (halfHeaderDisk.toFiles "/").text ((halfHeaderDisk.toFiles "/").key "/p/b/Half.json") =
      .ok halfText := by decide +kernel
  exact ⟨Discovery.mem_unsortedDocuments_iff.1 (by decide +kernel),
    stopsDocuments_of_unencodable htext (by decide +kernel)⟩

theorem exists_occurrence_header {lint : ComponentLint}
    (hlint : components headerDisk "/" headerConfig none = some lint) :
    ∃ c ∈ lint.components, HasProps headerDisk "/" headerConfig c ∧ c.identifier = "site/sections/Header.tsx" ∧
      ∃ o ∈ c.occurrences, o.document = "home.json" ∧ o.path = "root" ∧
        o.errors = [⟨"title", .mismatch "string" .number⟩] := by
  cases hlint
  have hpath : "/p/sections/Header.tsx" ∈ lintedPaths headerDisk headerConfig := by decide +kernel
  have hc : markUnused (unusedIdentifiers headerConfig.settings (unmarked headerDisk "/" headerConfig))
      (unmarkedAt headerDisk "/" headerConfig "/p/sections/Header.tsx") ∈
        (whole headerDisk "/" headerConfig).components := by
    rw [components_whole]
    exact List.mem_map_of_mem (List.mem_map_of_mem hpath)
  have hrun : (unmarkedAt headerDisk "/" headerConfig "/p/sections/Header.tsx").occurrences.map
      (fun o => (o.document, o.path, o.errors)) =
        [("home.json", "root", [⟨"title", .mismatch "string" .number⟩])] := by decide +kernel
  obtain ⟨o, hoccurrences, ho⟩ := List.map_eq_singleton_iff.1 hrun
  obtain ⟨hdocument, ho⟩ := Prod.mk.inj ho
  obtain ⟨hplace, herrors⟩ := Prod.mk.inj ho
  refine ⟨_, hc, ?_, ?_, o, ?_, hdocument, hplace, herrors⟩
  · unfold HasProps
    rw [file_markUnused]
    decide +kernel
  · rw [identifier_markUnused]
    decide +kernel
  · rw [occurrences_markUnused, hoccurrences]
    exact List.mem_singleton.2 rfl

/-- The title is a number, and both runs say so. The document beside the page stops only one of them. -/
theorem header_reported_by_documents :
    Orderly headerDisk "/" headerConfig ∧ Orderly halfHeaderDisk "/" headerConfig ∧
    (∃ found, runDocuments (fun _ => 100) headerDisk "/" headerConfig = .ok found ∧
      ∃ report ∈ found.reports, report.file = "home.json" ∧ report.path = "root" ∧
        report.identifier = "site/sections/Header.tsx" ∧
          report.errors = [⟨"title", .mismatch "string" .number⟩]) ∧
    (∃ lint, runComponents 100 halfHeaderDisk "/" headerConfig none = .ok (some lint)) ∧
    ¬∃ found, runDocuments (fun _ => 100) halfHeaderDisk "/" headerConfig = .ok found := by
  obtain ⟨hagree, hcomponents, hdocuments⟩ :=
    components_agree_with_documents 100 (fun _ => 100) headerDisk "/" headerConfig orderly_header
  obtain ⟨-, hcomponents', hdocuments'⟩ :=
    components_agree_with_documents 100 (fun _ => 100) halfHeaderDisk "/" headerConfig orderly_halfHeader
  refine ⟨orderly_header, orderly_halfHeader, ?_, hcomponents'.2 (not_stopsComponents_header _ (by simp)), ?_⟩
  · obtain ⟨lint, hlint⟩ := hcomponents.2 (not_stopsComponents_header _ (by simp))
    obtain ⟨found, hfound⟩ := hdocuments.2 not_stopsDocuments_header
    obtain ⟨hplaces, -, -⟩ := hagree lint found hlint hfound
    obtain ⟨c, hc, hprops, hidentifier, o, ho, hdocument, hpath, herrors⟩ :=
      exists_occurrence_header (components_eq_of_runComponents hlint)
    obtain ⟨place, hplace⟩ := exists_of_mem_right (hplaces c hc hprops) ho
    obtain ⟨report, hreport, -, hreportFile, hreportPath, hreportIdentifier, hreportErrors, -⟩ :=
      hplace.reported (Or.inl (by simp [herrors]))
    exact ⟨found, hfound, report, hreport, hreportFile.trans hdocument, hreportPath.trans hpath,
      hreportIdentifier.trans hidentifier, hreportErrors.trans herrors⟩
  · intro hfound
    obtain ⟨hpath, hstops⟩ := stopsDocuments_halfHeader
    exact hdocuments'.1 hfound _ hpath hstops

end BlockCheck.Lint
