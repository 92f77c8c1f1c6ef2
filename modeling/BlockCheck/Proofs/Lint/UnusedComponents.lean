import BlockCheck.Lint.Components
import BlockCheck.Proofs.Scan.Mentions
import BlockCheck.Proofs.Schema.Codes

/-!
# Unused components

A run over all components flags those as unused that no document mentions, that no source file
imports, and that may be unused at all. What counts is the identifier that the path of a component
gives. Two components with one identifier have one path, so the flag of a component depends on
nothing but that component.
-/

namespace BlockCheck

theorem Usage.mem_unused_iff {used known excluded : List String} {identifier : String} :
    identifier ∈ unused used known excluded ↔
      identifier ∈ known ∧ identifier ∉ used ∧ identifier ∉ excluded := by
  unfold unused Text.sorted
  rw [List.mem_mergeSort, List.mem_eraseDups, List.mem_filter]
  simp

theorem Naming.identifierOf_inj {naming : Naming} {a b : String} :
    naming.identifierOf a = naming.identifierOf b ↔ a = b := by
  unfold identifierOf
  exact String.append_right_inj _

namespace Lint

variable {disk : Disk} {cwd : String} {config : Config} {path : String} {identifiers : List String}
  {c : ComponentResult}

def IsDocument (disk : Disk) (cwd : String) (config : Config) (value : Json) : Prop :=
  let files := disk.toFiles cwd
  ∃ path ∈ Discovery.documents disk config.blocksDir, ∃ text,
    files.text (files.key path) = .ok text ∧ Json.parse text = .ok value

def Mentioned (disk : Disk) (cwd : String) (config : Config) (identifier : String) : Prop :=
  ∃ value, IsDocument disk cwd config value ∧
    Scan.Mentions config.settings.discriminator identifier value

/-- The file, without its extension, is among the modules that the source files import. -/
def IsImported (disk : Disk) (config : Config) (file : String) : Prop :=
  Imports.withoutExtension (Path.withSlashes file) ∈
    (Imports.analyze disk config.root config.settings.localPrefix).modules

/-! ## Documents -/

def loaded (disk : Disk) (cwd : String) (config : Config) : List LoadedDocument :=
  (Discovery.documents disk config.blocksDir).map
    (LoadedDocument.load (disk.toFiles cwd) config.blocksDir)

theorem content_load_iff {files : Files} {blocks text : String} {value : Json} :
    (LoadedDocument.load files blocks path).content = .ok (text, value) ↔
      files.text (files.key path) = .ok text ∧ Json.parse text = .ok value := by
  unfold LoadedDocument.load
  cases files.text (files.key path) with
  | error fault => simp
  | ok content =>
    dsimp only
    cases hparse : Json.parse content with
    | error reason =>
      refine iff_of_false (by rintro ⟨⟩) ?_
      rintro ⟨heq, h⟩
      cases heq
      cases hparse.symm.trans h
    | ok document =>
      constructor
      · intro h
        cases h
        exact ⟨rfl, hparse⟩
      · rintro ⟨heq, h⟩
        cases heq
        cases hparse.symm.trans h
        rfl

theorem isDocument_iff {value : Json} :
    IsDocument disk cwd config value ↔
      ∃ document ∈ loaded disk cwd config, ∃ text, document.content = .ok (text, value) := by
  unfold IsDocument loaded
  simp only [List.mem_map, exists_exists_and_eq_and, content_load_iff]

def occurrenceResult (config : Config) (document text identifier : String) (props : Option Schema)
    (item : Scan.Occurrence × Nat) : OccurrenceResult where
  document := document
  path := item.1.location.text
  line := Text.pairLine? text config.settings.discriminator identifier item.2
  errors := (occurrenceIssues config.mode props item.1).filter Issue.isError
  warnings := (occurrenceIssues config.mode props item.1).filter Issue.isWarning

theorem documentOccurrences_eq (config : Config) (identifier : String) (props : Option Schema)
    (document : LoadedDocument) :
    documentOccurrences config identifier props document = match document.content with
      | .error _ => []
      | .ok (text, value) => (Scan.occurrences config.settings.discriminator identifier value).zipIdx.map
          (occurrenceResult config document.name text identifier props) := rfl

theorem documentOccurrences_eq_nil_iff {identifier : String} {props : Option Schema}
    {document : LoadedDocument} :
    documentOccurrences config identifier props document = [] ↔
      ∀ text value, document.content = .ok (text, value) →
        ¬Scan.Mentions config.settings.discriminator identifier value := by
  rw [documentOccurrences_eq]
  cases hcontent : document.content with
  | error problem => simp
  | ok content =>
    obtain ⟨text, value⟩ := content
    simp only [List.map_eq_nil_iff, List.zipIdx_eq_nil_iff, Scan.occurrences_eq_nil_iff]
    constructor
    · intro h text value heq
      cases heq
      exact h
    · intro h
      exact h text value rfl

/-! ## Components before they are marked -/

def unmarkedAt (disk : Disk) (cwd : String) (config : Config) (path : String) : ComponentResult :=
  component config (disk.toFiles cwd) (loaded disk cwd config)
    (some (Imports.analyze disk config.root config.settings.localPrefix)) path

theorem occurrences_unmarkedAt :
    (unmarkedAt disk cwd config path).occurrences = [] ↔
      ¬Mentioned disk cwd config (unmarkedAt disk cwd config path).identifier := by
  unfold unmarkedAt component Mentioned
  simp only [List.flatMap_eq_nil_iff, documentOccurrences_eq_nil_iff, isDocument_iff]
  constructor
  · rintro h ⟨value, ⟨document, hdocument, text, hcontent⟩, hmentions⟩
    exact h document hdocument text value hcontent hmentions
  · intro h document hdocument text value hcontent hmentions
    exact h ⟨value, ⟨document, hdocument, text, hcontent⟩, hmentions⟩

theorem imported_unmarkedAt :
    (unmarkedAt disk cwd config path).imported = true ↔
      ¬Mentioned disk cwd config (unmarkedAt disk cwd config path).identifier ∧
        IsImported disk config (unmarkedAt disk cwd config path).file := by
  rw [← occurrences_unmarkedAt, ← List.isEmpty_iff]
  unfold IsImported
  rw [← List.contains_iff_mem]
  exact Bool.and_eq_true_iff

theorem code_ne_of_mem_occurrenceIssues {mode : Mode} {props : Option Schema} {o : Scan.Occurrence}
    {issue : Issue} (h : issue ∈ occurrenceIssues mode props o) :
    issue.problem.code ≠ .unusedComponent := by
  cases props with
  | none =>
    rw [occurrenceIssues, List.mem_singleton] at h
    rw [h]
    decide
  | some s =>
    have hcode := Schema.code_mem_of_mem_validate h
    intro heq
    rw [heq] at hcode
    exact absurd hcode (by decide)

theorem code_ne_of_mem_occurrenceResult {document text identifier : String} {props : Option Schema}
    {item : Scan.Occurrence × Nat} {issue : Issue}
    (h : issue ∈ (occurrenceResult config document text identifier props item).errors ∨
      issue ∈ (occurrenceResult config document text identifier props item).warnings) :
    issue.problem.code ≠ .unusedComponent := by
  simp only [occurrenceResult, List.mem_filter] at h
  rcases h with ⟨hmem, -⟩ | ⟨hmem, -⟩
  · exact code_ne_of_mem_occurrenceIssues hmem
  · exact code_ne_of_mem_occurrenceIssues hmem

theorem exists_of_mem_occurrences {o : OccurrenceResult}
    (ho : o ∈ (unmarkedAt disk cwd config path).occurrences) :
    ∃ document text item, o = occurrenceResult config document text
      (unmarkedAt disk cwd config path).identifier
      (Props.schemaOfFile (disk.toFiles cwd) config.root path) item := by
  obtain ⟨document, -, ho⟩ := List.mem_flatMap.1 ho
  rw [documentOccurrences_eq] at ho
  cases hcontent : document.content with
  | error problem =>
    rw [hcontent] at ho
    cases ho
  | ok content =>
    rw [hcontent] at ho
    obtain ⟨item, -, rfl⟩ := List.mem_map.1 ho
    exact ⟨_, _, item, rfl⟩

/-! ## Which identifiers are unused -/

/-- Whether an identifier is unused can be seen from any one component that has it, as long as the
components that share it are alike. -/
theorem mem_unusedIdentifiers_iff {settings : Settings} {components : List ComponentResult}
    (hc : c ∈ components)
    (halike : ∀ c' ∈ components, c'.identifier = c.identifier →
      c'.file = c.file ∧ (c'.occurrences = [] ↔ c.occurrences = []) ∧ c'.imported = c.imported) :
    c.identifier ∈ unusedIdentifiers settings components ↔
      c.occurrences = [] ∧ c.imported = false ∧ settings.mayBeUnused c.file = true := by
  have hknown : c.identifier ∈ components.map (·.identifier) := List.mem_map_of_mem hc
  -- An identifier may be in a list because of any component that has it.
  have hused : c.identifier ∈
      (components.filter fun c => !c.occurrences.isEmpty || c.imported).map (·.identifier) ↔
        ¬(c.occurrences = [] ∧ c.imported = false) := by
    simp only [List.mem_map, List.mem_filter, Bool.or_eq_true, Bool.not_eq_true',
      List.isEmpty_eq_false_iff]
    constructor
    · rintro ⟨c', ⟨hc', hhere⟩, heq⟩ ⟨hoccurrences, himported⟩
      obtain ⟨-, hsame, hsameImported⟩ := halike c' hc' heq
      rcases hhere with h | h
      · exact h (hsame.2 hoccurrences)
      · rw [hsameImported, himported] at h
        cases h
    · intro h
      refine ⟨c, ⟨hc, ?_⟩, rfl⟩
      by_cases hoccurrences : c.occurrences = []
      · exact Or.inr (by simpa using fun himported => h ⟨hoccurrences, himported⟩)
      · exact Or.inl hoccurrences
  have hkept : c.identifier ∈
      (components.filter fun c => !settings.mayBeUnused c.file).map (·.identifier) ↔
        settings.mayBeUnused c.file = false := by
    simp only [List.mem_map, List.mem_filter, Bool.not_eq_true']
    constructor
    · rintro ⟨c', ⟨hc', hhere⟩, heq⟩
      rwa [(halike c' hc' heq).1] at hhere
    · intro h
      exact ⟨c, ⟨hc, h⟩, rfl⟩
  unfold unusedIdentifiers
  rw [Usage.mem_unused_iff, hused, hkept, not_not, Bool.not_eq_false, and_assoc]
  exact and_iff_right hknown

/-! ## Marking -/

section Marking

@[simp] theorem file_markUnused : (markUnused identifiers c).file = c.file := by
  unfold markUnused
  split <;> rfl

@[simp] theorem identifier_markUnused : (markUnused identifiers c).identifier = c.identifier := by
  unfold markUnused
  split <;> rfl

@[simp] theorem occurrences_markUnused : (markUnused identifiers c).occurrences = c.occurrences := by
  unfold markUnused
  split <;> rfl

@[simp] theorem imported_markUnused : (markUnused identifiers c).imported = c.imported := by
  unfold markUnused
  split <;> rfl

theorem unused_markUnused_iff (h : c.unused = false) :
    (markUnused identifiers c).unused = true ↔ c.identifier ∈ identifiers := by
  unfold markUnused
  split
  · rename_i hmem
    exact iff_of_true rfl (List.contains_iff_mem.1 hmem)
  · rename_i hmem
    exact iff_of_false (by simp [h]) (mt List.contains_iff_mem.2 hmem)

theorem issues_markUnused (h : c.issues = []) (hunused : c.unused = false) :
    (markUnused identifiers c).issues =
      if (markUnused identifiers c).unused = true then [⟨"", .unused⟩] else [] := by
  unfold markUnused
  split
  · simp [h]
  · simp [h, hunused]

end Marking

/-! ## A run over all components -/

def lintedPaths (disk : Disk) (config : Config) : List String :=
  (Discovery.components disk config.root config.settings.componentRoots).filter
    fun path => !config.settings.isExcluded (Path.within config.root path)

def unmarked (disk : Disk) (cwd : String) (config : Config) : List ComponentResult :=
  (lintedPaths disk config).map (unmarkedAt disk cwd config)

def whole (disk : Disk) (cwd : String) (config : Config) : ComponentLint :=
  componentsAt disk cwd config
    (Discovery.components disk config.root config.settings.componentRoots) true

theorem components_none (disk : Disk) (cwd : String) (config : Config) :
    components disk cwd config none = some (whole disk cwd config) := rfl

theorem components_whole (disk : Disk) (cwd : String) (config : Config) :
    (whole disk cwd config).components = (unmarked disk cwd config).map
      (markUnused (unusedIdentifiers config.settings (unmarked disk cwd config))) := rfl

theorem exists_path_of_mem (hc : c ∈ (whole disk cwd config).components) :
    ∃ path ∈ lintedPaths disk config, c =
      markUnused (unusedIdentifiers config.settings (unmarked disk cwd config))
        (unmarkedAt disk cwd config path) := by
  rw [components_whole, unmarked, List.map_map, List.mem_map] at hc
  obtain ⟨path, hpath, rfl⟩ := hc
  exact ⟨path, hpath, rfl⟩

theorem mem_unusedIdentifiers_unmarked_iff (hpath : path ∈ lintedPaths disk config) :
    (unmarkedAt disk cwd config path).identifier ∈
        unusedIdentifiers config.settings (unmarked disk cwd config) ↔
      ¬Mentioned disk cwd config (unmarkedAt disk cwd config path).identifier ∧
        ¬IsImported disk config (unmarkedAt disk cwd config path).file ∧
        config.settings.mayBeUnused (unmarkedAt disk cwd config path).file = true := by
  have hmem : unmarkedAt disk cwd config path ∈ unmarked disk cwd config := List.mem_map_of_mem hpath
  rw [mem_unusedIdentifiers_iff hmem, occurrences_unmarkedAt, ← Bool.not_eq_true, imported_unmarkedAt]
  · tauto
  · intro c' hc' heq
    obtain ⟨path', -, rfl⟩ := List.mem_map.1 hc'
    -- The identifier of a component is its path behind a fixed beginning.
    have hfile : (unmarkedAt disk cwd config path').file = (unmarkedAt disk cwd config path).file :=
      Naming.identifierOf_inj.1 heq
    refine ⟨hfile, ?_, ?_⟩
    · rw [occurrences_unmarkedAt, occurrences_unmarkedAt, heq]
    · rw [Bool.eq_iff_iff, imported_unmarkedAt, imported_unmarkedAt, heq, hfile]

section Whole

variable (hc : c ∈ (whole disk cwd config).components)

include hc

theorem unused_iff :
    c.unused = true ↔ ¬Mentioned disk cwd config c.identifier ∧ ¬IsImported disk config c.file ∧
      config.settings.mayBeUnused c.file = true := by
  obtain ⟨path, hpath, rfl⟩ := exists_path_of_mem hc
  rw [unused_markUnused_iff rfl, mem_unusedIdentifiers_unmarked_iff hpath, identifier_markUnused,
    file_markUnused]

theorem occurrences_iff : c.occurrences = [] ↔ ¬Mentioned disk cwd config c.identifier := by
  obtain ⟨path, -, rfl⟩ := exists_path_of_mem hc
  rw [occurrences_markUnused, identifier_markUnused, occurrences_unmarkedAt]

theorem imported_iff :
    c.imported = true ↔
      ¬Mentioned disk cwd config c.identifier ∧ IsImported disk config c.file := by
  obtain ⟨path, -, rfl⟩ := exists_path_of_mem hc
  rw [imported_markUnused, identifier_markUnused, file_markUnused, imported_unmarkedAt]

theorem issues_eq : c.issues = if c.unused = true then [⟨"", .unused⟩] else [] := by
  obtain ⟨path, -, rfl⟩ := exists_path_of_mem hc
  exact issues_markUnused rfl rfl

theorem code_ne_of_mem_occurrence {o : OccurrenceResult} (ho : o ∈ c.occurrences) {issue : Issue}
    (hissue : issue ∈ o.errors ∨ issue ∈ o.warnings) : issue.problem.code ≠ .unusedComponent := by
  obtain ⟨path, -, rfl⟩ := exists_path_of_mem hc
  rw [occurrences_markUnused] at ho
  obtain ⟨document, text, item, rfl⟩ := exists_of_mem_occurrences ho
  exact code_ne_of_mem_occurrenceResult hissue

theorem exists_unusedComponent_iff :
    (∃ issue ∈ c.errors ++ c.warnings, issue.problem.code = .unusedComponent) ↔ c.unused = true := by
  have hissues := issues_eq hc
  unfold ComponentResult.errors ComponentResult.warnings
  constructor
  · rintro ⟨issue, hissue, hcode⟩
    by_contra hunused
    rw [hissues, if_neg hunused] at hissue
    simp only [List.filter_nil, List.nil_append, List.mem_append, List.mem_flatMap] at hissue
    rcases hissue with ⟨o, ho, h⟩ | ⟨o, ho, h⟩
    · exact code_ne_of_mem_occurrence hc ho (Or.inl h) hcode
    · exact code_ne_of_mem_occurrence hc ho (Or.inr h) hcode
  · intro hunused
    refine ⟨⟨"", .unused⟩, ?_, rfl⟩
    rw [hissues, if_pos hunused]
    simp [Issue.isWarning, Issue.severity, Problem.severity]

theorem of_unused (hunused : c.unused = true) :
    c.occurrences = [] ∧ c.errors = [] ∧ c.warnings = [⟨"", .unused⟩] := by
  have hissues := issues_eq hc
  have hoccurrences := (occurrences_iff hc).2 ((unused_iff hc).1 hunused).1
  unfold ComponentResult.errors ComponentResult.warnings
  rw [hissues, if_pos hunused, hoccurrences]
  exact ⟨rfl, rfl, rfl⟩

end Whole

/-- A component is flagged as unused if and only if no document mentions it, no source file imports it
and it may be unused. It is said to be imported if that is its only use. An unused component has a
warning that says so and nothing else. -/
theorem components_flags_iff (disk : Disk) (cwd : String) (config : Config) :
    ∃ lint, components disk cwd config none = some lint ∧
      (∀ c ∈ lint.components,
        (c.unused = true ↔ ¬Mentioned disk cwd config c.identifier ∧
          ¬IsImported disk config c.file ∧ config.settings.mayBeUnused c.file = true) ∧
        (c.imported = true ↔
          ¬Mentioned disk cwd config c.identifier ∧ IsImported disk config c.file) ∧
        ((∃ issue ∈ c.errors ++ c.warnings, issue.problem.code = .unusedComponent) ↔
          c.unused = true) ∧
        (c.unused = true → c.occurrences = [] ∧ c.errors = [] ∧ c.warnings = [⟨"", .unused⟩])) ∧
      lint.unused = (lint.components.filter (·.unused)).map (·.file) := by
  refine ⟨whole disk cwd config, components_none disk cwd config, fun c hc => ?_, rfl⟩
  exact ⟨unused_iff hc, imported_iff hc, exists_unusedComponent_iff hc, of_unused hc⟩

end Lint

end BlockCheck
