import BlockCheck.Proofs.Blocks.Reach
import BlockCheck.Proofs.Lint.Failures
import BlockCheck.Proofs.Schema.Modes

/-!
# Reporting unused properties

To report the properties that a component does not declare adds no failure to a run, unless
something that the run checks hinges on unknown keys. Then it does.
-/

namespace BlockCheck

def Config.reporting (config : Config) (unused : Bool) : Config :=
  { config with settings := { config.settings with reportUnusedProperties := unused } }

namespace Document

def inMode (around : Surroundings) (mode : Mode) : Surroundings := { around with mode := mode }

def propsOf (around : Surroundings) (r : Scan.Reference) : Option Schema :=
  (around.locate r.identifier).bind around.props

def HingesIn (around : Surroundings) (text : String) : Prop :=
  ∃ r ∈ references around text, r.kind ≠ .savedBlock ∧
    ∃ s ∈ propsOf around r, s.Hinges (.object r.properties)

variable {around : Surroundings} {file : String} {inProgress : List String} {r : Scan.Reference}

theorem failures_checkComponent_of_props {source : String} {s : Schema}
    (hlocate : around.locate r.identifier = some source) (hprops : around.props source = some s) :
    (checkComponent around file r).failures =
      ((s.validate around.mode "" (some (.object r.properties))).filter Issue.isError).map
        (Failure.mk file r.location.text r.identifier) := by
  simp only [checkComponent, hlocate, hprops, Outcome.failures]
  split
  · rename_i hempty
    rw [List.isEmpty_iff.1 hempty]
    rfl
  · simp [Report.failures, Report.errors]

theorem failures_checkComponent (around : Surroundings) (file : String) (r : Scan.Reference) :
    WholeIff (checkComponent (inMode around .lenient) file r).failures
      (checkComponent (inMode around .strict) file r).failures
      (∀ s ∈ propsOf around r, ¬s.Hinges (.object r.properties)) := by
  cases hlocate : around.locate r.identifier with
  | none =>
    simp only [checkComponent, inMode, propsOf, hlocate]
    exact .of_true _ (by rintro _ ⟨⟩)
  | some source =>
    cases hprops : around.props source with
    | none =>
      simp only [checkComponent, inMode, propsOf, hlocate, hprops, Option.bind_some]
      exact .of_true _ (by rintro _ ⟨⟩)
    | some s =>
      have hfailures (mode : Mode) : (checkComponent (inMode around mode) file r).failures =
          ((s.validate mode "" (some (.object r.properties))).filter Issue.isError).map
            (Failure.mk file r.location.text r.identifier) :=
        failures_checkComponent_of_props hlocate hprops
      rw [hfailures, hfailures]
      refine ((Schema.errors_validate "" s _).map _).congr ?_
      simp [propsOf, hlocate, hprops]

theorem failures_checkBlock {P : String → Prop}
    (h : r.identifier ∉ inProgress → ∀ content, around.blocks.read r.identifier = some (.ok content) →
      WholeIff (check (inMode around .lenient) file (r.identifier :: inProgress) content).failures
        (check (inMode around .strict) file (r.identifier :: inProgress) content).failures
        (P content)) :
    WholeIff (checkBlock (inMode around .lenient) file inProgress r).failures
      (checkBlock (inMode around .strict) file inProgress r).failures
      (r.identifier ∉ inProgress → ∀ content,
        around.blocks.read r.identifier = some (.ok content) → P content) := by
  by_cases hfree : r.identifier ∈ inProgress
  · rw [checkBlock_of_mem (inMode around .lenient) file hfree,
      checkBlock_of_mem (inMode around .strict) file hfree]
    exact .of_true _ (absurd hfree)
  · rcases hread : around.blocks.read r.identifier with _ | fault | content
    · rw [checkBlock_of_none (inMode around .lenient) file hfree hread,
        checkBlock_of_none (inMode around .strict) file hfree hread]
      exact .of_true _ (by rintro _ _ ⟨⟩)
    · rw [checkBlock_of_error (inMode around .lenient) file hfree hread,
        checkBlock_of_error (inMode around .strict) file hfree hread]
      exact .of_true _ (by rintro _ _ ⟨⟩)
    · rw [checkBlock_of_ok (inMode around .lenient) file hfree hread,
        checkBlock_of_ok (inMode around .strict) file hfree hread]
      simp only [Outcome.failures_append, Outcome.failures_inside]
      refine (((h hfree content hread).map _).append_left _).congr ?_
      simp [hfree]

theorem failures_check (around : Surroundings) (file : String) (inProgress : List String)
    (text : String) :
    WholeIff (check (inMode around .lenient) file inProgress text).failures
      (check (inMode around .strict) file inProgress text).failures
      (∀ content, Visits around inProgress text content → ¬HingesIn around content) := by
  -- Along the blocks that are looked into; a text that is not read has no references.
  induction inProgress, text using expanding_induction around with
  | step inProgress text ih =>
    rw [check_eq_concat, check_eq_concat]
    cases hparse : Json.parse text with
    | error reason =>
      refine .of_true _ (forall_visits_iff.2 ⟨?_, ?_⟩)
      · simp [HingesIn, references, hparse]
      · simp [references, hparse]
    | ok document =>
      have hreference : ∀ r ∈ references around text,
          WholeIff (checkReference (inMode around .lenient) file inProgress r).failures
            (checkReference (inMode around .strict) file inProgress r).failures
            ((r.kind ≠ .savedBlock → ∀ s ∈ propsOf around r, ¬s.Hinges (.object r.properties)) ∧
              (r.kind = .savedBlock → r.identifier ∉ inProgress → ∀ inner,
                around.blocks.read r.identifier = some (.ok inner) → ∀ content,
                  Visits around (r.identifier :: inProgress) inner content →
                    ¬HingesIn around content)) := by
        intro r _
        unfold checkReference
        by_cases hkind : r.kind = .savedBlock
        · rw [if_pos hkind, if_pos hkind]
          refine (failures_checkBlock fun hfree inner hread => ih _ inner hfree hread).congr ?_
          simp [hkind]
        · rw [if_neg hkind, if_neg hkind]
          refine (failures_checkComponent around file r).congr ?_
          simp [hkind]
      simp only [Outcome.failures_concat, List.flatMap_map]
      refine (WholeIff.flatMap hreference).congr ?_
      rw [forall_visits_iff, HingesIn]
      simp only [not_exists, not_and, imp_and, forall_and]

end Document

namespace Lint

/-! ## Runs over documents -/

theorem rules_reporting (config : Config) (unused : Bool) :
    rules (config.reporting unused) =
      { rules config with mode := (config.reporting unused).mode } := rfl

theorem surroundings_reporting (files : Files) (config : Config) (unused : Bool) :
    surroundings files (config.reporting unused) =
      Document.inMode (surroundings files config) (config.reporting unused).mode := by
  have hroot : (config.reporting unused).root = config.root := rfl
  rw [surroundings, rules_reporting, hroot]
  rfl

/-- Some document of the project refers to a component, directly or through blocks, where its props
hinge on unknown keys. -/
def DocumentsHinge (disk : Disk) (cwd : String) (config : Config) : Prop :=
  let files := disk.toFiles cwd
  ∃ path ∈ Discovery.documents disk config.blocksDir, ∃ text, files.text (files.key path) = .ok text ∧
    ∃ content, Document.Visits (surroundings files config) [] text content ∧
      Document.HingesIn (surroundings files config) content

theorem failures_documentAt (files : Files) (config : Config) (path : String) :
    WholeIff (documentAt files (config.reporting false) path).failures
      (documentAt files (config.reporting true) path).failures
      (∀ text, files.text (files.key path) = .ok text →
        ∀ content, Document.Visits (surroundings files config) [] text content →
          ¬Document.HingesIn (surroundings files config) content) := by
  unfold documentAt
  cases htext : files.text (files.key path) with
  | error fault => exact .of_true _ (by rintro _ ⟨⟩)
  | ok text =>
    have hcheck := Document.failures_check (surroundings files config)
      (Path.within config.blocksDir path) [] text
    have hlenient : surroundings files (config.reporting false) =
        Document.inMode (surroundings files config) .lenient := surroundings_reporting files config false
    have hstrict : surroundings files (config.reporting true) =
        Document.inMode (surroundings files config) .strict := surroundings_reporting files config true
    rw [← hlenient, ← hstrict] at hcheck
    exact hcheck.congr (by simp)

theorem failures_documents (disk : Disk) (cwd : String) (config : Config) :
    WholeIff (documents disk cwd (config.reporting false)).failures
      (documents disk cwd (config.reporting true)).failures
      (¬DocumentsHinge disk cwd config) := by
  have hfailures (unused : Bool) : (documents disk cwd (config.reporting unused)).failures =
      (Discovery.documents disk config.blocksDir).flatMap fun path =>
        (documentAt (disk.toFiles cwd) (config.reporting unused) path).failures := by
    rw [← List.flatMap_map, ← Outcome.failures_concat]
    rfl
  rw [hfailures, hfailures]
  refine (WholeIff.flatMap fun path _ => failures_documentAt _ config path).congr ?_
  simp only [DocumentsHinge, not_exists, not_and]

/-! ## Runs over components -/

/-- The sources that a run looks at; none if its target is no file. -/
def wantedPaths (disk : Disk) (config : Config) : Option String → Option (List String)
  | none => some (Discovery.components disk config.root config.settings.componentRoots)
  | some target =>
    let path := Path.below config.root target
    if disk.isFile path then some [path] else none

theorem components_eq_map (disk : Disk) (cwd : String) (config : Config) (target : Option String) :
    components disk cwd config target = (wantedPaths disk config target).map fun paths =>
      componentsAt disk cwd config paths target.isNone := by
  cases target with
  | none => rfl
  | some target =>
    unfold components wantedPaths
    dsimp only
    split <;> rfl

theorem wantedPaths_reporting (disk : Disk) (config : Config) (unused : Bool)
    (target : Option String) :
    wantedPaths disk (config.reporting unused) target = wantedPaths disk config target := by
  cases target <;> rfl

def ComponentHinges (disk : Disk) (cwd : String) (config : Config) (path : String) : Prop :=
  let files := disk.toFiles cwd
  ∃ document ∈ (Discovery.documents disk config.blocksDir).map (LoadedDocument.load files config.blocksDir),
    ∃ text value, document.content = .ok (text, value) ∧
      ∃ o ∈ Scan.occurrences config.settings.discriminator
          (config.naming.identifierOf (Path.within config.root path)) value,
        ∃ s ∈ Props.schemaOfFile files config.root path, s.Hinges (.object o.properties)

theorem errors_occurrenceIssues (props : Option Schema) (o : Scan.Occurrence) :
    WholeIff ((occurrenceIssues .lenient props o).filter Issue.isError)
      ((occurrenceIssues .strict props o).filter Issue.isError)
      (∀ s ∈ props, ¬s.Hinges (.object o.properties)) := by
  cases props with
  | none => exact .of_true _ (by rintro _ ⟨⟩)
  | some s => exact (Schema.errors_validate "" s _).congr (by simp)

def occurrenceFailures (file : String) (occurrences : List OccurrenceResult) : List Failure :=
  occurrences.flatMap fun o => o.errors.map (Failure.mk o.document o.path file)

theorem failures_documentOccurrences (config : Config) (file identifier : String)
    (props : Option Schema) (document : LoadedDocument) :
    WholeIff
      (occurrenceFailures file (documentOccurrences (config.reporting false) identifier props document))
      (occurrenceFailures file (documentOccurrences (config.reporting true) identifier props document))
      (∀ text value, document.content = .ok (text, value) →
        ∀ o ∈ Scan.occurrences config.settings.discriminator identifier value,
          ∀ s ∈ props, ¬s.Hinges (.object o.properties)) := by
  unfold occurrenceFailures documentOccurrences
  cases hcontent : document.content with
  | error problem => exact .of_true _ (by rintro _ _ ⟨⟩)
  | ok content =>
    obtain ⟨text, value⟩ := content
    simp only [List.flatMap_map]
    refine (WholeIff.flatMap fun item _ => (errors_occurrenceIssues props item.1).map _).congr ?_
    rw [forall_mem_zipIdx _ fun o : Scan.Occurrence =>
      ∀ s ∈ props, ¬s.Hinges (.object o.properties)]
    constructor
    · rintro h _ _ ⟨⟩
      exact h
    · intro h
      exact h text value rfl

theorem failures_component (files : Files) (config : Config) (documents : List LoadedDocument)
    (imports : Option Imports) (path : String) :
    WholeIff (component (config.reporting false) files documents imports path).failures
      (component (config.reporting true) files documents imports path).failures
      (∀ document ∈ documents, ∀ text value, document.content = .ok (text, value) →
        ∀ o ∈ Scan.occurrences config.settings.discriminator
            (config.naming.identifierOf (Path.within config.root path)) value,
          ∀ s ∈ Props.schemaOfFile files config.root path, ¬s.Hinges (.object o.properties)) := by
  have hfailures (unused : Bool) :
      (component (config.reporting unused) files documents imports path).failures =
        documents.flatMap fun document => occurrenceFailures (Path.within config.root path)
          (documentOccurrences (config.reporting unused)
            (config.naming.identifierOf (Path.within config.root path))
            (Props.schemaOfFile files config.root path) document) := by
    unfold occurrenceFailures
    rw [← List.flatMap_assoc]
    rfl
  rw [hfailures, hfailures]
  exact .flatMap fun document _ => failures_documentOccurrences config _ _ _ document

theorem failures_componentsAt (disk : Disk) (cwd : String) (config : Config) (paths : List String)
    (all : Bool) :
    WholeIff (componentsAt disk cwd (config.reporting false) paths all).failures
      (componentsAt disk cwd (config.reporting true) paths all).failures
      (∀ path ∈ paths, config.settings.isExcluded (Path.within config.root path) = false →
        ¬ComponentHinges disk cwd config path) := by
  unfold componentsAt ComponentLint.failures
  simp only [List.flatMap_map, ComponentResult.failures_markUnused]
  refine WholeIff.append_right _ ((WholeIff.flatMap fun path _ =>
    failures_component _ config _ _ path).congr ?_)
  simp only [List.mem_filter, Bool.not_eq_true', and_imp, ComponentHinges, not_exists, not_and]
  exact Iff.rfl

def ComponentsHinge (disk : Disk) (cwd : String) (config : Config) (target : Option String) : Prop :=
  ∃ paths ∈ wantedPaths disk config target, ∃ path ∈ paths,
    config.settings.isExcluded (Path.within config.root path) = false ∧
      ComponentHinges disk cwd config path

theorem failures_components {disk : Disk} {config : Config} {target : Option String}
    {paths : List String} (hpaths : wantedPaths disk config target = some paths) (cwd : String) :
    WholeIff (componentsAt disk cwd (config.reporting false) paths target.isNone).failures
      (componentsAt disk cwd (config.reporting true) paths target.isNone).failures
      (¬ComponentsHinge disk cwd config target) := by
  refine (failures_componentsAt disk cwd config paths _).congr ?_
  simp [ComponentsHinge, hpaths]

/-! ## Failures and outcome -/

theorem ok_eq_iff_of_failures {lenient strict : List Failure} {P : Prop}
    (h : WholeIff lenient strict P) {a b : Bool} (ha : a = true ↔ lenient = [])
    (hb : b = true ↔ strict = []) : a = b ↔ (a = true → P) := by
  rw [Bool.eq_iff_iff, ha, hb]
  exact h.eq_nil_iff

/-- Reporting unused properties leaves the errors of a run as they are if and only if nothing that
the run checks hinges on unknown keys. A run that was ok stays ok under the same condition, and a run
that was not ok never becomes so. -/
theorem failures_reporting_iff (disk : Disk) (cwd : String) (config : Config) :
    (∀ target,
      ((components disk cwd (config.reporting false) target).map ComponentLint.failures =
          (components disk cwd (config.reporting true) target).map ComponentLint.failures ↔
        ¬ComponentsHinge disk cwd config target) ∧
      ((components disk cwd (config.reporting false) target).map ComponentLint.ok =
          (components disk cwd (config.reporting true) target).map ComponentLint.ok ↔
        ((components disk cwd (config.reporting false) target).map ComponentLint.ok = some true →
          ¬ComponentsHinge disk cwd config target))) ∧
    ((documents disk cwd (config.reporting false)).failures =
        (documents disk cwd (config.reporting true)).failures ↔
      ¬DocumentsHinge disk cwd config) ∧
    ((documents disk cwd (config.reporting false)).ok =
        (documents disk cwd (config.reporting true)).ok ↔
      ((documents disk cwd (config.reporting false)).ok = true → ¬DocumentsHinge disk cwd config)) ∧
    ∀ base s value,
      ((Schema.validate .lenient base s value).filter Issue.isError =
          (Schema.validate .strict base s value).filter Issue.isError ↔
        ∀ v ∈ value, ¬s.Hinges v) := by
  have hdocuments := failures_documents disk cwd config
  refine ⟨fun target => ?_, hdocuments.eq_iff, ?_, ?_⟩
  · rw [components_eq_map, components_eq_map, wantedPaths_reporting, wantedPaths_reporting]
    cases hpaths : wantedPaths disk config target with
    | none => simp [ComponentsHinge, hpaths]
    | some paths =>
      have hcomponents := failures_components hpaths cwd
      simp only [Option.map_some, Option.some.injEq]
      exact ⟨hcomponents.eq_iff,
        ok_eq_iff_of_failures hcomponents (ComponentLint.ok_iff _) (ComponentLint.ok_iff _)⟩
  · exact ok_eq_iff_of_failures hdocuments (DocumentLint.ok_iff _) (DocumentLint.ok_iff _)
  · exact fun base s value => (Schema.errors_validate base s value).eq_iff

/-- A key that the only member of a union does not declare is an error, and not only a warning. -/
theorem errors_validate_unknown_key_in_union :
    (Schema.validate .lenient "" (.union [.object [] [] false] false)
        (some (.object [("extra", .int 1)]))).filter Issue.isError ≠
      (Schema.validate .strict "" (.union [.object [] [] false] false)
        (some (.object [("extra", .int 1)]))).filter Issue.isError := by
  decide

end Lint

end BlockCheck
