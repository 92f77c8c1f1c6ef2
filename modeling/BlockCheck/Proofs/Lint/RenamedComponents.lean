import BlockCheck.Proofs.Lint.RenamedProjects
import BlockCheck.Proofs.Text.Respelled

/-!
# Components of a project with a renamed discriminator

The components of a project are found at the same places in its documents after the discriminator is
renamed. They are unused as before, and their occurrences have the failures that they had. More of them
come up if and only if an occurrence gives a reference in place of a list. The lines stay the same if the
keys are spelled anew where they stand.
-/

namespace BlockCheck

theorem eq_of_map_eq_map {α β γ : Type} {f : α → β} {g : α → γ} {l l' : List α}
    (hinj : ∀ a b, f a = f b → g a = g b → a = b) (hf : l.map f = l'.map f) (hg : l.map g = l'.map g) :
    l = l' := by
  have hpair : Function.Injective fun a => (f a, g a) := by
    intro a b hab
    exact hinj a b (Prod.mk.inj hab).1 (Prod.mk.inj hab).2
  apply List.map_injective_iff.2 hpair
  rw [← List.zip_map', ← List.zip_map', hf, hg]

/-! ## Results without their lines -/

def OccurrenceResult.unplaced (o : OccurrenceResult) : OccurrenceResult := { o with line := none }

theorem OccurrenceResult.eq_of_unplaced {o o' : OccurrenceResult} (h : o.unplaced = o'.unplaced)
    (hline : o.line = o'.line) : o = o' := by
  cases o
  cases o'
  simp only [unplaced, OccurrenceResult.mk.injEq] at h hline ⊢
  exact ⟨h.1, h.2.1, hline, h.2.2.2⟩

namespace ComponentResult

def unplaced (c : ComponentResult) : ComponentResult :=
  { c with occurrences := c.occurrences.map OccurrenceResult.unplaced }

def lines (c : ComponentResult) : List (Option Nat) := c.occurrences.map (·.line)

def bare (c : ComponentResult) : ComponentResult := { c with occurrences := [] }

theorem eq_of_unplaced {c c' : ComponentResult} (h : c.unplaced = c'.unplaced)
    (hlines : c.lines = c'.lines) : c = c' := by
  cases c
  cases c'
  simp only [unplaced, lines, mk.injEq] at h hlines ⊢
  have hoccurrences := eq_of_map_eq_map (fun _ _ => OccurrenceResult.eq_of_unplaced) h.2.2.1 hlines
  exact ⟨h.1, h.2.1, hoccurrences, h.2.2.2⟩

theorem failures_eq (c : ComponentResult) :
    c.failures = (c.issues.filter Issue.isError).map (Failure.mk "" "" c.file) ++
      Lint.occurrenceFailures c.file c.occurrences := rfl

theorem failures_unplaced (c : ComponentResult) : c.unplaced.failures = c.failures := by
  rw [failures_eq, failures_eq, Lint.occurrenceFailures, Lint.occurrenceFailures, unplaced,
    List.flatMap_map]
  rfl

theorem bare_markUnused (identifiers : List String) (c : ComponentResult) :
    (Lint.markUnused identifiers c).bare = Lint.markUnused identifiers c.bare := by
  unfold Lint.markUnused bare
  dsimp only
  split <;> rfl

end ComponentResult

def ComponentLint.unplaced (lint : ComponentLint) : List ComponentResult :=
  lint.components.map ComponentResult.unplaced

/-! ## What grows -/

/-- The second occurrences are the first ones with the failures that those had, and they are the same but
for their lines if and only if `P`. -/
structure OccurrencesGrow (file : String) (before after : List OccurrenceResult) (P : Prop) : Prop where
  isEmpty : after.isEmpty = before.isEmpty
  failures : WholeIff (Lint.occurrenceFailures file before) (Lint.occurrenceFailures file after) P
  unplaced : P → after.map OccurrenceResult.unplaced = before.map OccurrenceResult.unplaced

theorem OccurrencesGrow.congr {file : String} {before after : List OccurrenceResult} {P Q : Prop}
    (h : OccurrencesGrow file before after P) (hiff : P ↔ Q) : OccurrencesGrow file before after Q :=
  ⟨h.isEmpty, h.failures.congr hiff, fun hq => h.unplaced (hiff.2 hq)⟩

theorem OccurrencesGrow.flatMap {α : Type} {file : String} {l : List α}
    {f g : α → List OccurrenceResult} {P : α → Prop}
    (h : ∀ a ∈ l, OccurrencesGrow file (f a) (g a) (P a)) :
    OccurrencesGrow file (l.flatMap f) (l.flatMap g) (∀ a ∈ l, P a) where
  isEmpty := by
    rw [Bool.eq_iff_iff, List.isEmpty_iff, List.isEmpty_iff, List.flatMap_eq_nil_iff,
      List.flatMap_eq_nil_iff]
    refine forall₂_congr fun a ha => ?_
    rw [← List.isEmpty_iff, ← List.isEmpty_iff, (h a ha).isEmpty]
  failures := by
    have hflat (k : α → List OccurrenceResult) : Lint.occurrenceFailures file (l.flatMap k) =
        l.flatMap fun a => Lint.occurrenceFailures file (k a) := List.flatMap_assoc
    rw [hflat, hflat]
    exact .flatMap fun a ha => (h a ha).failures
  unplaced hP := by
    rw [List.map_flatMap, List.map_flatMap]
    exact List.flatMap_congr fun a ha => (h a ha).unplaced (hP a ha)

structure ComponentResult.GrowsUnless (before after : ComponentResult) (P : Prop) : Prop where
  bare : after.bare = before.bare
  occurrences : OccurrencesGrow before.file before.occurrences after.occurrences P

namespace ComponentResult.GrowsUnless

variable {before after : ComponentResult} {P Q : Prop}

theorem field (h : before.GrowsUnless after P) {α : Type} (k : ComponentResult → α)
    (hk : ∀ c : ComponentResult, k c.bare = k c) : k after = k before := by
  rw [← hk after, h.bare, hk]

theorem file (h : before.GrowsUnless after P) : after.file = before.file :=
  h.field ComponentResult.file fun _ => rfl

theorem markUnused (h : before.GrowsUnless after P) (identifiers : List String) :
    (Lint.markUnused identifiers before).GrowsUnless (Lint.markUnused identifiers after) P where
  bare := by
    rw [bare_markUnused, bare_markUnused, h.bare]
  occurrences := by
    rw [Lint.file_markUnused, Lint.occurrences_markUnused, Lint.occurrences_markUnused]
    exact h.occurrences

theorem failures (h : before.GrowsUnless after P) : WholeIff before.failures after.failures P := by
  have hissues := h.field ComponentResult.issues fun _ => rfl
  rw [failures_eq, failures_eq, hissues, h.file]
  exact h.occurrences.failures.append_left _

theorem unplaced (h : before.GrowsUnless after P) (hP : P) : after.unplaced = before.unplaced := by
  have hoccurrences := h.occurrences.unplaced hP
  have hbare := h.bare
  cases before
  cases after
  simp only [ComponentResult.bare, ComponentResult.unplaced, mk.injEq] at hbare hoccurrences ⊢
  exact ⟨hbare.1, hbare.2.1, hoccurrences, hbare.2.2.2⟩

end ComponentResult.GrowsUnless

namespace Lint

variable {disk disk' : Disk} {cwd new path : String} {config : Config}

/-! ## One document -/

section Document

variable (hreserved : Text.startsWith new reservedStart = true) {props : Option Schema}
  (hprops : ∀ s ∈ props, ¬s.Declares discriminator ∧ ¬s.Declares new)

include hreserved hprops

theorem errors_occurrenceIssues_renameKeys {o : Scan.Occurrence} (mode : Mode)
    (hkey : ¬Json.HasKey new (.object o.properties)) :
    WholeIff ((occurrenceIssues mode props o).filter Issue.isError)
      ((occurrenceIssues mode props (o.renameKeys discriminator new)).filter Issue.isError)
      (∀ s ∈ props, ¬s.Defers mode (.object o.properties)) := by
  cases props with
  | none => exact .of_true _ (by rintro _ ⟨⟩)
  | some s =>
    obtain ⟨hold, hdeclares⟩ := hprops s rfl
    have herrors := Schema.errors_validate_renameKeys hreserved hold hdeclares hkey mode ""
    rw [Json.renameKeys] at herrors
    exact herrors.congr (by simp)

theorem occurrenceIssues_renameKeys {o : Scan.Occurrence} (mode : Mode)
    (hkey : ¬Json.HasKey new (.object o.properties))
    (hdefers : ∀ s ∈ props, ¬s.Defers mode (.object o.properties)) :
    occurrenceIssues mode props (o.renameKeys discriminator new) = occurrenceIssues mode props o := by
  cases props with
  | none => rfl
  | some s =>
    obtain ⟨hold, hdeclares⟩ := hprops s rfl
    have hissues := Schema.validate_renameKeys hreserved hold hdeclares hkey mode ""
    rw [Json.renameKeys] at hissues
    exact (hissues.eq_iff.2 (hdefers s rfl)).symm

theorem documentOccurrences_renameKeys {document document' : LoadedDocument} {text text' : String}
    {value : Json} (hname : document'.name = document.name)
    (hcontent : document.content = .ok (text, value))
    (hcontent' : document'.content = .ok (text', value.renameKeys discriminator new))
    (hkey : ¬value.HasKey new) (hold : config.settings.discriminator = discriminator)
    (file identifier : String) :
    OccurrencesGrow file (documentOccurrences config identifier props document)
      (documentOccurrences (config.keyed new) identifier props document')
      (∀ o ∈ Scan.occurrences discriminator identifier value,
        ∀ s ∈ props, ¬s.Defers config.mode (.object o.properties)) := by
  have hmode : (config.keyed new).mode = config.mode := rfl
  have hnew : (config.keyed new).settings.discriminator = new := rfl
  rw [documentOccurrences_eq, documentOccurrences_eq, hcontent, hcontent', hname, hold, hnew]
  dsimp only
  rw [Scan.occurrences_renameKeys discriminator identifier hkey, List.zipIdx_map, List.map_map]
  have hproperties : ∀ item ∈ (Scan.occurrences discriminator identifier value).zipIdx,
      ¬Json.HasKey new (.object item.1.properties) := fun item hitem =>
    mt (Scan.hasKey_of_mem_occurrences (List.fst_mem_of_mem_zipIdx hitem)) hkey
  constructor
  · simp
  · unfold occurrenceFailures
    rw [List.flatMap_map, List.flatMap_map,
      ← forall_mem_zipIdx _ fun o : Scan.Occurrence =>
        ∀ s ∈ props, ¬s.Defers config.mode (.object o.properties)]
    refine .flatMap fun item hitem => ?_
    exact (errors_occurrenceIssues_renameKeys hreserved hprops _ (hproperties item hitem)).map _
  · intro hdefers
    rw [List.map_map, List.map_map]
    refine List.map_congr_left fun item hitem => ?_
    have hissues := occurrenceIssues_renameKeys hreserved hprops config.mode (hproperties item hitem)
      (hdefers item.1 (List.fst_mem_of_mem_zipIdx hitem))
    dsimp only [Function.comp_apply, occurrenceResult, OccurrenceResult.unplaced, Prod.map]
    rw [hmode, hissues]
    rfl

end Document

/-! ## Which identifiers are unused -/

theorem unusedIdentifiers_map_congr {settings : Settings} {l : List String}
    {f g : String → ComponentResult} {P : String → Prop}
    (h : ∀ a ∈ l, (f a).GrowsUnless (g a) (P a)) :
    unusedIdentifiers settings (l.map g) = unusedIdentifiers settings (l.map f) := by
  have hidentifier : ∀ a ∈ l, (g a).identifier = (f a).identifier := fun a ha =>
    (h a ha).field ComponentResult.identifier fun _ => rfl
  have hpart : ∀ p : ComponentResult → Bool, (∀ a ∈ l, p (g a) = p (f a)) →
      ((l.map g).filter p).map (·.identifier) = ((l.map f).filter p).map (·.identifier) := by
    intro p hp
    have hfilter : l.filter (p ∘ g) = l.filter (p ∘ f) := List.filter_congr hp
    rw [List.filter_map, List.filter_map, List.map_map, List.map_map, hfilter]
    exact List.map_congr_left fun a ha => hidentifier a (List.mem_filter.1 ha).1
  have hused := hpart (fun c => !c.occurrences.isEmpty || c.imported) fun a ha => by
    rw [(h a ha).occurrences.isEmpty, (h a ha).field ComponentResult.imported fun _ => rfl]
  have hkept := hpart (fun c => !settings.mayBeUnused c.file) fun a ha => by
    rw [(h a ha).file]
  have hknown : (l.map g).map (·.identifier) = (l.map f).map (·.identifier) := by
    rw [List.map_map, List.map_map]
    exact List.map_congr_left hidentifier
  unfold unusedIdentifiers
  dsimp only
  rw [hused, hknown, hkept]

/-! ## Components of a project -/

/-- The document refers to the component at the path, and gives a reference in place of a list there. -/
def DefersAt (disk : Disk) (cwd : String) (config : Config) (path document : String) : Prop :=
  ∃ text value, disk.text (Path.normalize document) = .ok text ∧ Json.parse text = .ok value ∧
    ∃ o ∈ Scan.occurrences config.settings.discriminator
        (config.naming.identifierOf (Path.within config.root path)) value,
      ∃ s ∈ Props.schemaOfFile (disk.toFiles cwd) config.root path,
        s.Defers config.mode (.object o.properties)

def ComponentDefers (disk : Disk) (cwd : String) (config : Config) (path : String) : Prop :=
  ∃ document ∈ Discovery.documents disk config.blocksDir, DefersAt disk cwd config path document

def IsChecked (disk : Disk) (config : Config) (target : Option String) (path : String) : Prop :=
  ∃ paths ∈ wantedPaths disk config target,
    path ∈ paths ∧ config.settings.isExcluded (Path.within config.root path) = false

def ComponentsDefer (disk : Disk) (cwd : String) (config : Config) (target : Option String) : Prop :=
  ∃ path, IsChecked disk config target path ∧ ComponentDefers disk cwd config path

/-- The keys of the documents are spelled anew where they stand. -/
def InPlace (disk disk' : Disk) (config : Config) (new : String) : Prop :=
  ∀ path ∈ Discovery.documents disk config.blocksDir, ∀ text text',
    disk.text (Path.normalize path) = .ok text → disk'.text (Path.normalize path) = .ok text' →
      Text.Respelled discriminator new text.toList text'.toList

def checkedAt (disk : Disk) (cwd : String) (config : Config) (all : Bool) (path : String) :
    ComponentResult :=
  component config (disk.toFiles cwd) (loaded disk cwd config)
    (if all then some (Imports.analyze disk config.root config.settings.localPrefix) else none) path

def occurrencesIn (disk : Disk) (cwd : String) (config : Config) (path document : String) :
    List OccurrenceResult :=
  documentOccurrences config (config.naming.identifierOf (Path.within config.root path))
    (Props.schemaOfFile (disk.toFiles cwd) config.root path)
    (LoadedDocument.load (disk.toFiles cwd) config.blocksDir document)

theorem occurrences_checkedAt (disk : Disk) (cwd : String) (config : Config) (all : Bool) (path : String) :
    (checkedAt disk cwd config all path).occurrences =
      (Discovery.documents disk config.blocksDir).flatMap (occurrencesIn disk cwd config path) :=
  List.flatMap_map _ _ _

def wantedAmong (config : Config) (paths : List String) : List String :=
  paths.filter fun p => !config.settings.isExcluded (Path.within config.root p)

def unusedAmong (disk : Disk) (cwd : String) (config : Config) (paths : List String) (all : Bool) :
    List String :=
  if all then
    unusedIdentifiers config.settings ((wantedAmong config paths).map (checkedAt disk cwd config all))
  else []

def markedAt (disk : Disk) (cwd : String) (config : Config) (paths : List String) (all : Bool)
    (path : String) : ComponentResult :=
  markUnused (unusedAmong disk cwd config paths all) (checkedAt disk cwd config all path)

theorem components_componentsAt (disk : Disk) (cwd : String) (config : Config) (paths : List String)
    (all : Bool) :
    (componentsAt disk cwd config paths all).components =
      (wantedAmong config paths).map (markedAt disk cwd config paths all) := List.map_map

theorem wantedAmong_keyed (config : Config) (new : String) (paths : List String) :
    wantedAmong (config.keyed new) paths = wantedAmong config paths := rfl

theorem map_components_congr {α : Type} {k : ComponentResult → α} {paths : List String} {all : Bool}
    (hk : ∀ path ∈ wantedAmong config paths,
      k (markedAt disk' cwd (config.keyed new) paths all path) = k (markedAt disk cwd config paths all path)) :
    (componentsAt disk' cwd (config.keyed new) paths all).components.map k =
      (componentsAt disk cwd config paths all).components.map k := by
  rw [components_componentsAt, components_componentsAt, wantedAmong_keyed, List.map_map, List.map_map]
  exact List.map_congr_left hk

namespace RenamedProject

variable (h : RenamedProject disk disk' cwd config new)

include h

theorem loaded_document (hpath : path ∈ Discovery.documents disk config.blocksDir) :
    ∃ text text' value, disk.text (Path.normalize path) = .ok text ∧
      disk'.text (Path.normalize path) = .ok text' ∧ Json.parse text = .ok value ∧
      ¬value.HasKey new ∧
      (LoadedDocument.load (disk.toFiles cwd) config.blocksDir path).content = .ok (text, value) ∧
      (LoadedDocument.load (disk'.toFiles cwd) config.blocksDir path).content =
        .ok (text', value.renameKeys discriminator new) := by
  have habsolute := h.isAbsolute_document hpath
  obtain ⟨text, text', htext, htext', value, hparse, hkey, hparse'⟩ := h.texts path hpath
  refine ⟨text, text', value, htext, htext', hparse, hkey, ?_, ?_⟩
  · rw [content_load_iff, Disk.text_toFiles disk cwd habsolute]
    exact ⟨htext, hparse⟩
  · rw [content_load_iff, Disk.text_toFiles disk' cwd habsolute]
    exact ⟨htext', hparse'⟩

theorem documents_keyed : Discovery.documents disk' (config.keyed new).blocksDir =
    Discovery.documents disk config.blocksDir := h.places.documents_eq _

theorem occurrencesIn_renamed (hsuits : Suits disk cwd config new path) {document : String}
    (hdocument : document ∈ Discovery.documents disk config.blocksDir) :
    OccurrencesGrow (Path.within config.root path) (occurrencesIn disk cwd config path document)
      (occurrencesIn disk' cwd (config.keyed new) path document)
      (¬DefersAt disk cwd config path document) := by
  obtain ⟨text, text', value, htext, -, hparse, hkey, hcontent, hcontent'⟩ :=
    h.loaded_document hdocument
  have hname : (LoadedDocument.load (disk'.toFiles cwd) config.blocksDir document).name =
      (LoadedDocument.load (disk.toFiles cwd) config.blocksDir document).name := rfl
  have hprops : Props.schemaOfFile (disk'.toFiles cwd) (config.keyed new).root path =
      Props.schemaOfFile (disk.toFiles cwd) config.root path := h.schemaOfFile_eq hsuits
  have hgrow := documentOccurrences_renameKeys h.reserved hsuits.undeclared hname hcontent hcontent'
    hkey h.key (Path.within config.root path) (config.naming.identifierOf (Path.within config.root path))
  unfold occurrencesIn
  rw [hprops]
  refine hgrow.congr ?_
  constructor
  · rintro hdefers ⟨text, value, htext', hparse', o, ho, s, hs, hhere⟩
    cases htext.symm.trans htext'
    cases hparse.symm.trans hparse'
    rw [h.key] at ho
    exact hdefers o ho s hs hhere
  · rintro hdefers o ho s hs hhere
    rw [← h.key] at ho
    exact hdefers ⟨text, value, htext, hparse, o, ho, s, hs, hhere⟩

theorem checkedAt_renamed (hsuits : Suits disk cwd config new path) (all : Bool) :
    (checkedAt disk cwd config all path).GrowsUnless (checkedAt disk' cwd (config.keyed new) all path)
      (¬ComponentDefers disk cwd config path) := by
  have himports : Imports.analyze disk' (config.keyed new).root (config.keyed new).settings.localPrefix =
      Imports.analyze disk config.root config.settings.localPrefix := h.analyze_eq _
  have hoccurrences : OccurrencesGrow (Path.within config.root path)
      (checkedAt disk cwd config all path).occurrences
      (checkedAt disk' cwd (config.keyed new) all path).occurrences
      (¬ComponentDefers disk cwd config path) := by
    rw [occurrences_checkedAt, occurrences_checkedAt, h.documents_keyed]
    refine (OccurrencesGrow.flatMap fun document hdocument =>
      h.occurrencesIn_renamed hsuits hdocument).congr ?_
    simp only [ComponentDefers, not_exists, not_and]
  have hisEmpty := hoccurrences.isEmpty
  refine ⟨?_, hoccurrences⟩
  unfold checkedAt component at hisEmpty ⊢
  dsimp only [ComponentResult.bare] at hisEmpty ⊢
  rw [himports, hisEmpty]
  rfl

/-! ## Lines -/

theorem lines_checkedAt_renamed (hplace : InPlace disk disk' config new) (hplain : Text.Plain new)
    (hidentifier : Text.Plain (config.naming.identifierOf (Path.within config.root path))) (all : Bool) :
    (checkedAt disk' cwd (config.keyed new) all path).lines = (checkedAt disk cwd config all path).lines := by
  have hhead : new.toList.head? = some '_' := by
    obtain ⟨rest, hrest⟩ := List.isPrefixOf_iff_prefix.1 h.reserved
    rw [← hrest]
    rfl
  unfold ComponentResult.lines
  rw [occurrences_checkedAt, occurrences_checkedAt, h.documents_keyed, List.map_flatMap,
    List.map_flatMap]
  refine List.flatMap_congr fun document hdocument => ?_
  obtain ⟨text, text', value, htext, htext', -, hkey, hcontent, hcontent'⟩ :=
    h.loaded_document hdocument
  -- The pairs of the text are on the same lines once the discriminator is renamed in its place.
  have hlines : ∀ n, Text.pairLine? text' new
      (config.naming.identifierOf (Path.within config.root path)) n =
        Text.pairLine? text discriminator
          (config.naming.identifierOf (Path.within config.root path)) n := by
    intro n
    unfold Text.pairLine? Text.pairLines
    rw [Text.pairLinesFrom_respelled (hplace document hdocument text text' htext htext') (by decide) hplain
      (by decide) hhead hidentifier]
  have hsettings : (config.keyed new).settings.discriminator = new := rfl
  have hblocks : (config.keyed new).blocksDir = config.blocksDir := rfl
  have hnaming : (config.keyed new).naming = config.naming := rfl
  have hroot : (config.keyed new).root = config.root := rfl
  unfold occurrencesIn
  rw [documentOccurrences_eq, documentOccurrences_eq, hblocks, hcontent, hcontent', hsettings, hnaming,
    hroot, h.key]
  dsimp only
  rw [Scan.occurrences_renameKeys discriminator _ hkey, List.zipIdx_map, List.map_map, List.map_map,
    List.map_map]
  refine List.map_congr_left fun item _ => ?_
  dsimp only [Function.comp_apply, occurrenceResult, Prod.map]
  rw [hsettings, h.key]
  exact hlines _

/-! ## Runs over components -/

theorem documentErrors_eq_nil (paths : List String) (all : Bool) :
    (componentsAt disk cwd config paths all).documentErrors = [] ∧
      (componentsAt disk' cwd (config.keyed new) paths all).documentErrors = [] := by
  have hnone {document : LoadedDocument} {content : String × Json}
      (hcontent : document.content = .ok content) : document.issue? = none := by
    rw [LoadedDocument.issue?, hcontent]
  have herrors (disk : Disk) (config : Config) :
      (componentsAt disk cwd config paths all).documentErrors =
        (loaded disk cwd config).filterMap LoadedDocument.issue? := rfl
  rw [herrors, herrors]
  unfold loaded
  rw [h.documents_keyed, List.filterMap_map, List.filterMap_map, List.filterMap_eq_nil_iff,
    List.filterMap_eq_nil_iff]
  constructor
  · intro path hpath
    obtain ⟨_, _, _, -, -, -, -, hcontent, -⟩ := h.loaded_document hpath
    exact hnone hcontent
  · intro path hpath
    obtain ⟨_, _, _, -, -, -, -, -, hcontent⟩ := h.loaded_document hpath
    exact hnone hcontent

/-- The failures can be told from the components without their lines. -/
theorem failures_componentsAt_eq (paths : List String) (all : Bool) :
    (componentsAt disk cwd config paths all).failures =
        (componentsAt disk cwd config paths all).unplaced.flatMap ComponentResult.failures ∧
      (componentsAt disk' cwd (config.keyed new) paths all).failures =
        (componentsAt disk' cwd (config.keyed new) paths all).unplaced.flatMap
          ComponentResult.failures := by
  obtain ⟨hnil, hnil'⟩ := h.documentErrors_eq_nil paths all
  simp only [ComponentLint.failures, ComponentLint.unplaced, hnil, hnil', List.flatMap_map,
    ComponentResult.failures_unplaced, List.map_nil, List.append_nil, and_self]

section Run

variable {paths : List String} (hsuits : ∀ path ∈ wantedAmong config paths, Suits disk cwd config new path)
  (all : Bool)

include hsuits

theorem markedAt_renamed (hpath : path ∈ wantedAmong config paths) :
    (markedAt disk cwd config paths all path).GrowsUnless
      (markedAt disk' cwd (config.keyed new) paths all path) (¬ComponentDefers disk cwd config path) := by
  have hunused : unusedAmong disk' cwd (config.keyed new) paths all =
      unusedAmong disk cwd config paths all := by
    unfold unusedAmong
    rw [wantedAmong_keyed, unusedIdentifiers_map_congr fun path hpath => h.checkedAt_renamed (hsuits path hpath) all]
    rfl
  unfold markedAt
  rw [hunused]
  exact (h.checkedAt_renamed (hsuits path hpath) all).markUnused _

theorem unused_componentsAt_renamed :
    (componentsAt disk' cwd (config.keyed new) paths all).unused =
      (componentsAt disk cwd config paths all).unused := by
  have hbare (lint : ComponentLint) : lint.unused =
      ((lint.components.map ComponentResult.bare).filter (·.unused)).map (·.file) := by
    rw [List.filter_map, List.map_map]
    rfl
  rw [hbare, hbare, map_components_congr fun path hpath => (h.markedAt_renamed hsuits all hpath).bare]

theorem failures_componentsAt_renamed :
    WholeIff (componentsAt disk cwd config paths all).failures
      (componentsAt disk' cwd (config.keyed new) paths all).failures
      (∀ path ∈ wantedAmong config paths, ¬ComponentDefers disk cwd config path) := by
  obtain ⟨hfailures, hfailures'⟩ := h.failures_componentsAt_eq paths all
  rw [hfailures, hfailures', ComponentLint.unplaced, ComponentLint.unplaced, components_componentsAt,
    components_componentsAt, wantedAmong_keyed]
  simp only [List.flatMap_map, ComponentResult.failures_unplaced]
  exact .flatMap fun path hpath => (h.markedAt_renamed hsuits all hpath).failures

theorem unplaced_componentsAt_renamed_iff :
    (componentsAt disk' cwd (config.keyed new) paths all).unplaced =
        (componentsAt disk cwd config paths all).unplaced ↔
      ∀ path ∈ wantedAmong config paths, ¬ComponentDefers disk cwd config path := by
  obtain ⟨hfailures, hfailures'⟩ := h.failures_componentsAt_eq paths all
  constructor
  · intro hsame
    rw [← (h.failures_componentsAt_renamed hsuits all).eq_iff, hfailures, hfailures', hsame]
  · intro hdefers
    exact map_components_congr fun path hpath =>
      (h.markedAt_renamed hsuits all hpath).unplaced (hdefers path hpath)

theorem components_componentsAt_renamed_iff (hplace : InPlace disk disk' config new)
    (hplain : Text.Plain new) (hidentifiers : ∀ path ∈ wantedAmong config paths,
      Text.Plain (config.naming.identifierOf (Path.within config.root path))) :
    (componentsAt disk' cwd (config.keyed new) paths all).components =
        (componentsAt disk cwd config paths all).components ↔
      ∀ path ∈ wantedAmong config paths, ¬ComponentDefers disk cwd config path := by
  have hmarked (disk : Disk) (config : Config) (path : String) :
      (markedAt disk cwd config paths all path).lines = (checkedAt disk cwd config all path).lines := by
    rw [markedAt, ComponentResult.lines, occurrences_markUnused, ComponentResult.lines]
  have hlines : (componentsAt disk' cwd (config.keyed new) paths all).components.map
        ComponentResult.lines =
      (componentsAt disk cwd config paths all).components.map ComponentResult.lines := by
    refine map_components_congr fun path hpath => ?_
    rw [hmarked, hmarked]
    exact h.lines_checkedAt_renamed hplace hplain (hidentifiers path hpath) all
  rw [← h.unplaced_componentsAt_renamed_iff hsuits all]
  constructor
  · intro hsame
    rw [ComponentLint.unplaced, ComponentLint.unplaced, hsame]
  · intro hunplaced
    exact eq_of_map_eq_map (fun _ _ => ComponentResult.eq_of_unplaced) hunplaced hlines

end Run

end RenamedProject

end Lint

end BlockCheck
