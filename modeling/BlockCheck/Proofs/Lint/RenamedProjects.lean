import BlockCheck.Proofs.Disk.Contents
import BlockCheck.Proofs.Lint.ComponentFiles
import BlockCheck.Proofs.Lint.RenamedDocuments
import BlockCheck.Proofs.Lint.UnusedBlocks
import BlockCheck.Proofs.Props.Reading

/-!
# Projects with a renamed discriminator

The discriminator of a project is renamed in all its documents and in its settings, and nothing else is
touched. The sources are then found and imported as before, and they describe the same props unless they
are written in documents themselves.
-/

namespace BlockCheck

def Config.keyed (config : Config) (key : String) : Config :=
  { config with settings := { config.settings with discriminator := key } }

namespace Lint

theorem read_blocks {config : Config} (habsolute : Path.isAbsolute config.blocksDir = true) (disk : Disk)
    (cwd name : String) :
    (surroundings (disk.toFiles cwd) config).blocks.read name =
      let path := Path.append (Path.normalize config.blocksDir) (BlockName.toFileName name)
      if disk.isFile path then some (disk.text (Path.normalize path)) else none := by
  have hnormal : Path.isAbsolute (Path.append (Path.normalize config.blocksDir)
      (BlockName.toFileName name)) = true :=
    Path.isAbsolute_append (Path.isAbsolute_normalize.trans habsolute)
  rw [blocks_surroundings]
  unfold BlockStore.read BlockStore.pathFor BlockStore.ofDirectory
  dsimp only
  rw [Disk.isFile_toFiles disk cwd hnormal, Disk.text_toFiles disk cwd hnormal]

def HoldsDocument (disk : Disk) (config : Config) (place : String) : Prop :=
  ∃ path ∈ Discovery.documents disk config.blocksDir, disk.locate (Path.normalize path) = .ok place

/-- The props of a source are not written in documents, and they name neither the discriminator nor the
other key. -/
structure Suits (disk : Disk) (cwd : String) (config : Config) (new source : String) : Prop where
  apart : ∀ file, Props.Reads (disk.toFiles cwd) config.root source file → ∀ place,
    disk.locate ((disk.toFiles cwd).key file) = .ok place → ¬HoldsDocument disk config place
  undeclared : ∀ s, Props.schemaOfFile (disk.toFiles cwd) config.root source = some s →
    ¬s.Declares discriminator ∧ ¬s.Declares new

/-- The second disk holds the first one's project with the discriminator renamed in every document. All
documents can be parsed, none has the new key, and none refers to a component whose props name it. -/
structure RenamedProject (disk disk' : Disk) (cwd : String) (config : Config) (new : String) : Prop where
  sound : disk.Sound
  absolute : Path.isAbsolute config.blocksDir = true
  key : config.settings.discriminator = discriminator
  reserved : Text.startsWith new reservedStart = true
  places : disk.SamePlaces disk'
  others : ∀ place, ¬HoldsDocument disk config place → disk.SameAt disk' place
  texts : ∀ path ∈ Discovery.documents disk config.blocksDir, ∃ text text',
    disk.text (Path.normalize path) = .ok text ∧ disk'.text (Path.normalize path) = .ok text' ∧
      RenamedText new text text'
  suits : ∀ path ∈ Discovery.documents disk config.blocksDir, ∀ text,
    disk.text (Path.normalize path) = .ok text →
      ∀ r ∈ Document.references (surroundings (disk.toFiles cwd) config) text, r.kind ≠ .savedBlock →
        ∀ source, config.naming.locate config.root (disk.toFiles cwd).isFile r.identifier = some source →
          Suits disk cwd config new source

namespace RenamedProject

variable {disk disk' : Disk} {cwd new path source : String} {config : Config}
  (h : RenamedProject disk disk' cwd config new)

include h

/-! ## What stays the same -/

theorem isAbsolute_document (hpath : path ∈ Discovery.documents disk config.blocksDir) :
    Path.isAbsolute path = true := Discovery.isAbsolute_of_mem_documents h.absolute hpath

theorem text_document (hpath : path ∈ Discovery.documents disk config.blocksDir) : ∃ text text',
    (disk.toFiles cwd).text ((disk.toFiles cwd).key path) = .ok text ∧
      (disk'.toFiles cwd).text ((disk'.toFiles cwd).key path) = .ok text' ∧
        disk.text (Path.normalize path) = .ok text ∧ RenamedText new text text' := by
  obtain ⟨text, text', htext, htext', hrenamed⟩ := h.texts path hpath
  have habsolute := h.isAbsolute_document hpath
  rw [Disk.text_toFiles disk cwd habsolute, Disk.text_toFiles disk' cwd habsolute]
  exact ⟨text, text', htext, htext', htext, hrenamed⟩

theorem schemaOfFile_eq (hsource : Suits disk cwd config new source) :
    Props.schemaOfFile (disk'.toFiles cwd) config.root source =
      Props.schemaOfFile (disk.toFiles cwd) config.root source := by
  have hpaths : (disk'.toFiles cwd).paths = (disk.toFiles cwd).paths := h.places.keys
  refine Props.schemaOfFile_congr_files rfl (h.places.isFile_toFiles_eq cwd) hpaths fun file hfile => ?_
  rw [Disk.toFiles_text, Disk.toFiles_text]
  exact h.places.text_eq fun place hplace => h.others place (hsource.apart file hfile place hplace)

theorem analyze_eq (localPrefix : String) :
    Imports.analyze disk' config.root localPrefix = Imports.analyze disk config.root localPrefix := by
  refine Disk.analyze_congr h.places _ _ fun source hsource => ?_
  refine h.places.text_eq fun place hplace => h.others place ?_
  rintro ⟨path, hpath, hdocument⟩
  have htarget := Disk.target_eq_of_locate hplace hdocument
  rw [Disk.target_normalize (h.isAbsolute_document hpath)] at htarget
  exact Disk.target_source_ne_document h.sound hsource hpath htarget

/-! ## A run over documents -/

theorem renamedIn {text text' : String} (hpath : path ∈ Discovery.documents disk config.blocksDir)
    (htext : disk.text (Path.normalize path) = .ok text) (hrenamed : RenamedText new text text') :
    Document.RenamedIn (surroundings (disk.toFiles cwd) config)
      (surroundings (disk'.toFiles cwd) (config.keyed new)) text text' where
  renamed := hrenamed
  props r hr hkind source hlocate := by
    rw [props_surroundings, props_surroundings]
    exact h.schemaOfFile_eq (h.suits path hpath text htext r hr hkind source hlocate)
  undeclared r hr hkind s hs := by
    obtain ⟨source, hlocate, hprops⟩ := Option.bind_eq_some_iff.1 hs
    rw [locate_surroundings] at hlocate
    rw [props_surroundings] at hprops
    exact (h.suits path hpath text htext r hr hkind source hlocate).undeclared s hprops

theorem renamed_surroundings (hdirectory : disk.isDirectory config.blocksDir = true) :
    Document.Renamed (surroundings (disk.toFiles cwd) config)
      (surroundings (disk'.toFiles cwd) (config.keyed new)) where
  key := h.key
  reserved := h.reserved
  naming := rfl
  mode := rfl
  locate := by
    rw [locate_surroundings, locate_surroundings, h.places.isFile_toFiles_eq]
    rfl
  blocks name := by
    have hname := BlockName.isName_toFileName name
    have hplaces := h.places.isFile_eq (Path.append (Path.normalize config.blocksDir)
      (BlockName.toFileName name))
    have habsolute' : Path.isAbsolute (config.keyed new).blocksDir = true := h.absolute
    have hblocks : (config.keyed new).blocksDir = config.blocksDir := rfl
    rw [read_blocks h.absolute, read_blocks habsolute', hblocks]
    dsimp only
    rw [hplaces]
    by_cases hblock : disk.isFile (Path.append (Path.normalize config.blocksDir)
        (BlockName.toFileName name)) = true
    · have hpath := Discovery.below_mem_documents hname (BlockName.endsWith_toFileName name)
        (Disk.isFile_append_normalize h.absolute hname hdirectory hblock)
      obtain ⟨text, text', htext, htext', hrenamed⟩ := h.texts _ hpath
      have hin := h.renamedIn hpath htext hrenamed
      rw [Disk.normalize_below_name h.absolute hname] at htext htext'
      rw [if_pos hblock, if_pos hblock, htext, htext']
      exact Or.inr ⟨text, text', rfl, rfl, hin⟩
    · rw [if_neg hblock, if_neg hblock]
      exact Or.inl ⟨rfl, rfl⟩

end RenamedProject

/-- Some document of the project refers to a component, directly or through blocks, where it gives a
reference in place of a list. -/
def DocumentsDefer (disk : Disk) (cwd : String) (config : Config) : Prop :=
  let files := disk.toFiles cwd
  ∃ path ∈ Discovery.documents disk config.blocksDir, ∃ text, files.text (files.key path) = .ok text ∧
    ∃ content, Document.Visits (surroundings files config) [] text content ∧
      Document.DefersIn (surroundings files config) content

namespace RenamedProject

variable {disk disk' : Disk} {cwd new path : String} {config : Config}
  (h : RenamedProject disk disk' cwd config new)

include h

theorem documentAt_renamed (hpath : path ∈ Discovery.documents disk config.blocksDir) :
    (documentAt (disk.toFiles cwd) config path).GrowsUnless
      (documentAt (disk'.toFiles cwd) (config.keyed new) path)
      (∀ text, (disk.toFiles cwd).text ((disk.toFiles cwd).key path) = .ok text →
        ∀ content, Document.Visits (surroundings (disk.toFiles cwd) config) [] text content →
          ¬Document.DefersIn (surroundings (disk.toFiles cwd) config) content) := by
  obtain ⟨text, text', htext, htext', hread, hrenamed⟩ := h.text_document hpath
  have hsurroundings := h.renamed_surroundings (Discovery.mem_documents_iff.1 hpath).1
  have hcheck := Document.check_renamed hsurroundings (Path.within config.blocksDir path) [] text text'
    (h.renamedIn hpath hread hrenamed)
  unfold documentAt
  rw [htext, htext']
  refine hcheck.congr ?_
  simp

theorem outcome_renamed :
    (Outcome.concat ((Discovery.documents disk config.blocksDir).map
        (documentAt (disk.toFiles cwd) config))).GrowsUnless
      (Outcome.concat ((Discovery.documents disk config.blocksDir).map
        (documentAt (disk'.toFiles cwd) (config.keyed new))))
      (¬DocumentsDefer disk cwd config) := by
  refine (Outcome.GrowsUnless.concat_map fun path hpath => h.documentAt_renamed hpath).congr ?_
  simp only [DocumentsDefer, not_exists, not_and]

/-- The run over documents finds the same failures again, and more of them if and only if a document
gives a reference in place of a list. -/
theorem documents_renamed :
    (documents disk' cwd (config.keyed new)).unresolved = (documents disk cwd config).unresolved ∧
    (documents disk' cwd (config.keyed new)).unusedBlocks = (documents disk cwd config).unusedBlocks ∧
    ((documents disk' cwd (config.keyed new)).reports = (documents disk cwd config).reports ↔
      ¬DocumentsDefer disk cwd config) ∧
    WholeIff (documents disk cwd config).failures (documents disk' cwd (config.keyed new)).failures
      (¬DocumentsDefer disk cwd config) := by
  have hgrows := h.outcome_renamed
  have hdocuments : Discovery.documents disk' (config.keyed new).blocksDir =
      Discovery.documents disk config.blocksDir := h.places.documents_eq _
  unfold documents
  rw [hdocuments]
  refine ⟨hgrows.unresolved, ?_, hgrows.reports_eq_iff, hgrows.failures⟩
  dsimp only
  rw [hgrows.usedBlocks]
  rfl

end RenamedProject

end Lint

end BlockCheck
