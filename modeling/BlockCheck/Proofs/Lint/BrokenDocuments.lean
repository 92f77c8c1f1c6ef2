import BlockCheck.Proofs.Disk.NewFile
import BlockCheck.Proofs.Lint.Escapes
import BlockCheck.Proofs.Lint.RenamedComponents
import BlockCheck.Proofs.Props.Trails

/-!
# Broken documents

A run over components skips a document that cannot be read or parsed. It says so and is not ok, and it says of
everything else what it says without the document, unless it comes to the file as to a source. A document that
is nested too deep is not skipped.
-/

namespace BlockCheck

variable {disk disk' : Disk} {cwd root place source : String}

namespace Disk.AddsFile

open Props

/-! ## Props without the new file -/

variable (h : disk.AddsFile disk' place)

include h

theorem enoughFuel_le (cwd : String) : enoughFuel (disk.toFiles cwd) ≤ enoughFuel (disk'.toFiles cwd) := by
  unfold enoughFuel toFiles
  dsimp only
  rw [h.keys, List.length_append]
  omega

theorem isFile_toFiles_mono {name : String} (hname : (disk.toFiles cwd).isFile name = true) :
    (disk'.toFiles cwd).isFile name = true := by
  unfold toFiles at hname ⊢
  dsimp only at hname ⊢
  exact h.isFile_iff.2 (Or.inl hname)

/-- The props of a source are the same, if the new file is not among those that are read to find them. -/
theorem schemaOfFile_eq (hroot : Path.isAbsolute root = true) (hsource : Path.isAbsolute source = true)
    (hreads : ∀ read, Reads (disk'.toFiles cwd) root source read →
      disk.locate ((disk.toFiles cwd).key read) ≠ .ok place) :
    schemaOfFile (disk'.toFiles cwd) root source = schemaOfFile (disk.toFiles cwd) root source := by
  have htext : ∀ file, Reads (disk'.toFiles cwd) root source file → ∀ text,
      (disk.toFiles cwd).text ((disk.toFiles cwd).key file) = .ok text ↔
        (disk'.toFiles cwd).text ((disk'.toFiles cwd).key file) = .ok text := by
    intro file hfile text
    rw [Disk.toFiles_text, Disk.toFiles_text]
    exact (h.text_eq_ok_iff (hreads file hfile)).symm
  rw [Props.schemaOfFile_eq (disk'.toFiles cwd), schemaOfFile_eq_of_le hroot hsource (h.enoughFuel_le cwd)]
  refine (chainSchema_congr htext (fun file specifier hfile himported => ?_) _ [] .source).symm
  have haliases : projectAliases (disk.toFiles cwd) root = projectAliases (disk'.toFiles cwd) root :=
    projectAliases_congr (htext _ .aliases)
  have hnormal : Path.IsNormal (importedFile (disk'.toFiles cwd) root specifier file) :=
    isNormal_importedFile hroot (isAbsolute_of_reads hroot hsource hfile) specifier
  have hfree : disk.locate (importedFile (disk'.toFiles cwd) root specifier file) ≠ .ok place := by
    have hread := hreads _ himported
    rwa [key_of_isNormal hnormal] at hread
  unfold importedFile at hnormal hfree ⊢
  rw [haliases]
  refine probe_congr (fun _ => h.isFile_toFiles_mono) fun hfound => ?_
  rw [Disk.isFile_toFiles _ _ hnormal.absolute] at hfound ⊢
  exact (h.isFile_iff.1 hfound).resolve_right hfree

end Disk.AddsFile

namespace Lint

variable {config : Config} {target : Option String} {path : String}

/-- To find the props of the components that a run is over, it reads the file at the path. -/
def ReadsAsSource (disk : Disk) (cwd : String) (config : Config) (target : Option String)
    (path : String) : Prop :=
  ∃ paths ∈ wantedPaths disk config target, ∃ source ∈ paths, ∃ read,
    Props.Reads (disk.toFiles cwd) config.root source read ∧
      disk.locate ((disk.toFiles cwd).key read) = disk.locate path

/-- The second disk has one document more, which cannot be read or parsed. -/
structure AddsBroken (disk disk' : Disk) (config : Config) (path : String) : Prop where
  sound : disk.Sound
  root : Path.isAbsolute config.root = true
  blocks : Path.isAbsolute config.blocksDir = true
  written : ∃ bytes written, disk.writeFile path bytes = .ok written ∧
    (disk' = written ∨ disk' = written.deny path)
  absent : path ∉ Discovery.documents disk config.blocksDir
  listed : path ∈ Discovery.documents disk' config.blocksDir
  broken : ∀ text, disk'.text path = .ok text → ∀ value, Json.parse text ≠ .ok value

def loadErrors (disk : Disk) (cwd : String) (config : Config) (paths : List String) : List DocumentIssue :=
  (paths.map (LoadedDocument.load (disk.toFiles cwd) config.blocksDir)).filterMap LoadedDocument.issue?

def antiPatternsOf (config : Config) (document : LoadedDocument) : List AntiPattern :=
  match document.content with
  | .ok (text, value) => AntiPattern.find config.settings.discriminator document.name value text
  | .error _ => []

theorem antiPatterns_componentsAt (disk : Disk) (cwd : String) (config : Config) (paths : List String)
    (all : Bool) : (componentsAt disk cwd config paths all).antiPatterns =
      (loaded disk cwd config).flatMap (antiPatternsOf config) := rfl

theorem isAbsolute_of_mem_wantedPaths (hroot : Path.isAbsolute config.root = true) {paths : List String}
    (hpaths : paths ∈ wantedPaths disk config target) (hsource : source ∈ paths) :
    Path.isAbsolute source = true := by
  cases target with
  | none =>
    cases hpaths
    obtain ⟨root, -, -, way, -, -, rfl⟩ := Discovery.exists_of_mem_components hsource
    exact Path.isAbsolute_below (Path.isAbsolute_below hroot)
  | some target =>
    unfold wantedPaths at hpaths
    dsimp only at hpaths
    split at hpaths
    · cases hpaths
      obtain rfl := List.mem_singleton.1 hsource
      exact Path.isAbsolute_below hroot
    · cases hpaths

/-! ## Runs beside a new file -/

section AddsFile

variable (hadds : disk.AddsFile disk' place)

include hadds

theorem locate_ne_of_unread (hunread : ¬ReadsAsSource disk' cwd config target path)
    (hplace : disk.locate path = .ok place) {paths : List String}
    (hpaths : paths ∈ wantedPaths disk' config target) (hsource : source ∈ paths) {read : String}
    (hread : Props.Reads (disk'.toFiles cwd) config.root source read) :
    disk.locate ((disk.toFiles cwd).key read) ≠ .ok place := by
  intro hthere
  refine hunread ⟨paths, hpaths, source, hsource, read, hread, ?_⟩
  rw [hadds.locate_eq_ok_iff.2 hplace]
  exact hadds.locate_eq_ok_iff.2 hthere

theorem wantedPaths_addsFile (hsound : disk'.Sound) (hroot : Path.isAbsolute config.root = true)
    (hapart : ∀ paths ∈ wantedPaths disk' config target, ∀ source ∈ paths,
      disk.locate (Path.normalize source) ≠ .ok place) :
    wantedPaths disk' config target = wantedPaths disk config target := by
  cases target with
  | none =>
    unfold wantedPaths
    rw [hadds.components_eq hsound hroot fun source hsource => hapart _ rfl source hsource]
  | some target =>
    have hisFile : disk'.isFile (Path.below config.root target) = disk.isFile (Path.below config.root target) := by
      rw [Bool.eq_iff_iff, hadds.isFile_iff]
      refine or_iff_left fun hhere => ?_
      -- The target would be the new file.
      have hwanted : wantedPaths disk' config (some target) = some [Path.below config.root target] := by
        unfold wantedPaths
        dsimp only
        rw [if_pos (hadds.isFile_iff.2 (Or.inr hhere))]
      refine hapart _ hwanted _ (List.mem_singleton.2 rfl) ?_
      rw [← hadds.locate_eq_ok_iff]
      exact hsound.locate_normalize hadds.mem_keys (Path.isAbsolute_below hroot) (Disk.locate_eq_ok hhere).symm
    unfold wantedPaths
    dsimp only
    rw [hisFile]

theorem text_addsFile (hsound : disk.Sound) (hblocks : Path.isAbsolute config.blocksDir = true)
    (hpath : path ∈ Discovery.documents disk config.blocksDir) :
    (disk'.toFiles cwd).text ((disk'.toFiles cwd).key path) =
      (disk.toFiles cwd).text ((disk.toFiles cwd).key path) := by
  obtain ⟨key, hkey, hlocate⟩ := Discovery.exists_place_of_document hsound hblocks hpath
  have habsolute := Discovery.isAbsolute_of_mem_documents hblocks hpath
  rw [Disk.text_toFiles disk cwd habsolute, Disk.text_toFiles disk' cwd habsolute]
  exact hadds.text_eq hlocate (ne_of_mem_of_not_mem hkey hadds.fresh)

theorem load_addsFile (hsound : disk.Sound) (hblocks : Path.isAbsolute config.blocksDir = true)
    (hpath : path ∈ Discovery.documents disk config.blocksDir) :
    LoadedDocument.load (disk'.toFiles cwd) config.blocksDir path =
      LoadedDocument.load (disk.toFiles cwd) config.blocksDir path := by
  unfold LoadedDocument.load
  rw [text_addsFile hadds hsound hblocks hpath]

theorem loadEscape?_addsFile (hsound : disk.Sound) (hblocks : Path.isAbsolute config.blocksDir = true)
    (hpath : path ∈ Discovery.documents disk config.blocksDir) (room : Nat) :
    loadEscape? room (disk'.toFiles cwd) path = loadEscape? room (disk.toFiles cwd) path := by
  unfold loadEscape?
  rw [text_addsFile hadds hsound hblocks hpath]

end AddsFile

theorem documentOccurrences_of_error {document : LoadedDocument} {problem : Problem}
    (h : document.content = .error problem) (identifier : String) (props : Option Schema) :
    documentOccurrences config identifier props document = [] := by
  rw [documentOccurrences_eq, h]

theorem checkedAt_congr {all : Bool}
    (hloaded : ∀ identifier props,
      (loaded disk' cwd config).flatMap (documentOccurrences config identifier props) =
        (loaded disk cwd config).flatMap (documentOccurrences config identifier props))
    (himports : Imports.analyze disk' config.root config.settings.localPrefix =
      Imports.analyze disk config.root config.settings.localPrefix)
    (hprops : Props.schemaOfFile (disk'.toFiles cwd) config.root path =
      Props.schemaOfFile (disk.toFiles cwd) config.root path) :
    checkedAt disk' cwd config all path = checkedAt disk cwd config all path := by
  unfold checkedAt component
  dsimp only
  rw [himports, hprops, hloaded]

theorem components_congr {paths : List String} {all : Bool}
    (h : ∀ path ∈ paths, checkedAt disk' cwd config all path = checkedAt disk cwd config all path) :
    (componentsAt disk' cwd config paths all).components =
      (componentsAt disk cwd config paths all).components := by
  have hchecked : ∀ path ∈ wantedAmong config paths,
      checkedAt disk' cwd config all path = checkedAt disk cwd config all path :=
    fun path hpath => h path (List.mem_filter.1 hpath).1
  have hunused : unusedAmong disk' cwd config paths all = unusedAmong disk cwd config paths all := by
    unfold unusedAmong
    rw [List.map_congr_left hchecked]
  rw [components_componentsAt, components_componentsAt]
  refine List.map_congr_left fun path hpath => ?_
  rw [markedAt, markedAt, hunused, hchecked path hpath]

namespace AddsBroken

variable (h : AddsBroken disk disk' config path)

include h

theorem exists_place :
    ∃ place, disk.AddsFile disk' place ∧ disk.locate path = .ok place ∧ disk'.Sound := by
  obtain ⟨bytes, written, hwrite, hwritten⟩ := h.written
  have hdocuments : Discovery.documents disk' config.blocksDir = Discovery.documents written config.blocksDir := by
    obtain rfl | rfl := hwritten
    · rfl
    · exact (written.samePlaces_deny path).documents_eq _
  obtain hsame | ⟨place, hplace, hadds⟩ := Disk.samePlaces_or_addsFile hwrite
  · exact absurd (hsame.documents_eq config.blocksDir ▸ hdocuments ▸ h.listed) h.absent
  have hsound := h.sound.writeFile hwrite
  obtain rfl | rfl := hwritten
  · exact ⟨place, hadds, hplace, hsound⟩
  · exact ⟨place, hadds.deny hplace, hplace, (written.samePlaces_deny path).sound hsound⟩

theorem exists_problem : ∃ problem, LoadedDocument.load (disk'.toFiles cwd) config.blocksDir path =
    ⟨Path.within config.blocksDir path, .error problem⟩ := by
  obtain ⟨place, hadds, hplace, hsound⟩ := h.exists_place
  have habsolute := Discovery.isAbsolute_of_mem_documents h.blocks h.listed
  have hthere := hadds.locate_document hsound h.blocks h.listed h.absent
  unfold LoadedDocument.load
  rw [Disk.text_toFiles disk' cwd habsolute]
  cases htext : disk'.text (Path.normalize path) with
  | error fault => exact ⟨_, rfl⟩
  | ok text =>
    dsimp only
    have htext' : disk'.text path = .ok text := by
      rw [Disk.text_eq_ok_iff] at htext ⊢
      rwa [hadds.locate_eq_ok_iff.2 hplace, ← hadds.locate_eq_ok_iff.2 hthere]
    cases hparse : Json.parse text with
    | error reason => exact ⟨_, rfl⟩
    | ok value => exact absurd hparse (h.broken text htext' value)

theorem exists_loaded_eq (cwd : String) : ∃ before after problem,
    Discovery.documents disk config.blocksDir = before ++ after ∧
    Discovery.documents disk' config.blocksDir = before ++ path :: after ∧
    (LoadedDocument.load (disk'.toFiles cwd) config.blocksDir path).content = .error problem ∧
    loaded disk cwd config = before.map (LoadedDocument.load (disk.toFiles cwd) config.blocksDir) ++
      after.map (LoadedDocument.load (disk.toFiles cwd) config.blocksDir) ∧
    loaded disk' cwd config = before.map (LoadedDocument.load (disk.toFiles cwd) config.blocksDir) ++
      ⟨Path.within config.blocksDir path, .error problem⟩ ::
        after.map (LoadedDocument.load (disk.toFiles cwd) config.blocksDir) := by
  obtain ⟨place, hadds, -, -⟩ := h.exists_place
  obtain ⟨problem, hproblem⟩ := h.exists_problem
  obtain ⟨before, after, hdocuments, hdocuments'⟩ := hadds.exists_documents_eq h.blocks h.listed h.absent
  refine ⟨before, after, problem, hdocuments, hdocuments', by rw [hproblem], ?_, ?_⟩
  · rw [loaded, hdocuments, List.map_append]
  · have hload : ∀ document ∈ before ++ after, LoadedDocument.load (disk'.toFiles cwd) config.blocksDir document =
        LoadedDocument.load (disk.toFiles cwd) config.blocksDir document := by
      intro document hdocument
      exact load_addsFile hadds h.sound h.blocks (hdocuments ▸ hdocument)
    rw [loaded, hdocuments', List.map_append, List.map_cons, hproblem]
    rw [List.map_congr_left fun document hdocument => hload document (List.mem_append_left _ hdocument),
      List.map_congr_left fun document hdocument => hload document (List.mem_append_right _ hdocument)]

theorem flatMap_loaded_eq {α : Type} {f : LoadedDocument → List α}
    (hf : ∀ document : LoadedDocument, ∀ problem, document.content = .error problem → f document = []) :
    (loaded disk' cwd config).flatMap f = (loaded disk cwd config).flatMap f := by
  obtain ⟨before, after, problem, -, -, -, hloaded, hloaded'⟩ := h.exists_loaded_eq cwd
  rw [hloaded, hloaded', List.flatMap_append, List.flatMap_append, List.flatMap_cons, hf _ problem rfl,
    List.nil_append]

theorem antiPatterns_eq (paths : List String) (all : Bool) :
    (componentsAt disk' cwd config paths all).antiPatterns =
      (componentsAt disk cwd config paths all).antiPatterns := by
  rw [antiPatterns_componentsAt, antiPatterns_componentsAt]
  refine h.flatMap_loaded_eq fun document problem hproblem => ?_
  rw [antiPatternsOf, hproblem]

theorem findSome?_loadEscape?_eq (room : Nat) (hfits : ¬StopsComponents room disk' cwd path) :
    (Discovery.documents disk' config.blocksDir).findSome? (loadEscape? room (disk'.toFiles cwd)) =
      (Discovery.documents disk config.blocksDir).findSome? (loadEscape? room (disk.toFiles cwd)) := by
  obtain ⟨place, hadds, -, -⟩ := h.exists_place
  obtain ⟨before, after, -, hdocuments, hdocuments', -⟩ := h.exists_loaded_eq cwd
  have hsame : ∀ document ∈ before ++ after,
      loadEscape? room (disk'.toFiles cwd) document = loadEscape? room (disk.toFiles cwd) document :=
    fun document hdocument => loadEscape?_addsFile hadds h.sound h.blocks (hdocuments ▸ hdocument) room
  have hnone : loadEscape? room (disk'.toFiles cwd) path = none := by
    rw [← loadEscape?_isSome_iff] at hfits
    simpa using hfits
  rw [hdocuments', hdocuments, List.findSome?_append, List.findSome?_cons, hnone, ← List.findSome?_append,
    ← List.head?_filterMap, ← List.head?_filterMap, List.filterMap_congr hsame]

section Unread

variable (hunread : ¬ReadsAsSource disk' cwd config target path)

include hunread

theorem locate_source_ne (hadds : disk.AddsFile disk' place) (hplace : disk.locate path = .ok place)
    {paths : List String} (hpaths : paths ∈ wantedPaths disk' config target) (hsource : source ∈ paths) :
    disk.locate (Path.normalize source) ≠ .ok place := by
  have habsolute := isAbsolute_of_mem_wantedPaths h.root hpaths hsource
  have hne := locate_ne_of_unread hadds hunread hplace hpaths hsource .source
  rwa [Props.key_of_isNormal (Path.isNormal_normalize habsolute)] at hne

theorem wantedPaths_eq : wantedPaths disk' config target = wantedPaths disk config target := by
  obtain ⟨place, hadds, hplace, hsound⟩ := h.exists_place
  exact wantedPaths_addsFile hadds hsound h.root fun paths hpaths source hsource =>
    h.locate_source_ne hunread hadds hplace hpaths hsource

theorem checkedAt_eq {paths : List String} (hpaths : paths ∈ wantedPaths disk config target)
    (hsource : source ∈ paths) (all : Bool) :
    checkedAt disk' cwd config all source = checkedAt disk cwd config all source := by
  obtain ⟨place, hadds, hplace, hsound⟩ := h.exists_place
  refine checkedAt_congr (fun identifier props => ?_) ?_ ?_
  · exact h.flatMap_loaded_eq fun document problem hproblem =>
      documentOccurrences_of_error hproblem identifier props
  · exact hadds.analyze_eq hsound h.blocks h.listed h.absent _ _
  · refine hadds.schemaOfFile_eq h.root (isAbsolute_of_mem_wantedPaths h.root hpaths hsource) ?_
    rw [← h.wantedPaths_eq hunread] at hpaths
    exact fun read hread => locate_ne_of_unread hadds hunread hplace hpaths hsource hread

end Unread

end AddsBroken

theorem components_eq_of_addsBroken (h : AddsBroken disk disk' config path)
    (hunread : ¬ReadsAsSource disk' cwd config target path) {before after : List String} {problem : Problem}
    (hissues : (loaded disk cwd config).filterMap LoadedDocument.issue? =
      loadErrors disk cwd config before ++ loadErrors disk cwd config after)
    (hissues' : (loaded disk' cwd config).filterMap LoadedDocument.issue? =
      loadErrors disk cwd config before ++
        ⟨Path.within config.blocksDir path, problem⟩ :: loadErrors disk cwd config after) :
    (∀ lint ∈ components disk cwd config target, lint.documentErrors =
      loadErrors disk cwd config before ++ loadErrors disk cwd config after) ∧
    components disk' cwd config target = (components disk cwd config target).map fun lint =>
      { lint with documentErrors := loadErrors disk cwd config before ++
          ⟨Path.within config.blocksDir path, problem⟩ :: loadErrors disk cwd config after } := by
  constructor
  · intro lint hlint
    rw [components_eq_map] at hlint
    obtain ⟨paths, -, rfl⟩ := Option.map_eq_some_iff.1 hlint
    exact hissues
  · rw [components_eq_map, components_eq_map, h.wantedPaths_eq hunread, Option.map_map]
    refine Option.map_congr fun paths hpaths => ?_
    -- What cannot be read mentions nothing, so it makes no difference to any component.
    have hcomponents : (componentsAt disk' cwd config paths target.isNone).components =
        (componentsAt disk cwd config paths target.isNone).components :=
      components_congr fun source hsource => h.checkedAt_eq hunread hpaths hsource _
    dsimp only [Function.comp_apply]
    rw [← hcomponents, ← h.antiPatterns_eq, ← hissues']
    rfl

/-- If a document is added that cannot be read or parsed, and that the run does not come to as to a source, then
the run says so at the document's place in the order of the documents, and is not ok. Nothing else that it says
is different. What stops the run without the document stops it with it, and nothing else does, as long as the
document itself is not nested too deep. -/
theorem runComponents_eq_of_addsBroken (room : Nat) (disk disk' : Disk) (cwd : String) (config : Config)
    (target : Option String) (path : String) (h : AddsBroken disk disk' config path)
    (hfits : ¬StopsComponents room disk' cwd path)
    (hunread : ¬ReadsAsSource disk' cwd config target path) :
    ∃ before after problem,
      Discovery.documents disk config.blocksDir = before ++ after ∧
      Discovery.documents disk' config.blocksDir = before ++ path :: after ∧
      (LoadedDocument.load (disk'.toFiles cwd) config.blocksDir path).content = .error problem ∧
      (∀ lint, runComponents room disk cwd config target = .ok (some lint) →
        lint.documentErrors = loadErrors disk cwd config before ++ loadErrors disk cwd config after) ∧
      runComponents room disk' cwd config target =
        (runComponents room disk cwd config target).map (Option.map fun lint =>
          { lint with documentErrors := loadErrors disk cwd config before ++
              ⟨Path.within config.blocksDir path, problem⟩ :: loadErrors disk cwd config after }) ∧
      ∀ lint, runComponents room disk' cwd config target = .ok (some lint) → lint.ok = false := by
  obtain ⟨before, after, problem, hdocuments, hdocuments', hproblem, hloaded, hloaded'⟩ :=
    h.exists_loaded_eq cwd
  have hissues : (loaded disk cwd config).filterMap LoadedDocument.issue? =
      loadErrors disk cwd config before ++ loadErrors disk cwd config after := by
    rw [hloaded, List.filterMap_append]
    rfl
  have hissues' : (loaded disk' cwd config).filterMap LoadedDocument.issue? =
      loadErrors disk cwd config before ++
        ⟨Path.within config.blocksDir path, problem⟩ :: loadErrors disk cwd config after := by
    rw [hloaded', List.filterMap_append]
    rfl
  obtain ⟨herrors, hrun⟩ := components_eq_of_addsBroken h hunread hissues hissues'
  have hstops := h.findSome?_loadEscape?_eq room hfits
  refine ⟨before, after, problem, hdocuments, hdocuments', hproblem, ?_, ?_, ?_⟩
  · exact fun lint hlint => herrors lint (components_eq_of_runComponents hlint)
  · unfold runComponents
    rw [hrun]
    cases components disk cwd config target with
    | none => rfl
    | some lint =>
      dsimp only [Option.map_some]
      rw [hstops]
      split <;> rfl
  · intro lint hlint
    have hlint' := components_eq_of_runComponents hlint
    rw [hrun] at hlint'
    obtain ⟨without, -, rfl⟩ := Option.map_eq_some_iff.1 hlint'
    unfold ComponentLint.ok ComponentLint.errorCount
    simp

/-! ## A component that passes on a default -/

def useText : String := "\x7b\"__resolveType\":\"site/s/a.ts\"\x7d"

/-- A component passes on the default of a module, which passes on that of a file among the blocks. -/
def passingText : String := "export\x7bdefault\x7dfrom\"../m.ts\""

def moduleText : String := "export\x7bdefault\x7dfrom\"./b/x.json\""

def brokenText : String := "interface Props\x7bt:string\x7d"

def passingDisk (component : String) : Disk where
  files := [("/p/b/h.json", useText.toUTF8.toList), ("/p/m.ts", moduleText.toUTF8.toList),
    ("/p/s/a.ts", component.toUTF8.toList)]
  directories := ["/", "/p", "/p/b", "/p/s"]

def withBroken (disk : Disk) : Disk :=
  { disk with files := disk.files ++ [("/p/b/x.json", brokenText.toUTF8.toList)] }

def passingConfig : Config := ⟨"/p", "/p/b", { componentRoots := [("s", [".ts"])], excluded := [] }⟩

theorem samePlaces_passing (component : String) : (passingDisk "").SamePlaces (passingDisk component) ∧
    (withBroken (passingDisk "")).SamePlaces (withBroken (passingDisk component)) :=
  ⟨⟨rfl, rfl⟩, ⟨rfl, rfl⟩⟩

theorem documents_passing (component : String) :
    Discovery.documents (passingDisk component) passingConfig.blocksDir = ["/p/b/h.json"] ∧
      Discovery.documents (withBroken (passingDisk component)) passingConfig.blocksDir =
        ["/p/b/h.json", "/p/b/x.json"] := by
  obtain ⟨hsame, hsame'⟩ := samePlaces_passing component
  have hfound : Discovery.unsortedDocuments (passingDisk "") passingConfig.blocksDir = ["/p/b/h.json"] := by decide
  have hfound' : Discovery.unsortedDocuments (withBroken (passingDisk "")) passingConfig.blocksDir =
      ["/p/b/h.json", "/p/b/x.json"] := by decide
  constructor
  · rw [hsame.documents_eq, Discovery.documents_eq_of_pairwise (hfound ▸ List.pairwise_singleton ..), hfound]
  · rw [hsame'.documents_eq, Discovery.documents_eq_of_pairwise (hfound' ▸ by decide), hfound']

theorem writeFile_passing (component : String) :
    (passingDisk component).writeFile "/p/b/x.json" brokenText.toUTF8.toList =
      .ok (withBroken (passingDisk component)) := by
  obtain ⟨hsame, -⟩ := samePlaces_passing component
  have hlocate : (passingDisk "").locate "/p/b/x.json" = .ok "/p/b/x.json" := by decide
  have hparent : (passingDisk "").hasDirectory (Path.directory "/p/b/x.json") = true := by decide
  refine Disk.writeFile_of_new ((hsame.locate_eq _).trans hlocate) ?_ ?_ ?_
  · rw [hsame.hasDirectory_eq]
    decide
  · rw [hsame.hasDirectory_eq]
    exact hparent
  · rw [hsame.keys]
    decide

theorem addsBroken_passing : ∀ component ∈ ["", passingText],
    AddsBroken (passingDisk component) (withBroken (passingDisk component)) passingConfig "/p/b/x.json" := by
  intro component hcomponent
  obtain ⟨hsame, -⟩ := samePlaces_passing component
  obtain ⟨hdocuments, hdocuments'⟩ := documents_passing component
  have htext : ∀ component ∈ ["", passingText],
      (withBroken (passingDisk component)).text "/p/b/x.json" = .ok brokenText := by decide +kernel
  have hparse : (Json.parse brokenText).toOption = none := by decide +kernel
  constructor
  · exact hsame.sound (by constructor <;> decide +kernel)
  · decide
  · decide
  · exact ⟨_, _, writeFile_passing component, Or.inl rfl⟩
  · rw [hdocuments]
    decide
  · rw [hdocuments']
    decide
  · intro text hread value hvalue
    cases (htext component hcomponent).symm.trans hread
    rw [hvalue] at hparse
    cases hparse

def withUnreadable (disk : Disk) : Disk := (withBroken disk).deny "/p/b/x.json"

def brokenDisks : List Disk := [withBroken (passingDisk ""), withUnreadable (passingDisk "")]

theorem documents_brokenDisks : ∀ disk ∈ brokenDisks,
    Discovery.documents disk passingConfig.blocksDir = ["/p/b/h.json", "/p/b/x.json"] := by
  have hsame := (withBroken (passingDisk "")).samePlaces_deny "/p/b/x.json"
  have hfound := (documents_passing "").2
  simp only [brokenDisks, List.forall_mem_cons]
  exact ⟨hfound, (hsame.documents_eq _).trans hfound, nofun⟩

theorem addsBroken_brokenDisks : ∀ disk ∈ brokenDisks,
    AddsBroken (passingDisk "") disk passingConfig "/p/b/x.json" := by
  have h := addsBroken_passing "" (by simp)
  simp only [brokenDisks, List.forall_mem_cons]
  refine ⟨h, ⟨h.sound, h.root, h.blocks, ⟨_, _, writeFile_passing "", Or.inr rfl⟩, h.absent, ?_, ?_⟩, nofun⟩
  · exact ((withBroken (passingDisk "")).samePlaces_deny _).documents_eq _ ▸ h.listed
  · have hunreadable : ((withUnreadable (passingDisk "")).text "/p/b/x.json").toOption = none := by decide
    intro text htext
    rw [htext] at hunreadable
    cases hunreadable

theorem wantedPaths_passing : ∀ component ∈ ["", passingText],
    ∀ disk ∈ [passingDisk component, withBroken (passingDisk component), withUnreadable (passingDisk component)],
      wantedPaths disk passingConfig none = some ["/p/s/a.ts"] := by decide +kernel

theorem not_readsAsSource_empty : ∀ disk ∈ brokenDisks,
    ¬ReadsAsSource disk "/" passingConfig none "/p/b/x.json" := by
  rintro disk hdisk ⟨paths, hpaths, source, hsource, read, hread, hplace⟩
  rw [wantedPaths_passing "" (by simp) _ (List.mem_cons_of_mem _ hdisk)] at hpaths
  cases hpaths
  obtain rfl := List.mem_singleton.1 hsource
  have haliases : Props.aliasFile passingConfig.root = "/p/deno.json" := by decide
  have hnormal : Path.normalize "/p/s/a.ts" = "/p/s/a.ts" := by decide
  have hmissing : ∀ disk ∈ brokenDisks, (disk.toFiles "/").text
      ((disk.toFiles "/").key (Props.aliasFile passingConfig.root)) = .error (.noEntry "/p/deno.json") := by
    decide +kernel
  have htext : ∀ disk ∈ brokenDisks, (disk.toFiles "/").text
      ((disk.toFiles "/").key (Path.normalize "/p/s/a.ts")) = .ok "" := by decide +kernel
  have hapart : ∀ disk ∈ brokenDisks, ∀ read ∈ ["/p/deno.json", "/p/s/a.ts"],
      disk.locate ((disk.toFiles "/").key read) ≠ disk.locate "/p/b/x.json" := by decide +kernel
  have hends := hread.eq_of_no_reexport (hmissing disk hdisk) (htext disk hdisk) (by decide +kernel)
  rw [haliases, hnormal] at hends
  exact hapart disk hdisk read (by simpa using hends) hplace

theorem loadErrors_passing {before after : List String} (hdocuments : ["/p/b/h.json"] = before ++ after)
    (hdocuments' : ["/p/b/h.json", "/p/b/x.json"] = before ++ "/p/b/x.json" :: after) :
    loadErrors (passingDisk "") "/" passingConfig before = [] ∧
      loadErrors (passingDisk "") "/" passingConfig after = [] := by
  have hload : (loadErrors (passingDisk "") "/" passingConfig ["/p/b/h.json"]).isEmpty = true := by
    decide +kernel
  cases before with
  | nil =>
    obtain rfl : after = ["/p/b/h.json"] := hdocuments.symm
    exact absurd hdocuments' (by decide)
  | cons first rest =>
    obtain ⟨rfl, hrest⟩ := List.cons.inj hdocuments
    obtain ⟨rfl, rfl⟩ := List.append_eq_nil_iff.1 hrest.symm
    exact ⟨List.isEmpty_iff.1 hload, rfl⟩

theorem not_stopsComponents_passing : ∀ component ∈ ["", passingText],
    (∀ path ∈ Discovery.documents (passingDisk component) passingConfig.blocksDir,
      ¬StopsComponents 100 (passingDisk component) "/" path) ∧
    ∀ path ∈ Discovery.documents (withBroken (passingDisk component)) passingConfig.blocksDir,
      ¬StopsComponents 100 (withBroken (passingDisk component)) "/" path := by
  have hroom : ∀ component ∈ ["", passingText],
      (∀ path ∈ ["/p/b/h.json"], ¬StopsComponents 100 (passingDisk component) "/" path) ∧
        ∀ path ∈ ["/p/b/h.json", "/p/b/x.json"],
          ¬StopsComponents 100 (withBroken (passingDisk component)) "/" path := by decide +kernel
  intro component hcomponent
  rw [(documents_passing component).1, (documents_passing component).2]
  exact hroom component hcomponent

/-- The run goes on where the new text is no JSON and where it cannot be read. -/
theorem runComponents_passing_eq :
    ∃ lint, runComponents 100 (passingDisk "") "/" passingConfig none = .ok (some lint) ∧
      (∃ problem, runComponents 100 (withBroken (passingDisk "")) "/" passingConfig none =
        .ok (some { lint with documentErrors := [⟨"x.json", problem⟩] })) ∧
      ∃ problem, runComponents 100 (withUnreadable (passingDisk "")) "/" passingConfig none =
        .ok (some { lint with documentErrors := [⟨"x.json", problem⟩] }) := by
  have hlint : runComponents 100 (passingDisk "") "/" passingConfig none =
      .ok (some (whole (passingDisk "") "/" passingConfig)) :=
    runComponents_eq_ok (not_stopsComponents_passing "" (by simp)).1
  have hfits : ∀ disk ∈ brokenDisks, ¬StopsComponents 100 disk "/" "/p/b/x.json" := by decide +kernel
  have hname : Path.within passingConfig.blocksDir "/p/b/x.json" = "x.json" := by decide +kernel
  have hrun : ∀ disk ∈ brokenDisks, ∃ problem, runComponents 100 disk "/" passingConfig none =
      .ok (some { whole (passingDisk "") "/" passingConfig with documentErrors := [⟨"x.json", problem⟩] }) := by
    intro disk hdisk
    obtain ⟨before, after, problem, hdocuments, hdocuments', -, -, hrun, -⟩ :=
      runComponents_eq_of_addsBroken 100 _ _ "/" passingConfig none _ (addsBroken_brokenDisks disk hdisk)
        (hfits disk hdisk) (not_readsAsSource_empty disk hdisk)
    rw [(documents_passing "").1] at hdocuments
    rw [documents_brokenDisks disk hdisk] at hdocuments'
    obtain ⟨hbefore, hafter⟩ := loadErrors_passing hdocuments hdocuments'
    rw [hlint, hbefore, hafter, hname] at hrun
    exact ⟨problem, hrun⟩
  exact ⟨_, hlint, hrun _ (by simp [brokenDisks]), hrun _ (by simp [brokenDisks])⟩

/-- The source passes on the default of the file. -/
inductive PassesOn (files : Files) (root source file : String) : Prop
  | reexport {text specifier : String} : files.text (files.key source) = .ok text →
      (Props.outlineOf source text).reexportedDefault? = some specifier →
      Props.importedFile files root specifier source = file → PassesOn files root source file

theorem flatMap_occurrences_componentsAt (disk : Disk) (cwd : String) (config : Config) (paths : List String)
    (all : Bool) : (componentsAt disk cwd config paths all).components.flatMap (·.occurrences) =
      (wantedAmong config paths).flatMap fun path =>
        (Discovery.documents disk config.blocksDir).flatMap (occurrencesIn disk cwd config path) := by
  rw [components_componentsAt, List.flatMap_map]
  refine List.flatMap_congr fun path _ => ?_
  rw [markedAt, occurrences_markUnused, occurrences_checkedAt]

/-- The file is none that a component passes on, but the module that the component passes on does so. With the
file the component has props, and the run over the file itself is one over a component. -/
theorem components_passing_differ :
    AddsBroken (passingDisk passingText) (withBroken (passingDisk passingText)) passingConfig "/p/b/x.json" ∧
    "/p/b/x.json" ≠ Props.aliasFile passingConfig.root ∧
    (∀ paths ∈ wantedPaths (withBroken (passingDisk passingText)) passingConfig none, ∀ source ∈ paths,
      source ≠ "/p/b/x.json" ∧
        ¬PassesOn ((withBroken (passingDisk passingText)).toFiles "/") passingConfig.root source "/p/b/x.json") ∧
    (runComponents 100 (passingDisk passingText) "/" passingConfig none).map (Option.map fun lint =>
      (lint.components.flatMap (·.occurrences)).map (·.errors)) = .ok (some [[]]) ∧
    (runComponents 100 (withBroken (passingDisk passingText)) "/" passingConfig none).map (Option.map fun lint =>
      (lint.components.flatMap (·.occurrences)).map (·.errors)) = .ok (some [[⟨"t", .missing⟩]]) ∧
    (runComponents 100 (passingDisk passingText) "/" passingConfig (some "b/x.json")).map Option.isSome = .ok false ∧
    (runComponents 100 (withBroken (passingDisk passingText)) "/" passingConfig (some "b/x.json")).map
      Option.isSome = .ok true := by
  obtain ⟨hdocuments, hdocuments'⟩ := documents_passing passingText
  obtain ⟨hroom, hroom'⟩ := not_stopsComponents_passing passingText (by simp)
  have hwanted := wantedPaths_passing passingText (by simp)
  simp only [runComponents_eq_ok hroom, runComponents_eq_ok hroom', Except.map, Except.ok.injEq]
  refine ⟨addsBroken_passing _ (by simp), by decide +kernel, ?_, ?_, ?_, by decide +kernel, by decide +kernel⟩
  · intro paths hpaths source hsource
    rw [hwanted _ (by simp)] at hpaths
    cases hpaths
    obtain rfl := List.mem_singleton.1 hsource
    refine ⟨by decide, ?_⟩
    rintro ⟨htext, hspecifier, hfile⟩
    have hpassing : ((withBroken (passingDisk passingText)).toFiles "/").text
        (((withBroken (passingDisk passingText)).toFiles "/").key "/p/s/a.ts") = .ok passingText := by
      decide +kernel
    have hmodule : (Props.outlineOf "/p/s/a.ts" passingText).reexportedDefault? = some "../m.ts" := by
      decide +kernel
    have hother : Props.importedFile ((withBroken (passingDisk passingText)).toFiles "/") passingConfig.root "../m.ts"
        "/p/s/a.ts" ≠ "/p/b/x.json" := by decide +kernel
    cases hpassing.symm.trans htext
    obtain rfl := Option.some.inj (hmodule.symm.trans hspecifier)
    exact hother hfile
  · rw [components_eq_map, hwanted _ (by simp), Option.map_map, Option.map_some, Function.comp_apply,
      flatMap_occurrences_componentsAt, hdocuments]
    decide +kernel
  · rw [components_eq_map, hwanted _ (by simp), Option.map_map, Option.map_some, Function.comp_apply,
      flatMap_occurrences_componentsAt, hdocuments']
    decide +kernel

end Lint

end BlockCheck
