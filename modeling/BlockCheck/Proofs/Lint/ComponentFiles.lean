import BlockCheck.Proofs.Lint.UnusedProperties
import BlockCheck.Proofs.Naming.Identifiers

/-!
# The files of components

A run over components finds their files in the directories of the project and gives each file an
identifier. A run over documents goes from an identifier to a file. Under the usual conventions the
second way leads back to where the first began, unless another file is in the way, and both find the
same props there.
-/

namespace BlockCheck

theorem Props.schemaOfFile_congr {files : Files} {root a b : String}
    (h : Path.normalize a = Path.normalize b) : schemaOfFile files root a = schemaOfFile files root b := by
  unfold schemaOfFile extract
  rw [h]

/-! ## Discovery -/

namespace Discovery

variable {disk : Disk} {project root path : String} {roots : List Root} {endings : List String}

/-- A tidy path that leads to a file. The last step of the path ends in one of the endings. -/
structure Names (disk : Disk) (endings : List String) (path : String) : Prop where
  tidy : Path.tidy path = path
  absolute : Path.isAbsolute path = true
  file : ∃ key ∈ Record.keys disk.files, (Disk.target path).reverse = Path.steps key
  ending : ∃ front last, Path.steps path = front ++ [last] ∧
    Text.endsWithAny (String.ofList last) endings = true

theorem exists_of_mem_components (h : path ∈ components disk project roots) :
    ∃ root ∈ roots, disk.isDirectory (Path.below project root.1) = true ∧
      ∃ way ∈ disk.filesBelow (Path.below project root.1),
        Text.endsWithAny (way.getLastD "") root.2 = true ∧
          path = Path.below (Path.below project root.1) (Text.join "/" way) := by
  unfold components Path.sorted at h
  rw [List.mem_mergeSort, List.mem_eraseDups, List.mem_flatMap] at h
  obtain ⟨root, hroot, h⟩ := h
  dsimp only at h
  split at h
  · rename_i hdirectory
    unfold filesUnder at h
    obtain ⟨way, hway, rfl⟩ := List.mem_map.1 h
    obtain ⟨hbelow, hending⟩ := List.mem_filter.1 hway
    exact ⟨root, hroot, hdirectory, way, hbelow, hending, rfl⟩
  · cases h

theorem names_of_mem_components (hsound : disk.Sound) (hproject : Path.isAbsolute project = true)
    (h : path ∈ components disk project roots) : ∃ root ∈ roots, Names disk root.2 path := by
  obtain ⟨root, hroot, hdirectory, way, hway, hending, rfl⟩ := exists_of_mem_components h
  refine ⟨root, hroot, ?_⟩
  obtain ⟨rest, rfl, hrest, hstep, hdots, key, hkey, hsteps⟩ :=
    Disk.exists_steps_of_mem_filesBelow hsound hdirectory hway
  constructor
  · exact Path.tidy_tidy _
  · exact Path.isAbsolute_below (Path.isAbsolute_below hproject)
  · refine ⟨key, hkey, ?_⟩
    rw [Disk.target_below_join hrest hstep hdots, List.reverse_append, List.reverse_reverse, hsteps]
  · obtain ⟨front, last, rfl⟩ := (List.eq_nil_or_concat rest).resolve_left hrest
    refine ⟨Path.steps (Path.below project root.1) ++ front, last, ?_, ?_⟩
    · rw [Path.steps_below_join hrest hstep, List.concat_eq_append, List.append_assoc]
    · simpa using hending

namespace Names

variable (h : Names disk endings path)

include h

theorem steps_normalize : Path.steps (Path.normalize path) = (Disk.target path).reverse := by
  have hmark : (Path.mark path).isEmpty = false := by
    simpa using Path.isAbsolute_iff.1 h.absolute
  rw [Path.steps_normalize, hmark, Path.reduce, Disk.target, Bool.not_false]

theorem isFile_normalize (hsound : disk.Sound) : disk.isFile (Path.normalize path) = true := by
  obtain ⟨key, hkey, hfile⟩ := h.file
  exact hsound.isFile_of_steps hkey (h.steps_normalize.trans hfile)

theorem endsWithAny_within (hsound : disk.Sound) (habsolute : Path.isAbsolute root = true)
    (hdirectory : disk.isDirectory root = true) :
    Text.endsWithAny (Path.within root path) endings = true := by
  obtain ⟨front, last, hsteps, hlast⟩ := h.ending
  rcases Path.within_cases habsolute h.absolute with heq | ⟨rest, -, hbelow, heq⟩
  · rw [heq, ← h.tidy, Path.tidy_eq, hsteps]
    exact Path.endsWithAny_ofSteps (fun c hc => Path.isStep_of_mem_steps (hsteps ▸ hc)) hlast
  -- The path goes on behind the directory, which is no file.
  have hrest : rest ≠ [] := by
    rintro rfl
    obtain ⟨key, hkey, hfile⟩ := h.file
    rw [Disk.target, hbelow, List.append_nil] at hfile
    exact hsound.target_ne hkey hdirectory hfile
  obtain ⟨inner, d, rfl⟩ := (List.eq_nil_or_concat rest).resolve_left hrest
  rw [List.concat_eq_append] at hbelow heq
  have hd : d = last := by
    have hboth := hbelow.symm.trans hsteps
    rw [← List.append_assoc] at hboth
    exact (List.append_inj' hboth rfl).2 |> List.singleton_inj.1
  rw [heq, hd]
  refine Path.endsWithAny_ofSteps (fun c hc => ?_) hlast
  exact Path.isStep_of_mem_steps (hbelow ▸ List.mem_append_right _ (hd ▸ hc))

end Names

end Discovery

/-! ## Usual conventions -/

/-- What is resolved already is no identifier of the project, and a reference may leave out the
extension of any component. -/
structure Settings.Conventional (settings : Settings) : Prop where
  sentinel : Text.startsWith settings.sentinel settings.localPrefix = false
  extensions : ∀ root ∈ settings.componentRoots, root.2 ⊆ settings.sourceExtensions

theorem conventional_of_default {settings : Settings} (hlocal : settings.localPrefix = "site/")
    (hsentinel : settings.sentinel = "resolved")
    (hextensions : settings.sourceExtensions = [".tsx", ".ts"])
    (hroots : settings.componentRoots = ({} : Settings).componentRoots) : settings.Conventional where
  sentinel := by
    rw [hlocal, hsentinel]
    decide
  extensions := by
    rw [hextensions, hroots]
    decide

namespace Lint

theorem locate_surroundings (files : Files) (config : Config) :
    (surroundings files config).locate = config.naming.locate config.root files.isFile := rfl

theorem props_surroundings (files : Files) (config : Config) (path : String) :
    (surroundings files config).props path = Props.schemaOfFile files config.root path := rfl

/-- A project with the usual conventions. In the directory that is tried first for what an identifier
names there is no file that takes the place of a component. -/
structure Orderly (disk : Disk) (cwd : String) (config : Config) : Prop where
  sound : disk.Sound
  absolute : Path.isAbsolute config.root = true
  directory : disk.isDirectory config.root = true
  conventional : config.settings.Conventional
  unshadowed : ∀ path ∈ Discovery.components disk config.root config.settings.componentRoots,
    (disk.toFiles cwd).isFile (Path.normalize (Path.append config.root
      (config.settings.componentsDir ++ "/" ++ Path.within config.root path))) = false

theorem orderly_of_forProject {disk : Disk} {cwd root : String} {blocks : Option String}
    {settings : Settings} {config : Config} (hsound : disk.Sound)
    (hconfig : Config.forProject disk cwd root blocks settings = .ok config)
    (hconventional : settings.Conventional)
    (hunshadowed : ∀ path ∈ Discovery.components disk config.root config.settings.componentRoots,
      (disk.toFiles cwd).isFile (Path.normalize (Path.append config.root
        (config.settings.componentsDir ++ "/" ++ Path.within config.root path))) = false) :
    Orderly disk cwd config := by
  obtain ⟨rfl, hdirectory, -⟩ := Config.eq_of_forProject hconfig
  exact ⟨hsound, Path.isAbsolute_resolve cwd root, hdirectory, hconventional, hunshadowed⟩

namespace Orderly

variable {disk : Disk} {cwd path : String} {config : Config} (h : Orderly disk cwd config)
  (hpath : path ∈ Discovery.components disk config.root config.settings.componentRoots)

include h hpath

theorem locate_identifier :
    (surroundings (disk.toFiles cwd) config).locate
        (config.naming.identifierOf (Path.within config.root path)) =
      some (Path.normalize path) := by
  obtain ⟨root, hroot, hnames⟩ := Discovery.names_of_mem_components h.sound h.absolute hpath
  have hnormalize : Path.normalize (Path.append config.root (Path.within config.root path)) =
      Path.normalize path := Path.normalize_append_within h.absolute hnames.absolute
  have hextension : Text.endsWithAny (Path.within config.root path)
      config.naming.sourceExtensions = true := by
    have hending := hnames.endsWithAny_within h.sound h.absolute h.directory
    unfold Text.endsWithAny at hending ⊢
    rw [List.any_eq_true] at hending ⊢
    obtain ⟨ending, hmem, hends⟩ := hending
    exact ⟨ending, h.conventional.extensions root hroot hmem, hends⟩
  have hfile : (disk.toFiles cwd).isFile (Path.normalize path) = true := by
    have habsolute : Path.isAbsolute (Path.normalize path) = true := by
      rw [Path.isAbsolute_normalize]
      exact hnames.absolute
    unfold Disk.toFiles
    dsimp only
    rw [Path.append_of_isAbsolute habsolute]
    exact hnames.isFile_normalize h.sound
  rw [← hnormalize] at hfile
  rw [locate_surroundings, ← hnormalize]
  have hsentinel : config.naming.identifierOf (Path.within config.root path) ≠ config.naming.sentinel :=
    Naming.identifierOf_ne_sentinel h.conventional.sentinel _
  exact (Naming.locate_identifierOf hsentinel hextension hfile).trans
    (congrArg some (if_neg (ne_true_of_eq_false (h.unshadowed path hpath))))

end Orderly

theorem props_surroundings_normalize (files : Files) (config : Config) (path : String) :
    (surroundings files config).props (Path.normalize path) =
      Props.schemaOfFile files config.root path := by
  rw [props_surroundings]
  exact Props.schemaOfFile_congr (Path.normalize_idem path)

end Lint

end BlockCheck
