import BlockCheck.Discovery
import BlockCheck.Schema.Reading
import BlockCheck.Validation

/-!
# Configuration of a run

Where the project and its blocks lie, and the conventions that hold in it.
-/

namespace BlockCheck

structure Settings where
  discriminator : String := BlockCheck.discriminator
  localPrefix : String := "site/"
  foreignPrefixes : List String := ["website/"]
  sentinel : String := "resolved"
  componentsDir : String := "sections"
  sourceExtensions : List String := [".tsx", ".ts"]
  componentRoots : List Discovery.Root :=
    [("sections", [".tsx", ".ts"]), ("loaders", [".ts"]), ("actions", [".ts"])]
  /-- Components that are left out, by the end of their path. -/
  excluded : List String :=
    ["/Theme/Theme.tsx", "loaders/user.ts", "loaders/icons.ts", "loaders/wishlist.ts",
      "loaders/minicart.ts", "loaders/availableIcons.ts"]
  /-- Blocks that are entry points, by the beginning of their name. -/
  entryPrefixes : List String := ["pages-", "redirect-"]
  /-- Blocks that are entry points, by a part of their name. -/
  entryMarkers : List String := ["Preview"]
  /-- Components that are used without being referred to. -/
  neverUnused : List String := ["sections/Theme/", "sections/Component.tsx", "sections/Session.tsx"]
  reportUnusedProperties : Bool := false

structure Config where
  root : String
  blocksDir : String
  settings : Settings

inductive ConfigFault where
  /-- A directory does not exist. -/
  | noRoot (path : String)
  | noBlocks (path : String)
  /-- A setting is unknown or has a value of the wrong type. -/
  | badSetting
deriving DecidableEq, Repr

namespace ConfigFault

def message : ConfigFault → String
  | .noRoot path => "Project root not found: " ++ path
  | .noBlocks path => "Blocks directory not found: " ++ path
  | .badSetting => "Unknown or malformed setting"

end ConfigFault

namespace Config

def defaultBlocks : String := ".deco/blocks"

/-- The configuration of the project at `root` as seen from `cwd`. Its directories must exist. -/
def forProject (disk : Disk) (cwd root : String) (blocks : Option String) (settings : Settings) :
    Except ConfigFault Config :=
  let root := Path.resolve cwd root
  let blocks := Path.below root (blocks.getD defaultBlocks)
  if !disk.isDirectory root then .error (.noRoot root)
  else if !disk.isDirectory blocks then .error (.noBlocks blocks)
  else .ok ⟨root, blocks, settings⟩

theorem eq_of_forProject {disk : Disk} {cwd root : String} {blocks : Option String} {settings : Settings}
    {config : Config} (h : forProject disk cwd root blocks settings = .ok config) :
    config = ⟨Path.resolve cwd root, Path.below (Path.resolve cwd root) (blocks.getD defaultBlocks), settings⟩ ∧
      disk.isDirectory config.root = true ∧ disk.isDirectory config.blocksDir = true := by
  unfold forProject at h
  dsimp only at h
  split at h
  · cases h
  rename_i hroot
  split at h
  · cases h
  rename_i hblocks
  obtain rfl := Except.ok.inj h
  exact ⟨rfl, by simpa using hroot, by simpa using hblocks⟩

def naming (config : Config) : Naming where
  localPrefix := config.settings.localPrefix
  foreignPrefixes := config.settings.foreignPrefixes
  sentinel := config.settings.sentinel
  componentsDir := config.settings.componentsDir
  sourceExtensions := config.settings.sourceExtensions
  blocksDir := config.blocksDir

def mode (config : Config) : Mode := if config.settings.reportUnusedProperties then .strict else .lenient

end Config

namespace Settings

def isExcluded (settings : Settings) (relativePath : String) : Bool :=
  let path := "/" ++ Path.withSlashes relativePath
  settings.excluded.any fun e =>
    Text.endsWith path ("/" ++ String.ofList (e.toList.dropWhile (· = '/')))

def isEntryBlock (settings : Settings) (name : String) : Bool :=
  Text.startsWithAny name settings.entryPrefixes || settings.entryMarkers.any (Text.contains name)

def mayBeUnused (settings : Settings) (relativePath : String) : Bool :=
  let path := Path.withSlashes relativePath
  !settings.neverUnused.any fun p => Text.startsWith path p || Text.endsWith path p

/-! ## Settings written as JSON -/

def rootOf? : Json → Option Discovery.Root
  | .array [.string directory, extensions] => extensions.strings?.map fun es => (directory, es)
  | _ => none

def rootsOf? : Json → Option (List Discovery.Root)
  | .array roots => roots.mapM rootOf?
  | _ => none

/-- The settings with one field replaced; an unknown field or a value of the wrong type is
refused. -/
def setField (settings : Settings) (field : String × Json) : Option Settings :=
  let (name, value) := field
  match name with
  | "discriminator" => value.string?.map fun v => { settings with discriminator := v }
  | "local_prefix" => value.string?.map fun v => { settings with localPrefix := v }
  | "foreign_prefixes" => value.strings?.map fun v => { settings with foreignPrefixes := v }
  | "sentinel" => value.string?.map fun v => { settings with sentinel := v }
  | "components_dir" => value.string?.map fun v => { settings with componentsDir := v }
  | "source_extensions" => value.strings?.map fun v => { settings with sourceExtensions := v }
  | "component_roots" => (rootsOf? value).map fun v => { settings with componentRoots := v }
  | "excluded" => value.strings?.map fun v => { settings with excluded := v }
  | "entry_block_prefixes" => value.strings?.map fun v => { settings with entryPrefixes := v }
  | "entry_block_markers" => value.strings?.map fun v => { settings with entryMarkers := v }
  | "never_unused" => value.strings?.map fun v => { settings with neverUnused := v }
  | "report_unused_properties" => value.flag?.map fun v => { settings with reportUnusedProperties := v }
  | _ => none

def ofFields? (fields : List (String × Json)) : Option Settings :=
  fields.foldlM setField {}

end Settings

/-- The configuration of a project with settings that are written as JSON. That its directories
exist is looked at first. -/
def Config.ofFields (disk : Disk) (cwd root : String) (blocks : Option String)
    (fields : List (String × Json)) : Except ConfigFault Config := do
  let config ← Config.forProject disk cwd root blocks {}
  match Settings.ofFields? fields with
  | some settings => return { config with settings := settings }
  | none => throw .badSetting

end BlockCheck
