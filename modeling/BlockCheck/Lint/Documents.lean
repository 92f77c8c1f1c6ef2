import BlockCheck.Config
import BlockCheck.Document.Escape
import BlockCheck.Document.Session
import BlockCheck.Usage

/-!
# Checking documents

Every reference of every document is checked, the saved blocks it pulls in included. A block
that no document refers to and that is no entry point is unused.
-/

namespace BlockCheck

structure DocumentLint where
  root : String
  documents : Nat
  reports : List Report
  unresolved : List Unresolved
  unusedBlocks : List String

namespace DocumentLint

def errorCount (lint : DocumentLint) : Nat := (lint.reports.flatMap Report.errors).length

def warningCount (lint : DocumentLint) : Nat := (lint.reports.flatMap Report.warnings).length

def ok (lint : DocumentLint) : Bool := lint.reports.all (·.errors.isEmpty)

end DocumentLint

namespace Lint

def rules (config : Config) : Document.Rules where
  naming := config.naming
  key := config.settings.discriminator
  mode := config.mode
  root := config.root
  blocksDir := config.blocksDir

def surroundings (files : Files) (config : Config) : Surroundings :=
  (rules config).surroundings (.fresh files (some config.root))

def documentAt (files : Files) (config : Config) (path : String) : Outcome :=
  let name := Path.within config.blocksDir path
  match files.text (files.key path) with
  | .error fault => .ofProblem name "" "" (.unreadable fault.message)
  | .ok text => Document.check (surroundings files config) name [] text

def documentEscape? (room : Nat → Nat) (files : Files) (config : Config) (path : String) :
    Option Escape :=
  match files.text (files.key path) with
  | .error _ => none
  | .ok text => Document.escape? room (surroundings files config) [] text

/-- The blocks whose documents lie directly in their directory, other than entry points. -/
def reusableBlocks (config : Config) (paths : List String) : List String :=
  let direct := paths.filter (fun p => Path.directory p = config.blocksDir)
  (direct.map (fun p => BlockName.ofFileName (Path.fileName p))).filter
    (fun n => !config.settings.isEntryBlock n)

def documents (disk : Disk) (cwd : String) (config : Config) : DocumentLint :=
  let files := disk.toFiles cwd
  let paths := Discovery.documents disk config.blocksDir
  let outcome := Outcome.concat (paths.map (documentAt files config))
  { root := config.root
    documents := paths.length
    reports := outcome.reports
    unresolved := outcome.unresolved
    unusedBlocks := Usage.unused outcome.usedBlocks (reusableBlocks config paths) [] }

def runDocuments (room : Nat → Nat) (disk : Disk) (cwd : String) (config : Config) :
    Except Escape DocumentLint :=
  let paths := Discovery.documents disk config.blocksDir
  match paths.findSome? (documentEscape? room (disk.toFiles cwd) config) with
  | some escape => .error escape
  | none => .ok (documents disk cwd config)

end Lint

end BlockCheck
