import BlockCheck.AntiPattern
import BlockCheck.Config
import BlockCheck.Document.Escape
import BlockCheck.Imports
import BlockCheck.Props.Session
import BlockCheck.Usage

/-!
# Checking components

Every place where a document refers to a component of the project is checked against the props
of the component. A component that nothing refers to is unused.
-/

namespace BlockCheck

structure OccurrenceResult where
  /-- The path of the document from the directory of blocks. -/
  document : String
  path : String
  line : Option Nat
  errors : List Issue
  warnings : List Issue

structure ComponentResult where
  /-- The path of the source from the root of the project. -/
  file : String
  identifier : String
  occurrences : List OccurrenceResult
  unused : Bool
  /-- Used from code only. -/
  imported : Bool
  /-- Issues of the component as a whole. -/
  issues : List Issue

structure DocumentIssue where
  document : String
  problem : Problem

structure ComponentLint where
  root : String
  components : List ComponentResult
  documentErrors : List DocumentIssue
  antiPatterns : List AntiPattern

/-- A document of the project with its text, or why it has none. -/
structure LoadedDocument where
  name : String
  content : Except Problem (String × Json)

namespace DocumentIssue

def message (issue : DocumentIssue) : String := issue.problem.message

end DocumentIssue

namespace ComponentResult

/-- The errors of the component as a whole and those of its occurrences. -/
def errors (c : ComponentResult) : List Issue :=
  c.issues.filter Issue.isError ++ c.occurrences.flatMap (·.errors)

def warnings (c : ComponentResult) : List Issue :=
  c.issues.filter Issue.isWarning ++ c.occurrences.flatMap (·.warnings)

def errorCount (c : ComponentResult) : Nat := c.errors.length

def warningCount (c : ComponentResult) : Nat := c.warnings.length

end ComponentResult

namespace ComponentLint

def errorCount (lint : ComponentLint) : Nat :=
  (lint.components.flatMap ComponentResult.errors).length + lint.documentErrors.length

/-- An unused component is counted as such, and not by its warnings. -/
def warningCount (lint : ComponentLint) : Nat :=
  ((lint.components.filter (fun c => !c.unused)).flatMap ComponentResult.warnings).length

def occurrenceCount (lint : ComponentLint) : Nat := (lint.components.flatMap (·.occurrences)).length

/-- Warnings do not fail a run. -/
def ok (lint : ComponentLint) : Bool := lint.errorCount = 0

def unused (lint : ComponentLint) : List String :=
  (lint.components.filter (·.unused)).map (·.file)

end ComponentLint

namespace LoadedDocument

def load (files : Files) (blocks path : String) : LoadedDocument where
  name := Path.within blocks path
  content :=
    match files.text (files.key path) with
    | .error fault => .error (.unreadable fault.message)
    | .ok text =>
      match Json.parse text with
      | .error reason => .error (.unreadable reason)
      | .ok document => .ok (text, document)

def issue? (document : LoadedDocument) : Option DocumentIssue :=
  match document.content with
  | .error problem => some ⟨document.name, problem⟩
  | .ok _ => none

end LoadedDocument

namespace Lint

/-- The issues of one occurrence. Without props there is nothing to check it against. -/
def occurrenceIssues (mode : Mode) (props : Option Schema) (occurrence : Scan.Occurrence) : List Issue :=
  match props with
  | none => [⟨"Props", .propsNotFound⟩]
  | some s => s.validate mode "" (some (.object occurrence.properties))

def documentOccurrences (config : Config) (identifier : String) (props : Option Schema)
    (document : LoadedDocument) : List OccurrenceResult :=
  match document.content with
  | .error _ => []
  | .ok (text, value) =>
    let key := config.settings.discriminator
    (Scan.occurrences key identifier value).zipIdx.map fun (occurrence, n) =>
      let issues := occurrenceIssues config.mode props occurrence
      { document := document.name
        path := occurrence.location.text
        line := Text.pairLine? text key identifier n
        errors := issues.filter Issue.isError
        warnings := issues.filter Issue.isWarning }

/-- One component, before it is known what is unused. -/
def component (config : Config) (files : Files) (documents : List LoadedDocument)
    (imports : Option Imports) (path : String) : ComponentResult :=
  let file := Path.within config.root path
  let identifier := config.naming.identifierOf file
  let props := Props.schemaOfFile files config.root path
  let occurrences := documents.flatMap (documentOccurrences config identifier props)
  { file := file
    identifier := identifier
    occurrences := occurrences
    unused := false
    imported := occurrences.isEmpty && imports.any (·.isImported file)
    issues := [] }

/-- The identifiers of components that are used neither by a document nor from code, other than
those that may stay so. -/
def unusedIdentifiers (settings : Settings) (components : List ComponentResult) : List String :=
  let used := components.filter (fun c => !c.occurrences.isEmpty || c.imported)
  let kept := components.filter (fun c => !settings.mayBeUnused c.file)
  Usage.unused (used.map (·.identifier)) (components.map (·.identifier)) (kept.map (·.identifier))

def markUnused (identifiers : List String) (c : ComponentResult) : ComponentResult :=
  if identifiers.contains c.identifier then
    { c with unused := true, issues := c.issues ++ [⟨"", .unused⟩] }
  else c

/-- Checks the components at the given paths. Only a run over all components can tell which of
them are unused. -/
def componentsAt (disk : Disk) (cwd : String) (config : Config) (paths : List String)
    (all : Bool) : ComponentLint :=
  let files := disk.toFiles cwd
  let documents :=
    (Discovery.documents disk config.blocksDir).map (LoadedDocument.load files config.blocksDir)
  let imports :=
    if all then some (Imports.analyze disk config.root config.settings.localPrefix) else none
  let wanted := paths.filter (fun p => !config.settings.isExcluded (Path.within config.root p))
  let components := wanted.map (component config files documents imports)
  let unused := if all then unusedIdentifiers config.settings components else []
  { root := config.root
    components := components.map (markUnused unused)
    documentErrors := documents.filterMap LoadedDocument.issue?
    antiPatterns := documents.flatMap fun d =>
      match d.content with
      | .ok (text, value) => AntiPattern.find config.settings.discriminator d.name value text
      | .error _ => [] }

/-- Checks the component at `target`, or all of them; nothing if there is no such file. -/
def components (disk : Disk) (cwd : String) (config : Config) (target : Option String) :
    Option ComponentLint :=
  match target with
  | none =>
    let paths := Discovery.components disk config.root config.settings.componentRoots
    some (componentsAt disk cwd config paths true)
  | some target =>
    let path := Path.below config.root target
    if disk.isFile path then some (componentsAt disk cwd config [path] false) else none

def loadEscape? (room : Nat) (files : Files) (path : String) : Option Escape :=
  match files.text (files.key path) with
  | .error _ => none
  | .ok text => (Json.overflow? room text).map .tooDeep

/-- Checks components, unless something stops the run. That the target is a file is looked at first. -/
def runComponents (room : Nat) (disk : Disk) (cwd : String) (config : Config) (target : Option String) :
    Except Escape (Option ComponentLint) :=
  match components disk cwd config target with
  | none => .ok none
  | some lint =>
    let paths := Discovery.documents disk config.blocksDir
    match paths.findSome? (loadEscape? room (disk.toFiles cwd)) with
    | some escape => .error escape
    | none => .ok (some lint)

def targetMissing (target : String) : String := "File not found: " ++ target

end Lint

end BlockCheck
