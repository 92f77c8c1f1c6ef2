import BlockCheck.Files
import BlockCheck.Json.Parser
import BlockCheck.Props.Resolution

/-!
# Finding the props of a component file

A file may pass on the default of another module, which is then looked up and read in its place.
A session remembers the texts it has read, the tables of import aliases and the schemas it has
found, each until it is told to forget them.
-/

namespace BlockCheck.Props

/-- Aliases for the beginnings of module specifiers. -/
abbrev ImportMap := List (String × String)

structure Session where
  files : Files
  /-- What the targets of aliases are relative to; without it no alias is followed. -/
  root : Option String
  /-- The texts read so far, if they are kept. -/
  texts : Option (List (String × String))
  /-- The schemas found so far, if they are kept. -/
  schemas : Option (List (String × Option Schema))
  /-- The aliases of the project, once they are known. -/
  imports : Option ImportMap
  tables : List (String × ImportMap)

namespace Session

def fresh (files : Files) (root : Option String) : Session where
  files := files
  root := root.map Path.normalize
  texts := some []
  schemas := some []
  imports := none
  tables := []

def forgetTexts (session : Session) : Session := { session with texts := session.texts.map fun _ => [] }

def forgetSchemas (session : Session) : Session :=
  { session with schemas := session.schemas.map fun _ => [] }

def forgetTables (session : Session) : Session := { session with tables := [] }

end Session

abbrev Run := StateM Session

def readText (path : String) : Run (Except ReadFault String) := do
  let session ← get
  let key := session.files.key path
  match session.texts.bind (List.lookup key) with
  | some text => return .ok text
  | none =>
    match session.files.text key with
    | .ok text =>
      set { session with texts := session.texts.map (Record.insert key text) }
      return .ok text
    | .error fault => return .error fault

def isFile (path : String) : Run Bool := return (← get).files.isFile path

/-! ## Import aliases -/

def aliasesOf (text : String) : ImportMap :=
  match Json.parse text with
  | .ok document =>
    match document.get? "imports" with
    | some (.object members) => members.filterMap fun m => m.2.string?.map fun target => (m.1, target)
    | _ => []
  | .error _ => []

/-- The aliases of a project; none if its configuration file is missing or faulty. -/
def loadAliases (root : String) : Run ImportMap := do
  let root := Path.normalize root
  match (← get).tables.lookup root with
  | some table => return table
  | none =>
    let table := match ← readText (Path.append root "deno.json") with
      | .ok text => aliasesOf text
      | .error _ => []
    modify fun session => { session with tables := Record.insert root table session.tables }
    return table

def importMap : Run ImportMap := do
  let session ← get
  match session.imports with
  | some table => return table
  | none =>
    let table ← match session.root with
      | some root => loadAliases root
      | none => pure []
    modify fun session => { session with imports := some table }
    return table

/-- The longest alias that the specifier starts with, and the first of several equally long. -/
def longestAlias (specifier : String) (table : ImportMap) : Option (String × String) :=
  let fitting := table.filter fun entry => Text.startsWith specifier entry.1
  fitting.foldl (fun best entry =>
    match best with
    | none => some entry
    | some b => if b.1.length < entry.1.length then some entry else some b) none

/-! ## Module specifiers -/

def isRelative (path : String) : Bool := Text.startsWithAny path ["./", "../"]

def probeExtensions : List String := [".tsx", ".ts", ".jsx", ".js"]

/-- The path itself if it is a file, else with the first extension that makes it one. -/
def probe (files : Files) (path : String) : String :=
  let path := Path.normalize path
  if files.isFile path then path
  else ((probeExtensions.map (path ++ ·)).find? files.isFile).getD path

/-- The path that a specifier names before extensions are tried. An alias that does not lead into
the project leads nowhere. -/
def basePath (root : Option String) (table : ImportMap) (specifier directory : String) : String :=
  let here := Path.append directory specifier
  if isRelative specifier then here
  else
    match root, longestAlias specifier table with
    | some root, some (start, target) =>
      if isRelative target then
        Path.append (Path.append root target) (Text.drop specifier start.length)
      else here
    | _, _ => here

def resolveImport (specifier file : String) : Run String := do
  let table ← if isRelative specifier || (← get).root.isNone then pure [] else importMap
  let session ← get
  return probe session.files (basePath session.root table specifier (Path.parent file))

/-! ## Schemas of files -/

def markupExtensions : List String := [".tsx", ".jsx"]

def outlineOf (path text : String) : Source.Outline :=
  Source.Outline.ofText (Text.endsWithAny path markupExtensions) text

/-- Follows the chain of files that pass on each other's default; `chain` are the files that led
here. A chain that comes back to itself leads to nothing. -/
def follow : Nat → List String → String → Run (Option Schema)
  | 0, _, _ => return none
  | fuel + 1, chain, path => do
    if chain.contains path then return none
    match ← readText path with
    | .error _ => return none
    | .ok text =>
      let outline := outlineOf path text
      match outline.reexportedDefault? with
      | some specifier => follow fuel (path :: chain) (← resolveImport specifier path)
      | none => return schemaOf? outline

/-- The props schema of a component file, if it has one. No chain visits more paths than there are
files, each possibly under two names. -/
def extract (path : String) : Run (Option Schema) := do
  let path := Path.normalize path
  match (← get).schemas.bind (List.lookup path) with
  | some found => return found
  | none =>
    let found ← follow (2 * (← get).files.paths.length + 2) [] path
    modify fun session => { session with schemas := session.schemas.map (Record.insert path found) }
    return found

/-- The schema that a session finds that has just begun. -/
def schemaOfFile (files : Files) (root : String) (path : String) : Option Schema :=
  ((extract path).run (.fresh files (some root))).1

end BlockCheck.Props
