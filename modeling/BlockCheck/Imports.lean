import BlockCheck.Disk

/-!
# Components used from code

A source file that no document refers to may still be imported by another one. Specifiers are
found in the text of the files by what stands in front of them, without reading the syntax.
-/

namespace BlockCheck

structure Imports where
  /-- Paths from the root of the project, without extensions. -/
  modules : List String
  count : Nat
  files : Nat

namespace Imports

def isQuote (c : Char) : Bool := c = '"' || c = '\''

/-- The specifier behind a word that the text begins with: white space, a quote, and what stands
up to the next quote of either kind. -/
def specifierAfter? (word s : List Char) : Option (List Char × List Char) := do
  guard (word.isPrefixOf s)
  let blank := s.drop word.length
  guard (blank.head?.any Text.isBlank)
  match blank.dropWhile Text.isBlank with
  | q :: rest =>
    guard (isQuote q)
    let specifier := rest.takeWhile (!isQuote ·)
    guard (!specifier.isEmpty)
    match rest.drop specifier.length with
    | _ :: after => some (specifier, after)
    | [] => none
  | [] => none

def specifier? (s : List Char) : Option (List Char × List Char) :=
  specifierAfter? "from".toList s <|> specifierAfter? "import".toList s

/-- The specifiers in a text; the next `skip` characters belong to one already found. -/
def specifiersFrom : Nat → List Char → List String
  | _, [] => []
  | skip + 1, _ :: rest => specifiersFrom skip rest
  | 0, c :: rest =>
    match specifier? (c :: rest) with
    | some (specifier, after) =>
      String.ofList specifier :: specifiersFrom (rest.length - after.length) rest
    | none => specifiersFrom 0 rest

def specifiers (content : String) : List String := specifiersFrom 0 content.toList

def moduleExtensions : List String := [".tsx", ".ts", ".jsx", ".js"]

/-- The path without its extension, which a last line feed may follow. -/
def withoutExtension (path : String) : String :=
  let (body, last) := if Text.endsWith path "\n" then (Text.dropEnd path 1, "\n") else (path, "")
  match moduleExtensions.find? (Text.endsWith body) with
  | some e => Text.dropEnd body e.length ++ last
  | none => path

def isImported (imports : Imports) (path : String) : Bool :=
  imports.modules.contains (withoutExtension (Path.withSlashes path))

def skippedDirectories : List String := ["node_modules", ".deco", "_fresh", ".git"]

def sourceExtensions : List String := [".ts", ".tsx"]

def sources (disk : Disk) (project : String) : List String :=
  (disk.filesBelow project).filterMap fun way =>
    if way.dropLast.any skippedDirectories.contains then none
    else if Text.endsWithAny (way.getLastD "") sourceExtensions then
      some (Path.below project (Text.join "/" way))
    else none

def modulesIn (localPrefix content : String) : List String :=
  ((specifiers content).filter (Text.startsWith · localPrefix)).map
    (fun s => withoutExtension (Text.drop s localPrefix.length))

/-- Looks through a project. A file that cannot be read imports nothing. -/
def analyze (disk : Disk) (project localPrefix : String) : Imports :=
  let files := sources disk project
  let found := files.flatMap fun f =>
    match disk.text f with
    | .ok content => modulesIn localPrefix content
    | .error _ => []
  { modules := found.eraseDups, count := found.length, files := files.length }

end Imports

end BlockCheck
