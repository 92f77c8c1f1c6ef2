import BlockCheck.Json.Printer
import BlockCheck.Lint.Components

/-!
# The report of a run

A summary of a run over components, to be kept as a file. A component is listed by its errors,
else by its warnings, else as unused; one that is in none of these lists is valid.
-/

namespace BlockCheck.RunReport

def number (n : Nat) : Json := .int n

def strings (ss : List String) : Json := .array (ss.map .string)

def lineValue (line : Option Nat) : Json := (line.map number).getD .null

def withErrors (lint : ComponentLint) : List ComponentResult :=
  lint.components.filter fun c => !c.unused && c.errorCount != 0

def withWarnings (lint : ComponentLint) : List ComponentResult :=
  lint.components.filter fun c => !c.unused && c.errorCount == 0 && c.warningCount != 0

def validCount (lint : ComponentLint) : Int :=
  (lint.components.length : Int) - (withErrors lint).length - (withWarnings lint).length
    - lint.unused.length

def errorEntries (c : ComponentResult) : List Json :=
  c.occurrences.flatMap fun o => o.errors.map fun e =>
    .object [("jsonFile", .string o.document), ("line", lineValue o.line),
      ("property", .string e.path), ("message", .string e.problem.message)]

def warningEntries (c : ComponentResult) : List Json :=
  c.occurrences.flatMap fun o => o.warnings.map fun w =>
    .object [("jsonFile", .string o.document), ("property", .string w.path),
      ("message", .string w.problem.message)]

def componentEntry (key : String) (entries : List Json) (c : ComponentResult) : Json :=
  .object [("file", .string c.file), ("resolveType", .string c.identifier), (key, .array entries)]

def summary (lint : ComponentLint) : Json :=
  .object [
    ("totalSections", number lint.components.length),
    ("totalOccurrences", number lint.occurrenceCount),
    ("totalErrors", number lint.errorCount),
    ("totalWarnings", number lint.warningCount),
    ("sectionsWithErrors", number (withErrors lint).length),
    ("sectionsWithWarnings", number (withWarnings lint).length),
    ("unusedSections", number lint.unused.length),
    ("validSections", .int (validCount lint)),
    ("antiPatterns", number lint.antiPatterns.length)]

def antiPatternEntry (p : AntiPattern) : Json :=
  .object [("type", .string p.kind.name), ("jsonFile", .string p.document),
    ("jsonPath", .string p.path), ("message", .string p.message), ("line", lineValue p.line)]

/-- The report without the time of the run. -/
def body (lint : ComponentLint) : List (String × Json) :=
  [("projectRoot", .string lint.root),
    ("summary", summary lint),
    ("sectionsWithErrors",
      .array ((withErrors lint).map fun c => componentEntry "errors" (errorEntries c) c)),
    ("sectionsWithWarnings",
      .array ((withWarnings lint).map fun c => componentEntry "warnings" (warningEntries c) c)),
    ("unusedSections", strings lint.unused),
    ("documentErrors", .array (lint.documentErrors.map fun d =>
      .object [("document", .string d.document), ("message", .string d.message)])),
    ("antiPatterns", .array (lint.antiPatterns.map antiPatternEntry))]

def text (timestamp : String) (lint : ComponentLint) : String :=
  Json.write 0 (.object (("timestamp", .string timestamp) :: body lint)) ++ "\n"

/-- Writes the report to a path, which is taken from the root of the project on, and makes the
directory it lies in. -/
def save (disk : Disk) (timestamp path : String) (lint : ComponentLint) :
    Except WriteFault (Disk × String) := do
  let path := Path.below lint.root path
  let disk ← disk.save path (Text.Utf8.encode (text timestamp lint).toList)
  return (disk, path)

end BlockCheck.RunReport
