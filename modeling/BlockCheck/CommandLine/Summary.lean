import BlockCheck.Lint.Components
import BlockCheck.Lint.Documents

/-!
# Results on the screen

The findings of a run, line by line, with the counts at the end.
-/

namespace BlockCheck.CommandLine

def count (title : String) (n : Nat) : String := "  " ++ title ++ ": " ++ toString n

def statusLine (ok : Bool) : String := "Status: " ++ (if ok then "OK" else "FAILED")

/-- An issue with the path of what it is about. -/
def issueText (i : Issue) : String :=
  (if i.path.isEmpty then "" else "\"" ++ i.path ++ "\": ") ++ i.problem.message

/-- The line number after a colon, if it is known. -/
def atLine (line : Option Nat) : String :=
  match line with
  | some n => ":" ++ toString n
  | none => ""

/-! ## Components -/

def componentHead (label : String) (c : ComponentResult) : String :=
  "[" ++ label ++ "] " ++ c.file ++ " - " ++ toString c.occurrences.length ++ " occurrence(s)"

def errorLines (o : OccurrenceResult) : List String :=
  o.errors.map fun i => "  - " ++ issueText i ++ " (" ++ o.document ++ atLine o.line ++ ")"

def warningLines (o : OccurrenceResult) : List String :=
  o.warnings.map fun i => "  - " ++ issueText i ++ " (" ++ o.document ++ ")"

/-- A component is listed by its errors, else by its warnings; a clean one only if asked for. -/
def componentLines (verbose : Bool) (c : ComponentResult) : List String :=
  if c.unused then ["[UNUSED] " ++ c.file ++ " - not used in any JSON"]
  else if c.errorCount ≠ 0 then
    (componentHead "FAILED" c ++ ", " ++ toString c.errorCount ++ " error(s)")
      :: c.occurrences.flatMap errorLines
  else if c.warningCount ≠ 0 then
    (componentHead "WARN" c ++ ", " ++ toString c.warningCount ++ " warning(s)")
      :: c.occurrences.flatMap warningLines
  else if verbose then [componentHead "OK" c]
  else []

def antiPatternLines (p : AntiPattern) : List String :=
  ["[ANTI-PATTERN] " ++ p.kind.name ++ " " ++ p.document ++ atLine p.line ++ " at " ++ p.path,
    "  " ++ p.message]

def componentSummary (verbose : Bool) (lint : ComponentLint) : List String :=
  lint.components.flatMap (componentLines verbose)
    ++ lint.documentErrors.map (fun d => "[FAILED] " ++ d.document ++ " - " ++ d.message)
    ++ lint.antiPatterns.flatMap antiPatternLines
    ++ [statusLine lint.ok, count "Components" lint.components.length,
      count "Occurrences" lint.occurrenceCount, count "Errors" lint.errorCount,
      count "Warnings" lint.warningCount, count "Unused" lint.unused.length]
    ++ (if lint.antiPatterns.isEmpty then [] else [count "Anti-patterns" lint.antiPatterns.length])

/-! ## Documents -/

def reportHead (r : Report) (i : Issue) : String :=
  let label := if i.isError then "FAILED" else "WARN"
  let way := if r.path.isEmpty then "" else r.path ++ " "
  Text.trimEnd ("[" ++ label ++ "] " ++ r.file ++ " " ++ way ++ r.identifier)

def reportLines (r : Report) : List String :=
  r.issues.flatMap fun i => [reportHead r i, "  - " ++ issueText i]

def unusedLines (names : List String) : List String :=
  if names.isEmpty then [] else "Unused saved blocks:" :: names.map ("  - " ++ ·)

def documentSummary (lint : DocumentLint) : List String :=
  lint.reports.flatMap reportLines ++ unusedLines lint.unusedBlocks
    ++ [statusLine lint.ok, count "Documents" lint.documents, count "Errors" lint.errorCount,
      count "Warnings" lint.warningCount, count "Unresolved" lint.unresolved.length,
      count "Unused saved blocks" lint.unusedBlocks.length]

end BlockCheck.CommandLine
