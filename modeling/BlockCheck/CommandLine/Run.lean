import BlockCheck.CommandLine.Arguments
import BlockCheck.CommandLine.Manual
import BlockCheck.CommandLine.Summary
import BlockCheck.Report

/-!
# Running a command

What a command line does to a disk, and what it says. Nothing is printed but mistakes if the run
is to be quiet.
-/

namespace BlockCheck.CommandLine

structure Ending where
  disk : Disk
  saved : Option String := none
  exitCode : Nat := 0
  output : String := ""
  errors : String := ""

def exitCodeOf (ok : Bool) : Nat := if ok then 0 else 1

def Ending.failed (disk : Disk) (message : String) : Ending :=
  { disk := disk, exitCode := 1, errors := message ++ "\n" }

/-- Only a file that is missing is an expected reason for a report that cannot be written. -/
def writeFailure (fault : WriteFault) : String :=
  match fault with
  | .noEntry _ => "Error: " ++ fault.message
  | _ => "Unexpected error: " ++ fault.message

def saveReport (disk : Disk) (timestamp : String) (lint : ComponentLint) :
    Option String → Except WriteFault (Disk × Option String)
  | none => .ok (disk, none)
  | some path => (RunReport.save disk timestamp path lint).map fun (disk, path) => (disk, some path)

/-- How many calls may be open inside one another. -/
def callLimit : Nat := 1000

/-- The calls that are open when a document is read to find components in it. -/
def sectionsRoom : Nat := callLimit - 11

/-- The calls that are open when a document is checked, and two more for each block that it is expanded in. -/
def blocksRoom (expanding : Nat) : Nat := callLimit - 8 - 2 * expanding

def unexpected (escape : Escape) : String := "Unexpected error: " ++ escape.message

def runSections (disk : Disk) (cwd timestamp : String) (config : Config) (request : Request) :
    Ending :=
  match Lint.runComponents sectionsRoom disk cwd config request.file with
  | .error escape => .failed disk (unexpected escape)
  | .ok none => .failed disk ("Error: " ++ Lint.targetMissing (request.file.getD ""))
  | .ok (some lint) =>
    match saveReport disk timestamp lint request.report with
    | .error fault => .failed disk (writeFailure fault)
    | .ok (disk, saved) =>
      let lines := componentSummary request.verbose lint
        ++ saved.toList.map ("  Report: " ++ ·)
      { disk := disk
        saved := saved
        exitCode := exitCodeOf lint.ok
        output := if request.quiet then "" else textOfLines lines }

def runBlocks (disk : Disk) (cwd : String) (config : Config) (request : Request) : Ending :=
  match Lint.runDocuments blocksRoom disk cwd config with
  | .error escape => .failed disk (unexpected escape)
  | .ok lint =>
    { disk := disk
      exitCode := exitCodeOf lint.ok
      output := if request.quiet then "" else textOfLines (documentSummary lint) }

def runCommand (disk : Disk) (cwd timestamp : String) (c : Command) (request : Request) : Ending :=
  let settings : Settings := { reportUnusedProperties := request.unused }
  match Config.forProject disk cwd request.root request.blocks settings with
  | .error fault => .failed disk ("Error: " ++ fault.message)
  | .ok config =>
    match c with
    | .sections => runSections disk cwd timestamp config request
    | .blocks => runBlocks disk cwd config request

/-- Runs what a command line comes to, in the directory `cwd`. -/
def Invocation.perform (disk : Disk) (cwd timestamp : String) : Invocation → Ending
  | .run c request => runCommand disk cwd timestamp c request
  | .help page => { disk := disk, output := page.help }
  | .version => { disk := disk, output := versionText }
  | .noCommand => { disk := disk, exitCode := 1, output := Page.program.help }
  | .misuse page m =>
    { disk := disk
      exitCode := 2
      errors := page.usage ++ page.title ++ ": error: " ++ m.message ++ "\n" }

end BlockCheck.CommandLine
