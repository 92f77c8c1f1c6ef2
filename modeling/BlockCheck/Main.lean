import BlockCheck.CommandLine.Run
import BlockCheck.Moment
import Std.Time.DateTime.Timestamp

/-!
# The program

Loads what a run may look at, runs the command line on it, and writes and prints what came of it.
-/

open BlockCheck BlockCheck.CommandLine

def unloadedDirectories : List String := ["node_modules", "_fresh", ".git"]

/-- Adds the contents of a directory to a disk, without what is only linked to. -/
partial def loadDirectory (disk : Disk) (directory : String) : IO Disk := do
  let mut disk := { disk with directories := directory :: disk.directories }
  let place ← IO.FS.realPath directory
  for entry in ← place.readDir do
    let path := Path.append directory entry.fileName
    match (← entry.path.symlinkMetadata).type with
    | .dir =>
      unless unloadedDirectories.contains entry.fileName do
        disk ← loadDirectory disk path
    | .file =>
      try
        let bytes ← IO.FS.readBinFile path
        disk := { disk with files := (path, bytes.toList) :: disk.files }
      catch _ =>
        disk := { disk with files := (path, []) :: disk.files, denied := path :: disk.denied }
    | _ => pure ()
  return disk

/-- Adds what a path names, unless it is there already. -/
def load (disk : Disk) (path : String) : IO Disk := do
  if disk.isDirectory path || disk.isFile path then return disk
  try
    let place ← IO.FS.realPath path
    if ← place.isDir then
      loadDirectory (disk.addDirectories (Path.directory path)) path
    else
      return disk.put path (← IO.FS.readBinFile path).toList
  catch _ => return disk

def requestedPaths (cwd : String) (request : Request) : List String :=
  let root := Path.resolve cwd request.root
  let more := (request.blocks.toList ++ request.file.toList).map fun p =>
    Path.normalize (Path.append root p)
  root :: more

def currentMoment : IO Moment := do
  let now ← Std.Time.Timestamp.now
  return ⟨now.toNanosecondsSinceUnixEpoch.val.toNat / 1000⟩

def main (words : List String) : IO UInt32 := do
  let cwd := toString (← IO.currentDir)
  let invocation := CommandLine.read words
  let paths := match invocation with
    | .run _ request => requestedPaths cwd request
    | _ => []
  let disk := (← paths.foldlM load Disk.empty).addDirectories cwd
  let ending := invocation.perform disk cwd (← currentMoment).text
  if let some path := ending.saved then
    if let .ok report := ending.disk.text path then
      IO.FS.createDirAll (Path.directory path)
      IO.FS.writeFile path report
  IO.print ending.output
  (← IO.getStderr).putStr ending.errors
  return ending.exitCode.toUInt32
