import BlockCheck.Disk
import BlockCheck.Reference

/-!
# What there is in a project

The source files of components and the documents of blocks, in the order of their paths.
-/

namespace BlockCheck.Discovery

/-- A directory, and the endings of the files in it that are components. -/
abbrev Root := String × List String

def filesUnder (disk : Disk) (directory : String) (wanted : String → Bool) : List String :=
  ((disk.filesBelow directory).filter (fun way => wanted (way.getLastD ""))).map
    (fun way => Path.below directory (Text.join "/" way))

def components (disk : Disk) (project : String) (roots : List Root) : List String :=
  let found := roots.flatMap fun (directory, extensions) =>
    let base := Path.below project directory
    if disk.isDirectory base then
      filesUnder disk base (fun name => Text.endsWithAny name extensions)
    else []
  Path.sorted found.eraseDups

def documents (disk : Disk) (blocks : String) : List String :=
  if disk.isDirectory blocks then
    Path.sorted (filesUnder disk blocks (fun name => Text.endsWith name BlockName.fileExtension))
  else []

end BlockCheck.Discovery
