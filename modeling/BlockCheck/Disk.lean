import BlockCheck.Files

/-!
# A disk

Directories and files with their bytes, each under its path from the root. A path is followed
component by component through directories that exist, so a step to a parent leads to where the
directory really lies.
-/

namespace BlockCheck

structure Disk where
  files : List (String × List UInt8)
  directories : List String
  /-- The files that may not be read. -/
  denied : List String := []

inductive WriteFault where
  | noEntry (path : String)
  | notDirectory (path : String)
  | isDirectory (path : String)
  | fileExists (path : String)
deriving DecidableEq, Repr

namespace WriteFault

def message : WriteFault → String
  | .noEntry path => "[Errno 2] No such file or directory: " ++ Text.quoted path
  | .notDirectory path => "[Errno 20] Not a directory: " ++ Text.quoted path
  | .isDirectory path => "[Errno 21] Is a directory: " ++ Text.quoted path
  | .fileExists path => "[Errno 17] File exists: " ++ Text.quoted path

end WriteFault

namespace Disk

def empty : Disk := { files := [], directories := ["/"] }

/-- The path that components, the last one first, lead to. -/
def pathOf (done : List (List Char)) : String :=
  String.ofList ('/' :: Path.joinComponents done.reverse)

def hasDirectory (disk : Disk) (path : String) : Bool := disk.directories.contains path

def hasFile (disk : Disk) (path : String) : Bool := Record.hasKey path disk.files

/-- Where a path leads; `done` is the way so far. It leads nowhere if it goes on behind something
that is no directory, which is told with what it is instead. -/
def follow (disk : Disk) : List (List Char) → List (List Char) → Except Bool (List (List Char))
  | done, [] => .ok done
  | done, c :: rest =>
    if c = [] ∨ c = ['.'] then follow disk done rest
    else if !disk.hasDirectory (pathOf done) then .error (disk.hasFile (pathOf done))
    else if c = ['.', '.'] then follow disk (done.drop 1) rest
    else follow disk (c :: done) rest

/-- The place of an absolute path, whether or not anything is there. -/
def locate (disk : Disk) (path : String) : Except Bool String :=
  (disk.follow [] (Path.components path)).map pathOf

def isFile (disk : Disk) (path : String) : Bool :=
  match disk.locate path with
  | .ok place => disk.hasFile place
  | .error _ => false

def isDirectory (disk : Disk) (path : String) : Bool :=
  match disk.locate path with
  | .ok place => disk.hasDirectory place
  | .error _ => false

/-! ## Reading -/

/-- A carriage return, alone or with a line feed after it, is read as a line feed. -/
def withLineFeeds : List Char → List Char
  | [] => []
  | '\r' :: '\n' :: rest => '\n' :: withLineFeeds rest
  | '\r' :: rest => '\n' :: withLineFeeds rest
  | c :: rest => c :: withLineFeeds rest

def text (disk : Disk) (path : String) : Except ReadFault String :=
  match disk.locate path with
  | .error throughFile => .error (if throughFile then .notDirectory path else .noEntry path)
  | .ok place =>
    match disk.files.lookup place with
    | some bytes =>
      if disk.denied.contains place then .error (.undecodable (.denied path))
      else
        match Text.Utf8.decode bytes with
        | .ok cs => .ok (String.ofList (withLineFeeds cs))
        | .error fault => .error (.undecodable (.badBytes fault))
    | none => .error (if disk.hasDirectory place then .isDirectory path else .noEntry path)

theorem follow_concat {disk : Disk} {done before place : List (List Char)} {name : String}
    (h : Path.IsName name) (hplace : disk.follow done (before ++ [name.toList]) = .ok place) :
    ∃ inner, place = name.toList :: inner := by
  induction before generalizing done with
  | nil =>
    rw [List.nil_append, follow, if_neg (not_or.2 ⟨h.ne_empty, h.ne_dot⟩)] at hplace
    split at hplace
    · cases hplace
    · rw [if_neg h.ne_dots, follow] at hplace
      cases hplace
      exact ⟨done, rfl⟩
  | cons c rest ih =>
    rw [List.cons_append, follow] at hplace
    split at hplace
    · exact ih hplace
    split at hplace
    · cases hplace
    split at hplace
    · exact ih hplace
    · exact ih hplace

theorem mem_keys_of_isFile {disk : Disk} {path name : String} (h : Path.IsName name)
    (hpath : Path.LeadsTo path name) (hfile : disk.isFile path = true) :
    ∃ key ∈ Record.keys disk.files, Path.fileName key = name := by
  obtain ⟨before, hbefore⟩ := hpath
  simp only [isFile, locate, hbefore] at hfile
  cases hfollow : disk.follow [] (before ++ [name.toList]) with
  | error throughFile => simp [hfollow, Except.map] at hfile
  | ok place =>
    obtain ⟨inner, rfl⟩ := follow_concat h hfollow
    simp only [hfollow, Except.map] at hfile
    refine ⟨_, Record.hasKey_iff.1 hfile, ?_⟩
    rw [pathOf, List.reverse_cons]
    exact Path.fileName_joinComponents h.noSlash (Or.inr ⟨[], rfl⟩) inner.reverse

def toFiles (disk : Disk) (cwd : String) : Files where
  key path := Path.normalize (Path.append cwd path)
  isFile path := disk.isFile (Path.append cwd path)
  text := disk.text
  paths := Record.keys disk.files
  listed hname hpath hfile := mem_keys_of_isFile hname (Path.leadsTo_append hpath cwd) hfile

/-- The ways from a directory to all files below it. -/
def filesBelow (disk : Disk) (directory : String) : List (List String) :=
  match disk.locate directory with
  | .error _ => []
  | .ok place =>
    let start := Path.parts place
    (Record.keys disk.files).filterMap fun f =>
      let parts := Path.parts f
      if start.isPrefixOf parts then some (parts.drop start.length) else none

/-! ## Writing -/

def addDirectory (disk : Disk) (path : String) : Disk :=
  if disk.hasDirectory path then disk else { disk with directories := disk.directories ++ [path] }

def addDirectories (disk : Disk) (path : String) : Disk :=
  let parts := (Path.parts path).drop 1
  (List.range (parts.length + 1)).foldl
    (fun d n => d.addDirectory ("/" ++ Text.join "/" (parts.take n))) disk

def put (disk : Disk) (path : String) (bytes : List UInt8) : Disk :=
  let disk := disk.addDirectories (Path.directory path)
  { disk with files := Record.insert path bytes disk.files }

/-- Makes one directory, which may be there already. -/
def makeDirectory (disk : Disk) (path : String) : Except WriteFault Disk :=
  match disk.locate path with
  | .error throughFile => .error (if throughFile then .notDirectory path else .noEntry path)
  | .ok place =>
    if disk.hasDirectory place then .ok disk
    else if disk.hasFile place then .error (.fileExists path)
    else .ok (disk.addDirectory place)

/-- Makes a directory and those it lies in; the number bounds how many. -/
def makeDirectories : Nat → Disk → String → Except WriteFault Disk
  | 0, disk, path => disk.makeDirectory path
  | n + 1, disk, path =>
    match disk.makeDirectory path with
    | .error (.noEntry missing) =>
      if Path.directory path = path then .error (.noEntry missing)
      else do (← makeDirectories n disk (Path.directory path)).makeDirectory path
    | result => result

def writeFile (disk : Disk) (path : String) (bytes : List UInt8) : Except WriteFault Disk :=
  match disk.locate path with
  | .error throughFile => .error (if throughFile then .notDirectory path else .noEntry path)
  | .ok place =>
    if disk.hasDirectory place then .error (.isDirectory path)
    else if disk.hasDirectory (Path.directory place) then
      .ok { disk with files := Record.insert place bytes disk.files }
    else .error (.noEntry path)

def save (disk : Disk) (path : String) (bytes : List UInt8) : Except WriteFault Disk := do
  let directory := Path.directory path
  let disk ← disk.makeDirectories (Path.parts directory).length directory
  disk.writeFile path bytes

def remove (disk : Disk) (path : String) : Except WriteFault Disk :=
  match disk.locate path with
  | .error throughFile => .error (if throughFile then .notDirectory path else .noEntry path)
  | .ok place =>
    if disk.hasDirectory place then .error (.isDirectory path)
    else if disk.hasFile place then
      .ok { disk with
        files := Record.without place disk.files
        denied := disk.denied.filter (· ≠ place) }
    else .error (.noEntry path)

end Disk

end BlockCheck
