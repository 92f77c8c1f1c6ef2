import BlockCheck.Path
import BlockCheck.Record
import BlockCheck.Text.Quoted
import BlockCheck.Text.Utf8

/-!
# Files to read from

What reading needs to know of the place where the files are: which paths name files, and what is
written in them. Files may be given as texts, or lie on a disk.
-/

namespace BlockCheck

/-- Why no text comes of a file that is there. -/
inductive ContentFault where
  /-- It may not be read. -/
  | denied (path : String)
  | badBytes (fault : Text.Utf8.Fault)
deriving DecidableEq, Repr

def ContentFault.message : ContentFault → String
  | .denied path => "[Errno 13] Permission denied: " ++ Text.quoted path
  | .badBytes fault => fault.message

inductive ReadFault where
  /-- No text was given for the path. -/
  | notGiven (path : String)
  | noEntry (path : String)
  | isDirectory (path : String)
  /-- A file stands where the path goes through a directory. -/
  | notDirectory (path : String)
  | undecodable (fault : ContentFault)
deriving DecidableEq, Repr

namespace ReadFault

def message : ReadFault → String
  | .notGiven path => "No such file: " ++ path
  | .noEntry path => "[Errno 2] No such file or directory: " ++ Text.quoted path
  | .isDirectory path => "[Errno 21] Is a directory: " ++ Text.quoted path
  | .notDirectory path => "[Errno 20] Not a directory: " ++ Text.quoted path
  | .undecodable fault => fault.message

end ReadFault

/-- Two readings that succeed with the same texts: both give one text, or both fail. -/
theorem ReadFault.same_text_or_none {a b : Except ReadFault String}
    (h : ∀ text, a = .ok text ↔ b = .ok text) :
    (∃ text, a = .ok text ∧ b = .ok text) ∨ ∃ fault fault', a = .error fault ∧ b = .error fault' := by
  cases a with
  | ok text => exact Or.inl ⟨text, rfl, (h text).1 rfl⟩
  | error fault =>
    cases b with
    | ok text => cases (h text).2 rfl
    | error fault' => exact Or.inr ⟨fault, fault', rfl, rfl⟩

structure Files where
  /-- The one name under which a file is known. -/
  key : String → String
  isFile : String → Bool
  text : String → Except ReadFault String
  paths : List String
  /-- Whatever way a file is reached, it is listed under the name that the way ends in. -/
  listed : ∀ {path name : String}, Path.IsName name → Path.LeadsTo path name → isFile path = true →
    ∃ key ∈ paths, Path.fileName key = name

namespace Files

/-- The files whose texts are given, each under its normalized path. -/
def ofTexts (texts : List (String × String)) : Files where
  key := Path.normalize
  isFile path := Record.hasKey (Path.normalize path) texts
  text path :=
    match texts.lookup (Path.normalize path) with
    | some text => .ok text
    | none => .error (.notGiven (Path.normalize path))
  paths := Record.keys texts
  listed {path _} hname hpath hfile :=
    ⟨Path.normalize path, Record.hasKey_iff.1 hfile, Path.fileName_normalize hname hpath⟩

end Files

abbrev Texts := List (String × String)

namespace Texts

def add (path text : String) (texts : Texts) : Texts := Record.insert (Path.normalize path) text texts

def ofList (given : List (String × String)) : Texts :=
  given.foldl (fun texts f => add f.1 f.2 texts) []

end Texts

end BlockCheck
