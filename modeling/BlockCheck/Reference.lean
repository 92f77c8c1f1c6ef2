import BlockCheck.Path
import BlockCheck.Text.Percent

/-!
# References

An identifier in a document names a component of the project, something that another
application owns, or a saved block. Which one it is follows from the naming conventions of the
project alone.
-/

namespace BlockCheck

inductive ReferenceKind where
  | localComponent
  | external
  | savedBlock
deriving DecidableEq, Repr

structure Naming where
  localPrefix : String := "site/"
  foreignPrefixes : List String := ["website/"]
  /-- Marks a value that is resolved already. -/
  sentinel : String := "resolved"
  /-- The directory that is tried first for a component of the project. -/
  componentsDir : String := "sections"
  sourceExtensions : List String := [".tsx", ".ts"]
  blocksDir : String := ".deco/blocks"

namespace BlockName

def fileExtension : String := ".json"

def toFileName (name : String) : String :=
  String.ofList (Text.Percent.encode name.toList) ++ fileExtension

def ofFileName (fileName : String) : String :=
  let stem :=
    if Text.endsWith fileName fileExtension then Text.dropEnd fileName fileExtension.length else fileName
  String.ofList (Text.Percent.decode stem.toList)

theorem toList_toFileName (name : String) :
    (toFileName name).toList = Text.Percent.encode name.toList ++ fileExtension.toList := by
  rw [toFileName, String.toList_append, String.toList_ofList]

theorem endsWith_toFileName (name : String) : Text.endsWith (toFileName name) fileExtension = true := by
  rw [Text.endsWith, List.isSuffixOf_iff_suffix, toList_toFileName]
  exact List.suffix_append _ _

theorem ofFileName_toFileName (name : String) : ofFileName (toFileName name) = name := by
  have hstem : Text.dropEnd (toFileName name) fileExtension.length =
      String.ofList (Text.Percent.encode name.toList) := by
    rw [Text.dropEnd, toList_toFileName, List.length_append, String.length_toList,
      Nat.add_sub_cancel, List.take_left]
  simp only [ofFileName, if_pos (endsWith_toFileName name), hstem, String.toList_ofList, Text.Percent.decode_encode,
    String.ofList_toList]

theorem isName_toFileName (name : String) : Path.IsName (toFileName name) where
  noSlash := by
    rw [toList_toFileName, List.mem_append, not_or]
    refine ⟨fun h => ?_, by decide⟩
    rcases Text.Percent.mem_encode h with h | h
    · exact absurd h (by decide)
    · exact absurd h (by decide)
  ne_empty h := by
    rw [toList_toFileName] at h
    exact absurd (List.append_eq_nil_iff.1 h).2 (by decide)
  ne_dot h := by
    have := congrArg List.length (toList_toFileName name ▸ h)
    simp [fileExtension] at this
  ne_dots h := by
    have := congrArg List.length (toList_toFileName name ▸ h)
    simp [fileExtension] at this

end BlockName

namespace Naming

/-- A path into another application ends in the name of a source file. -/
def namesSource (naming : Naming) (identifier : String) : Bool :=
  Text.endsWithAny (Path.fileName identifier) naming.sourceExtensions

def classify (naming : Naming) (identifier : String) : ReferenceKind :=
  if identifier = naming.sentinel then .external
  else if Text.startsWith identifier naming.localPrefix then .localComponent
  else if Text.startsWithAny identifier naming.foreignPrefixes then .external
  else if naming.namesSource identifier then .external
  else .savedBlock

def blockPath (naming : Naming) (name : String) : String :=
  naming.blocksDir ++ "/" ++ BlockName.toFileName name

/-- The files that may hold what an identifier names, in the order in which they are tried. -/
def candidates (naming : Naming) (identifier : String) : List String :=
  match naming.classify identifier with
  | .savedBlock => [naming.blockPath identifier]
  | .external => []
  | .localComponent =>
    let rest := Text.drop identifier naming.localPrefix.length
    let bases := [naming.componentsDir ++ "/" ++ rest, rest]
    if Text.endsWithAny rest naming.sourceExtensions then bases
    else bases.flatMap (fun base => naming.sourceExtensions.map (base ++ ·))

/-- The first candidate that exists, as a path below `root`. -/
def locate (naming : Naming) (root : String) (isFile : String → Bool) (identifier : String) :
    Option String :=
  ((naming.candidates identifier).map (fun c => Path.normalize (Path.append root c))).find? isFile

def identifierOf (naming : Naming) (relativePath : String) : String := naming.localPrefix ++ relativePath

/-- The identifier of the component at a path that is seen from `cwd`. -/
def identifierBelow (naming : Naming) (cwd root path : String) : Except Path.Fault String :=
  (Path.wayTo cwd root path).map naming.identifierOf

end Naming

end BlockCheck
