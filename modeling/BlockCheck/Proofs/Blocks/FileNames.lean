import BlockCheck.Proofs.Lint.UnusedBlocks
import BlockCheck.Proofs.Path.Inside
import BlockCheck.Proofs.Path.Normal
import BlockCheck.Proofs.Text.Escapes

/-!
# The files of blocks

Every text is the name of a block, and its file lies directly in the directory of blocks under a name that
no other block has. References lead to the same file, unless the directory of blocks is the root: a slash
behind the root makes two, and a path with two slashes at its front is another one.
-/

namespace BlockCheck

namespace BlockName

theorem toFileName_injective : Function.Injective toFileName := by
  intro a b h
  rw [← ofFileName_toFileName a, h, ofFileName_toFileName]

theorem toFileName_escaped (name : String) :
    ∃ stem, toFileName name = String.ofList stem ++ fileExtension ∧ Text.Percent.Escaped stem :=
  ⟨_, rfl, (Text.Percent.canonical_encode name.toList).escaped⟩

theorem toFileName_ofFileName_iff (fileName : String) :
    toFileName (ofFileName fileName) = fileName ↔
      ∃ stem, fileName = String.ofList stem ++ fileExtension ∧ Text.Percent.Canonical stem := by
  constructor
  · intro h
    exact ⟨_, h.symm, Text.Percent.canonical_encode _⟩
  · rintro ⟨stem, rfl, hstem⟩
    obtain ⟨cs, rfl⟩ := hstem.exists_encode
    have hname : String.ofList (Text.Percent.encode cs) ++ fileExtension = toFileName (String.ofList cs) := by
      rw [toFileName, String.toList_ofList]
    rw [hname, ofFileName_toFileName]

end BlockName

namespace BlockStore

variable {directory name : String} {files : Files}

theorem parent_pathFor : Path.parent ((ofDirectory directory files).pathFor name) = Path.normalize directory :=
  Path.parent_append (BlockName.isName_toFileName name) directory

theorem fileName_pathFor :
    Path.fileName ((ofDirectory directory files).pathFor name) = BlockName.toFileName name :=
  Path.fileName_append_normalize (BlockName.isName_toFileName name) directory

end BlockStore

namespace Naming

variable (naming : Naming) {root name : String}

theorem normalize_blockPath (habsolute : Path.isAbsolute naming.blocksDir = true)
    (htidy : Path.tidy naming.blocksDir = naming.blocksDir) (hslash : naming.blocksDir ≠ "/")
    (hslashes : naming.blocksDir ≠ "//") (files : Files) :
    Path.normalize (Path.append root (naming.blockPath name)) =
      (BlockStore.ofDirectory naming.blocksDir files).pathFor name := by
  have hname := BlockName.isName_toFileName name
  obtain ⟨before, d, hd, hlist⟩ := Path.exists_last_of_tidy htidy hslash hslashes
  have hpath : naming.blockPath name = Path.append naming.blocksDir (BlockName.toFileName name) :=
    (Path.append_name_of_ne hd hlist hname).symm
  rw [hpath, Path.append_of_isAbsolute (Path.isAbsolute_append habsolute),
    Path.normalize_append_name habsolute hname]
  rfl

/-- A slash behind one slash or two makes another mark. -/
theorem normalize_blockPath_of_root (hroot : naming.blocksDir = "/" ∨ naming.blocksDir = "//") (files : Files) :
    Path.normalize (Path.append root (naming.blockPath name)) ≠
      (BlockStore.ofDirectory naming.blocksDir files).pathFor name := by
  have hname := BlockName.isName_toFileName name
  intro heq
  have hmark := congrArg Path.mark heq
  have habsolute : Path.isAbsolute (naming.blockPath name) = true := by
    rw [Path.isAbsolute_iff_cons]
    rcases hroot with hroot | hroot
    all_goals
      rw [blockPath, hroot, String.toList_append, String.toList_append]
      exact ⟨_, rfl⟩
  rw [Path.mark_normalize, Path.append_of_isAbsolute habsolute, BlockStore.pathFor, BlockStore.ofDirectory,
    Path.mark_append hname.isAbsolute, Path.mark_normalize, Path.mark, Path.mark, blockPath,
    String.toList_append, String.toList_append] at hmark
  have hslash := hname.noSlash
  cases hlist : (BlockName.toFileName name).toList with
  | nil => exact hname.ne_empty hlist
  | cons d rest =>
    rw [hlist] at hmark hslash
    have hd : d ≠ '/' := (List.ne_of_not_mem_cons hslash).symm
    rcases hroot with hroot | hroot
    · simp [hroot, Path.rootMark, hd] at hmark
    · simp [hroot, Path.rootMark] at hmark

end Naming

namespace BlockName

/-- The names of blocks and of their files determine each other, the file is found where the block is read
from, and the files that are named after a block are those whose escapes must be escapes. -/
theorem files_of_blocks (disk : Disk) (cwd root : String) (blocks : Option String) (settings : Settings)
    (files : Files) :
    (∀ name, ofFileName (toFileName name) = name) ∧ Function.Injective toFileName ∧
      (∀ name, '/' ∉ (toFileName name).toList ∧
        ∃ stem, toFileName name = String.ofList stem ++ ".json" ∧ Text.Percent.Escaped stem) ∧
      (∀ directory name, let store := BlockStore.ofDirectory directory files
        Path.parent (store.pathFor name) = store.directory ∧
          Path.fileName (store.pathFor name) = toFileName name) ∧
      (∀ fileName, toFileName (ofFileName fileName) = fileName ↔
        ∃ stem, fileName = String.ofList stem ++ ".json" ∧ Text.Percent.Canonical stem) ∧
      ∀ config, Path.isAbsolute cwd = true →
        Config.forProject disk cwd root blocks settings = .ok config → ∀ name,
          (Path.normalize (Path.append config.root (config.naming.blockPath name)) =
              (BlockStore.ofDirectory config.blocksDir files).pathFor name ↔
            config.blocksDir ≠ "/" ∧ config.blocksDir ≠ "//") := by
  refine ⟨ofFileName_toFileName, toFileName_injective, fun name => ?_, fun directory name => ?_,
    toFileName_ofFileName_iff, fun config _ hconfig name => ?_⟩
  · exact ⟨(isName_toFileName name).noSlash, toFileName_escaped name⟩
  · exact ⟨BlockStore.parent_pathFor, BlockStore.fileName_pathFor⟩
  · obtain ⟨habsolute, htidy⟩ := Lint.blocksDir_of_forProject hconfig
    constructor
    · intro heq
      rw [← not_or]
      exact fun hroot => Naming.normalize_blockPath_of_root config.naming hroot files heq
    · rintro ⟨hslash, hslashes⟩
      exact Naming.normalize_blockPath config.naming habsolute htidy hslash hslashes files

/-! ## A project with a directory for its blocks -/

def placesDisk : Disk where
  files := []
  directories := ["/", "/p", "/p/b"]

theorem files_of_blocks_places :
    Path.isAbsolute "/" = true ∧
      Config.forProject placesDisk "/" "p" (some "b") {} = .ok ⟨"/p", "/p/b", {}⟩ ∧
        Path.normalize (Path.append "/p" (Naming.blockPath { blocksDir := "/p/b" } "Site Footer")) =
          "/p/b/Site%20Footer.json" ∧
        toFileName (ofFileName "Site%20Footer.json") = "Site%20Footer.json" := by
  have hconfig : Config.forProject placesDisk "/" "p" (some "b") {} = .ok ⟨"/p", "/p/b", {}⟩ := rfl
  obtain ⟨-, -, -, -, hnamed, hpaths⟩ :=
    files_of_blocks placesDisk "/" "p" (some "b") {} (placesDisk.toFiles "/")
  refine ⟨rfl, hconfig, ?_, ?_⟩
  · exact ((hpaths _ rfl hconfig "Site Footer").2 ⟨by decide, by decide⟩).trans rfl
  · rw [hnamed]
    exact ⟨_, rfl, Text.Percent.canonical_encode "Site Footer".toList⟩

/-- The same project can name the root as the directory of its blocks. -/
theorem block_of_root_elsewhere :
    Config.forProject placesDisk "/" "p" (some "/") {} = .ok ⟨"/p", "/", {}⟩ ∧
      Path.normalize (Path.append "/p" (Naming.blockPath { blocksDir := "/" } "home")) = "//home.json" ∧
        (BlockStore.ofDirectory "/" (placesDisk.toFiles "/")).pathFor "home" = "/home.json" :=
  ⟨rfl, rfl, rfl⟩

end BlockName

end BlockCheck
