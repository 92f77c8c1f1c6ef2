import BlockCheck.Files
import BlockCheck.Reference

/-!
# Saved blocks

The documents of saved blocks lie in one directory, each in the file of its block.
-/

namespace BlockCheck

structure BlockStore where
  directory : String
  files : Files

namespace BlockStore

def ofDirectory (directory : String) (files : Files) : BlockStore := ⟨Path.normalize directory, files⟩

def pathFor (store : BlockStore) (name : String) : String :=
  Path.append store.directory (BlockName.toFileName name)

def read (store : BlockStore) (name : String) : Option (Except ReadFault String) :=
  let path := store.pathFor name
  if store.files.isFile path then some (store.files.text (store.files.key path)) else none

def names (store : BlockStore) : List String :=
  store.files.paths.map (fun p => BlockName.ofFileName (Path.fileName p))

theorem isFile_of_read {store : BlockStore} {name : String} {content : Except ReadFault String}
    (h : store.read name = some content) : store.files.isFile (store.pathFor name) = true := by
  simp only [read] at h
  split at h
  · assumption
  · cases h

theorem read_ofDirectory_iff {directory name : String} {files : Files}
    {content : Except ReadFault String} :
    (ofDirectory directory files).read name = some content ↔
      files.isFile (Path.append (Path.normalize directory) (BlockName.toFileName name)) = true ∧
        files.text (files.key (Path.append (Path.normalize directory) (BlockName.toFileName name))) =
          content := by
  unfold read pathFor ofDirectory
  dsimp only
  split
  · rename_i hfile
    simp [hfile]
  · rename_i hfile
    simp [hfile]

theorem mem_names_of_read {store : BlockStore} {name : String} {content : Except ReadFault String}
    (h : store.read name = some content) : name ∈ store.names := by
  have hname := BlockName.isName_toFileName name
  obtain ⟨key, hkey, hfile⟩ := store.files.listed hname (hname.leadsTo _) (isFile_of_read h)
  refine List.mem_map.2 ⟨key, hkey, ?_⟩
  rw [hfile, BlockName.ofFileName_toFileName]

end BlockStore

end BlockCheck
