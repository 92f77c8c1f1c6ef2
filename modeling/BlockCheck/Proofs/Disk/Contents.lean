import BlockCheck.Imports
import BlockCheck.Proofs.Disk.Entries

/-!
# Disks that differ in what files hold

Where files and directories are does not depend on what the files hold. Nor does what is read at a path, as
long as the file that the path leads to holds the same. The files in which imports are looked for are no
documents, so what is imported does not depend on the documents.
-/

namespace BlockCheck

namespace Disk

theorem toFiles_text (disk : Disk) (cwd : String) : (disk.toFiles cwd).text = disk.text := rfl

structure SamePlaces (disk disk' : Disk) : Prop where
  directories : disk'.directories = disk.directories
  keys : Record.keys disk'.files = Record.keys disk.files

/-- The place holds the same, which may be read from both disks or from neither. -/
structure SameAt (disk disk' : Disk) (place : String) : Prop where
  content : disk'.files.lookup place = disk.files.lookup place
  denied : place ∈ disk'.denied ↔ place ∈ disk.denied

theorem SameAt.contains_eq {disk disk' : Disk} {place : String} (h : disk.SameAt disk' place) :
    disk'.denied.contains place = disk.denied.contains place := by
  rw [Bool.eq_iff_iff, List.contains_iff_mem, List.contains_iff_mem, h.denied]

namespace SamePlaces

variable {disk disk' : Disk} (h : disk.SamePlaces disk')

include h

theorem hasDirectory_eq (path : String) : disk'.hasDirectory path = disk.hasDirectory path := by
  unfold hasDirectory
  rw [h.directories]

theorem hasFile_eq (path : String) : disk'.hasFile path = disk.hasFile path := by
  unfold hasFile
  rw [Bool.eq_iff_iff, Record.hasKey_iff, Record.hasKey_iff, h.keys]

theorem follow_eq (done cs : List (List Char)) : disk'.follow done cs = disk.follow done cs := by
  induction cs generalizing done with
  | nil => rfl
  | cons c rest ih => simp only [follow, h.hasDirectory_eq, h.hasFile_eq, ih]

theorem locate_eq (path : String) : disk'.locate path = disk.locate path := by
  unfold locate
  rw [h.follow_eq]

theorem isFile_eq (path : String) : disk'.isFile path = disk.isFile path := by
  unfold isFile
  simp only [h.locate_eq, h.hasFile_eq]

theorem isDirectory_eq (path : String) : disk'.isDirectory path = disk.isDirectory path := by
  unfold isDirectory
  simp only [h.locate_eq, h.hasDirectory_eq]

theorem sound (hsound : disk.Sound) : disk'.Sound where
  written := h.keys ▸ hsound.written
  direct := h.keys ▸ hsound.direct
  inside := by
    rw [h.keys]
    intro key hkey outer houter
    rw [h.hasDirectory_eq]
    exact hsound.inside key hkey outer houter
  apart := by
    rw [h.keys]
    intro key hkey
    rw [h.hasDirectory_eq]
    exact hsound.apart key hkey

theorem filesBelow_eq (base : String) : disk'.filesBelow base = disk.filesBelow base := by
  unfold filesBelow
  simp only [h.locate_eq, h.keys]

theorem documents_eq (blocks : String) :
    Discovery.documents disk' blocks = Discovery.documents disk blocks := by
  unfold Discovery.documents Discovery.filesUnder
  rw [h.isDirectory_eq, h.filesBelow_eq]

theorem components_eq (project : String) (roots : List Discovery.Root) :
    Discovery.components disk' project roots = Discovery.components disk project roots := by
  unfold Discovery.components Discovery.filesUnder
  simp only [h.isDirectory_eq, h.filesBelow_eq]

theorem sources_eq (project : String) : Imports.sources disk' project = Imports.sources disk project := by
  unfold Imports.sources
  rw [h.filesBelow_eq]

theorem isFile_toFiles_eq (cwd : String) : (disk'.toFiles cwd).isFile = (disk.toFiles cwd).isFile :=
  funext fun _ => h.isFile_eq _

theorem text_eq {path : String} (hplace : ∀ place, disk.locate path = .ok place → disk.SameAt disk' place) :
    disk'.text path = disk.text path := by
  unfold text
  rw [h.locate_eq]
  cases hlocate : disk.locate path with
  | error throughFile => rfl
  | ok place =>
    dsimp only
    rw [(hplace place hlocate).content, (hplace place hlocate).contains_eq, h.hasDirectory_eq]

end SamePlaces

/-! ## Names of places -/

variable {disk : Disk} {base path path' place : String} {way : List String}

theorem target_eq_of_locate (h : disk.locate path = .ok place) (h' : disk.locate path' = .ok place) :
    target path = target path' := by
  have hplace : pathOf (target path) = pathOf (target path') :=
    (locate_eq_ok h).symm.trans (locate_eq_ok h')
  have hsteps := congrArg Path.steps hplace
  rw [steps_pathOf_target, steps_pathOf_target] at hsteps
  exact List.reverse_inj.1 hsteps

theorem exists_target_of_mem_filesBelow (hsound : disk.Sound) (hway : way ∈ disk.filesBelow base)
    (hne : way ≠ []) : ∃ outer,
      target (Path.below base (Text.join "/" way)) = (way.getLastD "").toList :: outer := by
  obtain ⟨key, hkey, rest, rfl, hsteps⟩ := exists_key_of_mem_filesBelow hsound hway
  have hrest : rest ≠ [] := by simpa using hne
  have hall : ∀ c ∈ rest, Path.IsStep c := fun c hc =>
    Path.isStep_of_mem_steps (hsteps ▸ List.mem_append_right _ hc)
  have hdots : ['.', '.'] ∉ rest := fun hmem =>
    hsound.not_mem_steps hkey (hsteps ▸ List.mem_append_right _ hmem)
  rw [target_below_join hrest hall hdots]
  obtain ⟨front, last, rfl⟩ := (List.eq_nil_or_concat rest).resolve_left hrest
  exact ⟨front.reverse ++ target base, by simp⟩

theorem exists_name_of_document (hsound : disk.Sound) (hpath : path ∈ Discovery.documents disk base) :
    ∃ name outer, target path = name.toList :: outer ∧
      Text.endsWith name BlockName.fileExtension = true := by
  obtain ⟨-, way, hway, hending, rfl⟩ := Discovery.mem_documents_iff.1 hpath
  have hne : way ≠ [] := by
    rintro rfl
    exact absurd hending (by decide)
  obtain ⟨outer, houter⟩ := exists_target_of_mem_filesBelow hsound hway hne
  exact ⟨_, outer, houter, hending⟩

theorem exists_name_of_source (hsound : disk.Sound) (hpath : path ∈ Imports.sources disk base) :
    ∃ name outer, target path = name.toList :: outer ∧
      Text.endsWithAny name Imports.sourceExtensions = true := by
  obtain ⟨way, hway, hfound⟩ := List.mem_filterMap.1 hpath
  split at hfound
  · cases hfound
  split at hfound
  · rename_i hending
    cases hfound
    have hne : way ≠ [] := by
      rintro rfl
      exact absurd hending (by decide)
    obtain ⟨outer, houter⟩ := exists_target_of_mem_filesBelow hsound hway hne
    exact ⟨_, outer, houter, hending⟩
  · cases hfound

theorem endsWithAny_sourceExtensions_of_json {name : String}
    (h : Text.endsWith name BlockName.fileExtension = true) :
    Text.endsWithAny name Imports.sourceExtensions = false := by
  unfold Text.endsWith at h
  obtain ⟨front, hfront⟩ := List.isSuffixOf_iff_suffix.1 h
  have hlast : name.toList.getLast? = some 'n' := by
    rw [← hfront, List.getLast?_append]
    rfl
  rw [← Bool.not_eq_true]
  intro hany
  obtain ⟨ending, hending, hsuffix⟩ := List.any_eq_true.1 hany
  unfold Text.endsWith at hsuffix
  obtain ⟨more, hmore⟩ := List.isSuffixOf_iff_suffix.1 hsuffix
  rw [← hmore, List.getLast?_append] at hlast
  simp only [Imports.sourceExtensions, List.mem_cons, List.not_mem_nil, or_false] at hending
  rcases hending with rfl | rfl
  · exact absurd hlast (by simp)
  · exact absurd hlast (by simp)

/-- No source file that imports are looked for in is a document. -/
theorem target_source_ne_document (hsound : disk.Sound) {project : String}
    (hsource : path ∈ Imports.sources disk project) (hdocument : path' ∈ Discovery.documents disk base) :
    target path ≠ target path' := by
  obtain ⟨name, outer, htarget, hname⟩ := exists_name_of_source hsound hsource
  obtain ⟨name', outer', htarget', hname'⟩ := exists_name_of_document hsound hdocument
  rw [htarget, htarget']
  intro heq
  have hsame : name = name' := String.toList_inj.1 (List.cons.inj heq).1
  rw [hsame, endsWithAny_sourceExtensions_of_json hname'] at hname
  cases hname

def modulesOf (disk : Disk) (localPrefix file : String) : List String :=
  match disk.text file with
  | .ok content => Imports.modulesIn localPrefix content
  | .error _ => []

theorem analyze_eq (disk : Disk) (project localPrefix : String) :
    Imports.analyze disk project localPrefix =
      let found := (Imports.sources disk project).flatMap (disk.modulesOf localPrefix)
      ⟨found.eraseDups, found.length, (Imports.sources disk project).length⟩ := rfl

theorem analyze_congr {disk' : Disk} (h : disk.SamePlaces disk') (project localPrefix : String)
    (htext : ∀ path ∈ Imports.sources disk project, disk'.text path = disk.text path) :
    Imports.analyze disk' project localPrefix = Imports.analyze disk project localPrefix := by
  have hmodules : (Imports.sources disk project).flatMap (disk'.modulesOf localPrefix) =
      (Imports.sources disk project).flatMap (disk.modulesOf localPrefix) := by
    refine List.flatMap_congr fun path hpath => ?_
    rw [modulesOf, htext path hpath, modulesOf]
  rw [analyze_eq, analyze_eq, h.sources_eq, hmodules]

end Disk

end BlockCheck
