import BlockCheck.Disk
import BlockCheck.Proofs.Path.Steps
import Mathlib.Data.List.Infix

/-!
# Places on a disk

A way that leads somewhere leads to where its normal form says. On a sound disk every file can be
reached by the steps of its path.
-/

namespace BlockCheck.Disk

variable {disk : Disk} {key path base : String} {cs done place : List (List Char)}

/-- Where the path leads if it leads anywhere. -/
def target (path : String) : List (List Char) := (Path.steps path).foldl (Path.advance true) []

/-- The steps from the root to a file, the last one first. -/
def placeOf (key : String) : List (List Char) := (Path.steps key).reverse

/-- Each file is listed under the path that leads to it, it lies in directories only, and it is no
directory. -/
structure Sound (disk : Disk) : Prop where
  written : ∀ key ∈ Record.keys disk.files, pathOf (placeOf key) = key
  direct : ∀ key ∈ Record.keys disk.files, ['.', '.'] ∉ placeOf key
  inside : ∀ key ∈ Record.keys disk.files, ∀ outer ∈ (placeOf key).tail.tails,
    disk.hasDirectory (pathOf outer) = true
  apart : ∀ key ∈ Record.keys disk.files, disk.hasDirectory key = false

/-! ## Files as they are read -/

theorem isFile_toFiles (disk : Disk) (cwd : String) (h : Path.isAbsolute path = true) :
    (disk.toFiles cwd).isFile path = disk.isFile path := by
  unfold toFiles
  dsimp only
  rw [Path.append_of_isAbsolute h]

theorem text_toFiles (disk : Disk) (cwd : String) (h : Path.isAbsolute path = true) :
    (disk.toFiles cwd).text ((disk.toFiles cwd).key path) = disk.text (Path.normalize path) := by
  unfold toFiles
  dsimp only
  rw [Path.append_of_isAbsolute h]

/-! ## Places -/

theorem pathOf_eq (place : List (List Char)) : pathOf place = Path.ofSteps ['/'] place.reverse := rfl

theorem target_append (hsteps : Path.steps path = Path.steps base ++ cs)
    (h : ∀ c ∈ cs, Path.IsStep c) (hdots : ['.', '.'] ∉ cs) :
    target path = cs.reverse ++ target base := by
  rw [target, hsteps, List.foldl_append, Path.foldl_advance_of_isStep true h hdots, target]

theorem target_below_join (hne : cs ≠ []) (h : ∀ c ∈ cs, Path.IsStep c) (hdots : ['.', '.'] ∉ cs) :
    target (Path.below base (Text.join "/" (cs.map String.ofList))) = cs.reverse ++ target base :=
  target_append (Path.steps_below_join hne h base) h hdots

/-! ## Following a path -/

theorem follow_filter (disk : Disk) (cs done : List (List Char)) :
    disk.follow done (cs.filter (fun c => c ≠ [] ∧ c ≠ ['.'])) = disk.follow done cs := by
  induction cs generalizing done with
  | nil => rfl
  | cons c rest ih =>
    rw [List.filter_cons]
    by_cases hskipped : c = [] ∨ c = ['.']
    · rw [if_neg (by simpa [or_iff_not_imp_left] using hskipped), follow, if_pos hskipped, ih]
    · rw [if_pos (by simpa [not_or] using hskipped)]
      simp only [follow, if_neg hskipped, ih]

theorem follow_eq_ok (hdone : ['.', '.'] ∉ done) (h : disk.follow done cs = .ok place) :
    place = cs.foldl (Path.advance true) done := by
  induction cs generalizing done with
  | nil =>
    cases h
    rfl
  | cons c rest ih =>
    rw [follow] at h
    rw [List.foldl_cons]
    by_cases hskipped : c = [] ∨ c = ['.']
    · rw [if_pos hskipped] at h
      rw [Path.advance_of_skipped _ _ hskipped]
      exact ih hdone h
    rw [if_neg hskipped] at h
    split at h
    · cases h
    split at h
    · rename_i hup
      rw [hup, Path.advance_up hdone]
      exact ih (fun hmem => hdone (List.mem_of_mem_drop hmem)) h
    · rename_i hdown
      rw [Path.advance_down _ _ hskipped hdown]
      exact ih (List.not_mem_cons_of_ne_of_not_mem (Ne.symm hdown) hdone) h

theorem follow_of_directories (h : ∀ c ∈ cs, Path.IsStep c) (hdots : ['.', '.'] ∉ cs)
    (hinside : ∀ outer ∈ (cs.reverse ++ done).tail.tails, disk.hasDirectory (pathOf outer) = true) :
    disk.follow done cs = .ok (cs.reverse ++ done) := by
  induction cs generalizing done with
  | nil => rfl
  | cons c rest ih =>
    obtain ⟨hc, hrest⟩ := List.forall_mem_cons.1 h
    obtain ⟨hne, hdots⟩ := List.ne_and_not_mem_of_not_mem_cons hdots
    have hlist : (c :: rest).reverse ++ done = rest.reverse ++ c :: done := by simp
    rw [hlist] at hinside ⊢
    have hdone : disk.hasDirectory (pathOf done) = true := by
      refine hinside done ((List.mem_tails _ _).2 ?_)
      cases rest.reverse with
      | nil => exact List.suffix_rfl
      | cons d more => exact (List.suffix_cons c done).trans (List.suffix_append _ _)
    rw [follow, if_neg (not_or.2 ⟨hc.ne_nil, hc.ne_dot⟩), if_neg (by simp [hdone]), if_neg hne.symm]
    exact ih hrest hdots hinside

theorem exists_of_locate_iff {found : String} : disk.locate path = .ok found ↔
    ∃ place, disk.follow [] (Path.components path) = .ok place ∧ pathOf place = found := by
  unfold locate
  cases disk.follow [] (Path.components path) with
  | error throughFile => simp [Except.map]
  | ok place => simp [Except.map]

theorem exists_of_isFile_iff :
    disk.isFile path = true ↔ ∃ found, disk.locate path = .ok found ∧ disk.hasFile found = true := by
  unfold isFile
  cases disk.locate path with
  | error throughFile => simp
  | ok found => simp

theorem locate_eq_ok {found : String} (h : disk.locate path = .ok found) :
    found = pathOf (target path) := by
  obtain ⟨place, hfollow, rfl⟩ := exists_of_locate_iff.1 h
  rw [← follow_filter] at hfollow
  rw [follow_eq_ok List.not_mem_nil hfollow]
  rfl

theorem hasDirectory_target (h : disk.isDirectory path = true) :
    disk.hasDirectory (pathOf (target path)) = true := by
  unfold isDirectory at h
  split at h
  · rename_i found hlocate
    exact locate_eq_ok hlocate ▸ h
  · cases h

/-! ## Files of a sound disk -/

namespace Sound

variable (h : disk.Sound) (hkey : key ∈ Record.keys disk.files)

include h hkey

theorem not_mem_steps : ['.', '.'] ∉ Path.steps key :=
  mt List.mem_reverse.2 (h.direct key hkey)

theorem locate_of_steps (hsteps : Path.steps path = Path.steps key) : disk.locate path = .ok key := by
  have hfollow : disk.follow [] (Path.steps key) = .ok (placeOf key) := by
    have hreach : disk.follow [] (Path.steps key) = .ok ((Path.steps key).reverse ++ []) := by
      apply follow_of_directories
      · exact fun _ => Path.isStep_of_mem_steps
      · exact h.not_mem_steps hkey
      · simpa [placeOf] using h.inside key hkey
    rwa [List.append_nil] at hreach
  unfold locate
  rw [← follow_filter, ← Path.steps, hsteps, hfollow, Except.map, h.written key hkey]

theorem isFile_of_steps (hsteps : Path.steps path = Path.steps key) : disk.isFile path = true := by
  unfold isFile
  rw [h.locate_of_steps hkey hsteps]
  exact Record.hasKey_iff.2 hkey

theorem target_ne (hdirectory : disk.isDirectory path = true) :
    (target path).reverse ≠ Path.steps key := by
  intro heq
  have hdirectory := hasDirectory_target hdirectory
  rw [← List.reverse_reverse (target path), heq, ← placeOf, h.written key hkey,
    h.apart key hkey] at hdirectory
  cases hdirectory

end Sound

/-! ## Files below a directory -/

theorem steps_pathOf_target (path : String) : Path.steps (pathOf (target path)) = (target path).reverse := by
  rw [pathOf_eq]
  refine Path.steps_ofSteps (Or.inr (Or.inl rfl)) fun c hc => ?_
  exact Path.isStep_of_mem_foldl_advance (List.mem_reverse.1 hc)

def wayFrom (start : List String) (key : String) : Option (List String) :=
  if start.isPrefixOf (Path.parts key) then some ((Path.parts key).drop start.length) else none

theorem filesBelow_of_locate {found : String} (h : disk.locate base = .ok found) :
    disk.filesBelow base = (Record.keys disk.files).filterMap (wayFrom (Path.parts found)) := by
  unfold filesBelow
  rw [h]
  rfl

theorem exists_steps_of_wayFrom (h : disk.Sound) (hkey : key ∈ Record.keys disk.files) {way : List String}
    (hway : wayFrom (Path.parts (pathOf (target base))) key = some way) :
    ∃ rest, way = rest.map String.ofList ∧ Path.steps key = (target base).reverse ++ rest := by
  have habsolute : Path.isAbsolute (pathOf (target base)) = true := by
    simp [Path.isAbsolute, Text.startsWith, pathOf]
  have hkeyAbsolute : Path.isAbsolute key = true := by
    rw [← h.written key hkey]
    simp [Path.isAbsolute, Text.startsWith, pathOf]
  unfold wayFrom at hway
  split at hway
  · rename_i hbelow
    obtain ⟨rest, hrest⟩ := List.isPrefixOf_iff_prefix.1 hbelow
    obtain ⟨-, more, hsteps, rfl⟩ := Path.exists_steps_of_parts habsolute hkeyAbsolute hrest.symm
    rw [← hrest, List.drop_left] at hway
    cases hway
    exact ⟨more, rfl, steps_pathOf_target base ▸ hsteps⟩
  · cases hway

theorem exists_way_of_mem_filesBelow {way : List String} (hway : way ∈ disk.filesBelow base) :
    ∃ key ∈ Record.keys disk.files, wayFrom (Path.parts (pathOf (target base))) key = some way := by
  cases hlocate : disk.locate base with
  | error throughFile => simp [filesBelow, hlocate] at hway
  | ok found =>
    rw [filesBelow_of_locate hlocate, locate_eq_ok hlocate] at hway
    exact List.mem_filterMap.1 hway

theorem exists_key_of_mem_filesBelow (h : disk.Sound) {way : List String}
    (hway : way ∈ disk.filesBelow base) :
    ∃ key ∈ Record.keys disk.files, ∃ rest, way = rest.map String.ofList ∧
      Path.steps key = (target base).reverse ++ rest := by
  obtain ⟨key, hkey, hway⟩ := exists_way_of_mem_filesBelow hway
  exact ⟨key, hkey, exists_steps_of_wayFrom h hkey hway⟩

theorem goes_down_of_wayFrom (h : disk.Sound) (hkey : key ∈ Record.keys disk.files)
    (hdirectory : disk.isDirectory base = true) {way : List String}
    (hway : wayFrom (Path.parts (pathOf (target base))) key = some way) :
    ∃ rest, way = rest.map String.ofList ∧ rest ≠ [] ∧ (∀ c ∈ rest, Path.IsStep c) ∧
      ['.', '.'] ∉ rest ∧ Path.steps key = (target base).reverse ++ rest := by
  obtain ⟨rest, rfl, hsteps⟩ := exists_steps_of_wayFrom h hkey hway
  refine ⟨rest, rfl, ?_, ?_, ?_, hsteps⟩
  · -- The file is not the directory itself.
    rintro rfl
    exact h.target_ne hkey hdirectory (by simpa using hsteps.symm)
  · intro c hc
    exact Path.isStep_of_mem_steps (hsteps ▸ List.mem_append_right _ hc)
  · intro hmem
    exact h.not_mem_steps hkey (hsteps ▸ List.mem_append_right _ hmem)

theorem exists_steps_of_mem_filesBelow (h : disk.Sound) (hdirectory : disk.isDirectory base = true)
    {way : List String} (hway : way ∈ disk.filesBelow base) :
    ∃ rest, way = rest.map String.ofList ∧ rest ≠ [] ∧ (∀ c ∈ rest, Path.IsStep c) ∧
      ['.', '.'] ∉ rest ∧
        ∃ key ∈ Record.keys disk.files, Path.steps key = (target base).reverse ++ rest := by
  obtain ⟨key, hkey, hway⟩ := exists_way_of_mem_filesBelow hway
  obtain ⟨rest, hrest, hne, hstep, hdots, hsteps⟩ := goes_down_of_wayFrom h hkey hdirectory hway
  exact ⟨rest, hrest, hne, hstep, hdots, key, hkey, hsteps⟩

end BlockCheck.Disk
