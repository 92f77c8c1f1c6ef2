import BlockCheck.Proofs.Disk.Contents
import BlockCheck.Proofs.Path.Normal
import BlockCheck.Proofs.Props.Reading

/-!
# The names that a chain of files comes to

What a specifier names is a path in normal form. For a file on a disk there are two absolute names in normal
form, so a chain that begins with one comes to few names of files.
-/

namespace BlockCheck.Props

/-! ## Names on a disk -/

variable {disk : Disk} {files : Files} {cwd root file path : String}

theorem key_of_isNormal (h : Path.IsNormal file) : (disk.toFiles cwd).key file = file := by
  unfold Disk.toFiles
  dsimp only
  rw [Path.append_of_isAbsolute h.absolute, h.normal]

theorem text_of_isNormal (h : Path.IsNormal file) :
    (disk.toFiles cwd).text ((disk.toFiles cwd).key file) = disk.text file := by
  rw [Disk.text_toFiles disk cwd h.absolute, h.normal]

def fileNames (disk : Disk) : List String :=
  Record.keys disk.files ++ (Record.keys disk.files).map ("/" ++ ·)

theorem mem_fileNames_of_text {text : String} (h : Path.IsNormal file) (htext : disk.text file = .ok text) :
    file ∈ fileNames disk := by
  unfold Disk.text at htext
  split at htext
  · cases htext
  rename_i place hplace
  have hkey : place ∈ Record.keys disk.files := by
    rw [← Record.isSome_lookup_iff]
    split at htext
    · simp [*]
    · cases htext
  have hstep : ∀ c ∈ Path.steps file, Path.IsStep c := fun _ => Path.isStep_of_mem_steps
  rw [Disk.locate_eq_ok hplace, Disk.pathOf_eq, ← h.steps_eq] at hkey
  rw [h.eq_ofSteps, fileNames, List.mem_append, List.mem_map]
  rcases Path.isMark_mark file with hmark | hmark | hmark
  · exact absurd hmark (Path.isAbsolute_iff.1 h.absolute)
  · exact Or.inl (hmark ▸ hkey)
  · refine Or.inr ⟨_, hkey, ?_⟩
    rw [hmark, ← String.toList_inj, String.toList_append, Path.toList_ofSteps (Or.inl (by simp)) hstep,
      Path.toList_ofSteps (Or.inl (by simp)) hstep]
    rfl

/-! ## Names of imported files -/

theorem probe_cases (files : Files) (path : String) :
    probe files path = Path.normalize path ∨
      ∃ ending ∈ probeExtensions, probe files path = Path.normalize path ++ ending := by
  unfold probe
  dsimp only
  split
  · exact Or.inl rfl
  cases hfound : (probeExtensions.map (Path.normalize path ++ ·)).find? files.isFile with
  | none => exact Or.inl rfl
  | some found =>
    obtain ⟨ending, hending, heq⟩ := List.mem_map.1 (List.mem_of_find?_eq_some hfound)
    exact Or.inr ⟨ending, hending, heq.symm⟩

theorem isEnding_of_mem_probeExtensions {ending : String} (h : ending ∈ probeExtensions) :
    Path.IsEnding ending.toList := by
  simp only [probeExtensions, List.mem_cons, List.not_mem_nil, or_false] at h
  rcases h with rfl | rfl | rfl | rfl
  all_goals exact ⟨by decide, by simp⟩

theorem normalize_probe (files : Files) (path : String) :
    Path.normalize (probe files path) = probe files path := by
  rcases probe_cases files path with heq | ⟨ending, hending, heq⟩
  · rw [heq, Path.normalize_idem]
  · rw [heq, Path.normalize_append_ending path (isEnding_of_mem_probeExtensions hending)]

theorem isNormal_probe (h : Path.isAbsolute path = true) : Path.IsNormal (probe files path) where
  absolute := by
    have hnormal : Path.isAbsolute (Path.normalize path) = true := Path.isAbsolute_normalize.trans h
    rcases probe_cases files path with heq | ⟨ending, -, heq⟩
    · rwa [heq]
    · obtain ⟨rest, hrest⟩ := Path.isAbsolute_iff_cons.1 hnormal
      exact Path.isAbsolute_iff_cons.2 ⟨rest ++ ending.toList, by rw [heq, String.toList_append, hrest]; rfl⟩
  normal := normalize_probe files path

theorem isAbsolute_basePath {root : Option String} {table : ImportMap} {specifier directory : String}
    (hroot : ∀ base ∈ root, Path.isAbsolute base = true) (hdirectory : Path.isAbsolute directory = true) :
    Path.isAbsolute (basePath root table specifier directory) = true := by
  have hhere : Path.isAbsolute (Path.append directory specifier) = true := Path.isAbsolute_append hdirectory
  unfold basePath
  dsimp only
  split
  · exact hhere
  split
  · rename_i base start target _
    split
    · exact Path.isAbsolute_append (Path.isAbsolute_append (hroot base rfl))
    · exact hhere
  · exact hhere

theorem Start.isNormal_importedFile {start : Start} (hroot : ∀ base ∈ start.root, Path.isAbsolute base = true)
    (hfile : Path.isAbsolute file = true) (specifier : String) :
    Path.IsNormal (start.importedFile specifier file) := by
  refine isNormal_probe (isAbsolute_basePath (fun base hbase => ?_) (Path.isAbsolute_parent hfile))
  obtain ⟨given, hgiven, rfl⟩ := Option.map_eq_some_iff.1 hbase
  exact Path.isAbsolute_normalize.trans (hroot given hgiven)

theorem isNormal_importedFile (hroot : Path.isAbsolute root = true) (hfile : Path.isAbsolute file = true)
    (specifier : String) : Path.IsNormal (importedFile files root specifier file) := by
  rw [← Start.importedFile_ofProject]
  exact Start.isNormal_importedFile (by simpa [Start.ofProject] using hroot) hfile specifier

theorem isAbsolute_of_reads {read : String} (hroot : Path.isAbsolute root = true)
    (hpath : Path.isAbsolute path = true) (h : Reads files root path read) :
    Path.isAbsolute read = true := by
  induction h with
  | aliases =>
    exact Path.isAbsolute_append (Path.isAbsolute_normalize.trans (Path.isAbsolute_normalize.trans hroot))
  | source => exact Path.isAbsolute_normalize.trans hpath
  | imported _ _ _ ih => exact (isNormal_importedFile hroot ih _).absolute

/-- With fewer files the same one is found, if it is among them. -/
theorem probe_congr {files' : Files} (hless : ∀ name, files.isFile name = true → files'.isFile name = true)
    (hfound : files'.isFile (probe files' path) = true → files.isFile (probe files' path) = true) :
    probe files path = probe files' path := by
  have hmissing : ∀ name, ¬files'.isFile name = true → ¬files.isFile name = true := fun name => mt (hless name)
  unfold probe at hfound ⊢
  dsimp only at hfound ⊢
  by_cases hself : files'.isFile (Path.normalize path) = true
  · rw [if_pos hself] at hfound ⊢
    rw [if_pos (hfound hself)]
  rw [if_neg hself] at hfound ⊢
  rw [if_neg (hmissing _ hself)]
  cases hfirst : (probeExtensions.map (Path.normalize path ++ ·)).find? files'.isFile with
  | none =>
    rw [List.find?_eq_none] at hfirst
    rw [List.find?_eq_none.2 fun name hname => hmissing name (hfirst name hname)]
  | some first =>
    rw [hfirst, Option.getD_some] at hfound
    obtain ⟨hfile, before, after, hnames, hbefore⟩ := List.find?_eq_some_iff_append.1 hfirst
    have hfirst' : (probeExtensions.map (Path.normalize path ++ ·)).find? files.isFile = some first := by
      refine List.find?_eq_some_iff_append.2 ⟨hfound hfile, before, after, hnames, fun name hname => ?_⟩
      simpa using hmissing name (by simpa using hbefore name hname)
    rw [hfirst']

end BlockCheck.Props
