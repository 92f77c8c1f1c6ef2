import BlockCheck.Discovery
import BlockCheck.Proofs.Disk.Places
import BlockCheck.Proofs.Path.Sorted

/-!
# The entries of a directory

A name behind the path of a directory leads to a file if and only if the file lies right in the
directory, however the path is written. The documents that lie right in a directory are these files,
as far as their names end so.
-/

namespace BlockCheck

namespace Path

variable {base path name : String} {m c : List Char} {cs done : List (List Char)}

theorem IsName.isStep (h : IsName name) : IsStep name.toList := ⟨h.ne_empty, h.ne_dot, h.noSlash⟩

theorem IsStep.isName (h : IsStep c) (hdots : c ≠ ['.', '.']) : IsName (String.ofList c) where
  noSlash := by simpa using h.noSlash
  ne_empty := by simpa using h.ne_nil
  ne_dot := by simpa using h.ne_dot
  ne_dots := by simpa using hdots

theorem IsName.isAbsolute (h : IsName name) : isAbsolute name = false := by
  rw [← Bool.not_eq_true, isAbsolute_iff, not_not, mark]
  have hslash := h.noSlash
  cases hlist : name.toList with
  | nil => rfl
  | cons d rest =>
    rw [hlist] at hslash
    have hd : d ≠ '/' := by simpa using Ne.symm (List.ne_of_not_mem_cons hslash)
    simp [rootMark, hd]

theorem IsName.steps (h : IsName name) : steps name = [name.toList] := by
  rw [Path.steps, components, Text.splitOn_of_not_mem h.noSlash]
  exact filter_of_isStep (by simpa using h.isStep)

theorem steps_append_name (h : IsName name) (base : String) :
    steps (append base name) = steps base ++ [name.toList] := by
  rw [steps_append h.isAbsolute, h.steps]

theorem dots_not_mem_foldl_advance (h : ['.', '.'] ∉ done) (cs : List (List Char)) :
    ['.', '.'] ∉ cs.foldl (advance true) done := by
  induction cs generalizing done with
  | nil => exact h
  | cons c rest ih =>
    apply ih
    by_cases hskipped : c = [] ∨ c = ['.']
    · rwa [advance_of_skipped true done hskipped]
    by_cases hup : c = ['.', '.']
    · rw [hup, advance_up h]
      exact fun hmem => h (List.mem_of_mem_drop hmem)
    · rw [advance_down true done hskipped hup]
      exact List.not_mem_cons_of_ne_of_not_mem (Ne.symm hup) h

theorem components_ofSteps (hm : m ≠ []) (hmark : IsMark m) (h : ∀ c ∈ cs, IsStep c) :
    (components (ofSteps m cs)).filter (· ≠ []) = cs := by
  have hjoin : (Text.splitOn '/' (joinComponents cs)).filter (· ≠ []) = cs := by
    by_cases hcs : cs = []
    · rw [hcs]
      rfl
    · rw [splitOn_joinComponents hcs fun c hc => (h c hc).noSlash, List.filter_eq_self]
      exact fun c hc => decide_eq_true (h c hc).ne_nil
  rw [components, toList_ofSteps (Or.inl hm) h]
  rcases hmark with rfl | rfl | rfl
  · exact absurd rfl hm
  · simpa [Text.splitOn] using hjoin
  · simpa [Text.splitOn] using hjoin

theorem directory_ofSteps (hm : m ≠ []) (hmark : IsMark m) (h : ∀ c ∈ cs, IsStep c) :
    directory (ofSteps m cs) = ofSteps m cs.dropLast := by
  have hroot : rootMark (ofSteps m cs).toList = m := mark_ofSteps hmark h
  rw [directory, components_ofSteps hm hmark h, hroot]
  rfl

theorem fileName_ofSteps (hmark : IsMark m) (h : ∀ d ∈ cs ++ [c], IsStep d) :
    fileName (ofSteps m (cs ++ [c])) = String.ofList c := by
  have hc : '/' ∉ (String.ofList c).toList := by
    simpa using (h c (by simp)).noSlash
  have hend : m = [] ∨ ∃ front, m = front ++ ['/'] := by
    rcases hmark with rfl | rfl | rfl
    · exact Or.inl rfl
    · exact Or.inr ⟨[], rfl⟩
    · exact Or.inr ⟨['/'], rfl⟩
  have hname := fileName_joinComponents hc hend cs
  rw [String.toList_ofList] at hname
  rw [← hname, ← String.ofList_toList (s := ofSteps m _), toList_ofSteps (Or.inr (by simp)) h]

theorem below_name (hname : IsName name) (base : String) :
    below base name = ofSteps (mark base) (steps base ++ [name.toList]) := by
  rw [below, tidy_eq, mark_append hname.isAbsolute, steps_append_name hname]

end Path

namespace Disk

variable {disk : Disk} {base file path : String} {way : List String}

/-! ## A name behind a directory -/

theorem target_append_name (hfile : Path.IsName file) (base : String) :
    target (Path.append base file) = file.toList :: target base := by
  refine target_append (Path.steps_append_name hfile base) ?_ ?_
  · simpa using hfile.isStep
  · simpa using Ne.symm hfile.ne_dots

theorem target_normalize (h : Path.isAbsolute path = true) : target (Path.normalize path) = target path := by
  have hmark : (Path.mark path).isEmpty = false := by simpa using Path.isAbsolute_iff.1 h
  have hsteps : Path.steps (Path.normalize path) = (target path).reverse := by
    rw [Path.steps_normalize, hmark, Path.reduce, target, Bool.not_false]
  rw [target, hsteps, Path.foldl_advance_of_isStep true]
  · simp
  · exact fun c hc => Path.isStep_of_mem_foldl_advance (List.mem_reverse.1 hc)
  · rw [List.mem_reverse]
    exact Path.dots_not_mem_foldl_advance List.not_mem_nil _

theorem normalize_congr_target {a b : String} (ha : Path.isAbsolute a = true)
    (hmark : Path.mark a = Path.mark b) (h : target a = target b) :
    Path.normalize a = Path.normalize b := by
  have hroot : (Path.mark a).isEmpty = false := by simpa using Path.isAbsolute_iff.1 ha
  rw [Path.normalize_eq, Path.normalize_eq, ← hmark, hroot]
  exact congrArg (Path.ofSteps (Path.mark a)) (congrArg List.reverse h)

theorem normalize_below_name (hbase : Path.isAbsolute base = true) (hfile : Path.IsName file) :
    Path.normalize (Path.below base file) = Path.normalize (Path.append (Path.normalize base) file) := by
  apply normalize_congr_target (Path.isAbsolute_below hbase)
  · rw [Path.below, Path.mark_tidy, Path.mark_append hfile.isAbsolute, Path.mark_append hfile.isAbsolute,
      Path.mark_normalize]
  · have htidy : target (Path.below base file) = target (Path.append base file) := by
      rw [target, Path.below, Path.steps_tidy, target]
    rw [htidy, target_append_name hfile, target_append_name hfile, target_normalize hbase]

theorem follow_append (disk : Disk) (before after done : List (List Char)) :
    disk.follow done (before ++ after) =
      (disk.follow done before).bind fun place => disk.follow place after := by
  induction before generalizing done with
  | nil => rfl
  | cons c rest ih =>
    rw [List.cons_append, follow, follow]
    split
    · exact ih done
    split
    · rfl
    split
    · exact ih _
    · exact ih _

theorem follow_steps (disk : Disk) (path : String) :
    disk.follow [] (Path.components path) = disk.follow [] (Path.steps path) :=
  (follow_filter disk _ _).symm

theorem isDirectory_iff :
    disk.isDirectory path = true ↔ disk.follow [] (Path.steps path) = .ok (target path) ∧
      disk.hasDirectory (pathOf (target path)) = true := by
  unfold isDirectory locate
  rw [follow_steps]
  cases hfollow : disk.follow [] (Path.steps path) with
  | error throughFile => simp [Except.map]
  | ok place =>
    rw [follow_eq_ok List.not_mem_nil hfollow]
    simp [Except.map, target]

theorem follow_name (hfile : Path.IsName file) (disk : Disk) (place : List (List Char)) :
    disk.follow place [file.toList] =
      if disk.hasDirectory (pathOf place) then .ok (file.toList :: place)
      else .error (disk.hasFile (pathOf place)) := by
  rw [follow, if_neg (not_or.2 ⟨hfile.ne_empty, hfile.ne_dot⟩), if_neg hfile.ne_dots, follow]
  by_cases hdirectory : disk.hasDirectory (pathOf place) = true
  · simp [hdirectory]
  · simp [hdirectory]

theorem isFile_append_iff (hfile : Path.IsName file) :
    disk.isFile (Path.append base file) = true ↔
      disk.isDirectory base = true ∧ disk.hasFile (pathOf (file.toList :: target base)) = true := by
  unfold isFile locate
  rw [isDirectory_iff, follow_steps, Path.steps_append_name hfile, follow_append]
  cases hfollow : disk.follow [] (Path.steps base) with
  | error throughFile => simp [Except.bind, Except.map]
  | ok place =>
    have hplace : place = target base := follow_eq_ok List.not_mem_nil hfollow
    subst hplace
    by_cases hdirectory : disk.hasDirectory (pathOf (target base)) = true
    · simp [Except.bind, Except.map, follow_name hfile, hdirectory]
    · simp [Except.bind, Except.map, follow_name hfile, hdirectory]

theorem isFile_append_normalize (hbase : Path.isAbsolute base = true) (hfile : Path.IsName file)
    (hdirectory : disk.isDirectory base = true)
    (h : disk.isFile (Path.append (Path.normalize base) file) = true) :
    disk.isFile (Path.append base file) = true := by
  rw [isFile_append_iff hfile, target_normalize hbase] at h
  exact (isFile_append_iff hfile).2 ⟨hdirectory, h.2⟩

/-! ## Files below a directory -/

theorem parts_pathOf {place : List (List Char)} (h : ∀ c ∈ place, Path.IsStep c) :
    Path.parts (pathOf place) = "/" :: place.reverse.map String.ofList := by
  have hsteps : ∀ c ∈ place.reverse, Path.IsStep c := fun c hc => h c (List.mem_reverse.1 hc)
  rw [Path.parts_eq, pathOf_eq, Path.mark_ofSteps (Or.inr (Or.inl rfl)) hsteps,
    Path.steps_ofSteps (Or.inr (Or.inl rfl)) hsteps]
  rfl

theorem isStep_of_mem_target {c : List Char} (h : c ∈ target path) : Path.IsStep c :=
  Path.isStep_of_mem_foldl_advance h

theorem mem_filesBelow_of_isFile (hfile : Path.IsName file)
    (h : disk.isFile (Path.append base file) = true) : [file] ∈ disk.filesBelow base := by
  obtain ⟨hdirectory, hkey⟩ := (isFile_append_iff hfile).1 h
  obtain ⟨hfollow, -⟩ := isDirectory_iff.1 hdirectory
  have hlocate : disk.locate base = .ok (pathOf (target base)) := by
    rw [locate, follow_steps, hfollow, Except.map]
  have hsteps : ∀ c ∈ file.toList :: target base, Path.IsStep c := by
    rw [List.forall_mem_cons]
    exact ⟨hfile.isStep, fun c => isStep_of_mem_target⟩
  have hparts : Path.parts (pathOf (file.toList :: target base)) =
      Path.parts (pathOf (target base)) ++ [file] := by
    rw [parts_pathOf hsteps, parts_pathOf fun c => isStep_of_mem_target]
    simp
  unfold filesBelow
  rw [hlocate]
  refine List.mem_filterMap.2 ⟨_, Record.hasKey_iff.1 hkey, ?_⟩
  dsimp only
  rw [hparts, if_pos (by simp), List.drop_left]

end Disk

/-! ## Documents right in a directory -/

namespace Discovery

variable {disk : Disk} {base file path : String}

def unsortedDocuments (disk : Disk) (base : String) : List String :=
  if disk.isDirectory base then
    filesUnder disk base fun name => Text.endsWith name BlockName.fileExtension
  else []

theorem mem_unsortedDocuments_iff : path ∈ unsortedDocuments disk base ↔ path ∈ documents disk base := by
  unfold unsortedDocuments documents Path.sorted
  split
  · rw [List.mem_mergeSort]
  · exact Iff.rfl

theorem documents_eq_of_pairwise (h : (unsortedDocuments disk base).Pairwise Path.NotAfter) :
    documents disk base = unsortedDocuments disk base := by
  unfold unsortedDocuments at h ⊢
  unfold documents
  split
  · rename_i hdirectory
    rw [if_pos hdirectory] at h
    exact Path.sorted_of_pairwise h
  · rfl

theorem mem_documents_iff :
    path ∈ documents disk base ↔ disk.isDirectory base = true ∧
      ∃ way ∈ disk.filesBelow base, Text.endsWith (way.getLastD "") BlockName.fileExtension = true ∧
        path = Path.below base (Text.join "/" way) := by
  rw [← mem_unsortedDocuments_iff, unsortedDocuments]
  split
  · rename_i hdirectory
    simp only [filesUnder, List.mem_map, List.mem_filter, hdirectory, true_and, and_assoc, eq_comm]
  · rename_i hdirectory
    simp [hdirectory]

theorem isAbsolute_of_mem_documents (habsolute : Path.isAbsolute base = true)
    (hpath : path ∈ documents disk base) : Path.isAbsolute path = true := by
  obtain ⟨-, way, -, -, rfl⟩ := mem_documents_iff.1 hpath
  exact Path.isAbsolute_below habsolute

theorem below_mem_documents (hfile : Path.IsName file)
    (hending : Text.endsWith file BlockName.fileExtension = true)
    (h : disk.isFile (Path.append base file) = true) : Path.below base file ∈ documents disk base := by
  obtain ⟨hdirectory, -⟩ := (Disk.isFile_append_iff hfile).1 h
  refine mem_documents_iff.2 ⟨hdirectory, [file], Disk.mem_filesBelow_of_isFile hfile h, ?_, ?_⟩
  · simpa using hending
  · simp [Text.join]

theorem directory_below (hbase : Path.isAbsolute base = true) (htidy : Path.tidy base = base)
    (hfile : Path.IsName file) : Path.directory (Path.below base file) = base := by
  have hsteps : ∀ c ∈ Path.steps base ++ [file.toList], Path.IsStep c := by
    intro c hc
    rcases List.mem_append.1 hc with hc | hc
    · exact Path.isStep_of_mem_steps hc
    · exact List.mem_singleton.1 hc ▸ hfile.isStep
  rw [Path.below_name hfile, Path.directory_ofSteps (Path.isAbsolute_iff.1 hbase) (Path.isMark_mark base)
    hsteps, List.dropLast_concat, ← Path.tidy_eq, htidy]

theorem fileName_below (hfile : Path.IsName file) (base : String) :
    Path.fileName (Path.below base file) = file := by
  rw [Path.below_name hfile, Path.fileName_ofSteps (Path.isMark_mark base), String.ofList_toList]
  intro c hc
  rcases List.mem_append.1 hc with hc | hc
  · exact Path.isStep_of_mem_steps hc
  · exact List.mem_singleton.1 hc ▸ hfile.isStep

/-- The documents that lie right in a directory are the files in it whose names end so. -/
theorem mem_documents_and_directory_iff (h : disk.Sound) (hbase : Path.isAbsolute base = true)
    (htidy : Path.tidy base = base) :
    path ∈ documents disk base ∧ Path.directory path = base ↔
      ∃ file, Path.IsName file ∧ Text.endsWith file BlockName.fileExtension = true ∧
        disk.isFile (Path.append base file) = true ∧ path = Path.below base file := by
  constructor
  · rintro ⟨hpath, hparent⟩
    obtain ⟨hdirectory, way, hway, hending, rfl⟩ := mem_documents_iff.1 hpath
    obtain ⟨rest, rfl, hrest, hstep, hdots, key, hkey, hsteps⟩ :=
      Disk.exists_steps_of_mem_filesBelow h hdirectory hway
    have hall : ∀ c ∈ Path.steps base ++ rest, Path.IsStep c := by
      intro c hc
      exact (List.mem_append.1 hc).elim Path.isStep_of_mem_steps (hstep c)
    -- The directory of the path is the base, so the path goes one step further.
    have hsame : Path.steps base ++ rest.dropLast = Path.steps base := by
      have hfront : ∀ c ∈ Path.steps base ++ rest.dropLast, Path.IsStep c := by
        intro c hc
        refine hall c ?_
        rw [List.mem_append] at hc ⊢
        exact hc.imp_right List.mem_of_mem_dropLast
      rw [Path.below_join hrest hstep, Path.directory_ofSteps (Path.isAbsolute_iff.1 hbase)
        (Path.isMark_mark base) hall, List.dropLast_append_of_ne_nil hrest] at hparent
      rw [← Path.steps_ofSteps (Path.isMark_mark base) hfront, hparent]
    obtain ⟨front, c, rfl⟩ := (List.eq_nil_or_concat rest).resolve_left hrest
    rw [List.concat_eq_append, List.dropLast_concat] at hsame
    obtain rfl : front = [] := by simpa using hsame
    have hc : Path.IsName (String.ofList c) := (hstep c (by simp)).isName (by simpa [eq_comm] using hdots)
    refine ⟨String.ofList c, hc, by simpa using hending, ?_, by simp [Text.join]⟩
    have hplace : Disk.placeOf key = c :: Disk.target base := by
      rw [Disk.placeOf, hsteps]
      simp
    rw [Disk.isFile_append_iff hc, String.toList_ofList, ← hplace, h.written key hkey]
    exact ⟨hdirectory, Record.hasKey_iff.2 hkey⟩
  · rintro ⟨file, hfile, hending, hisFile, rfl⟩
    exact ⟨below_mem_documents hfile hending hisFile, directory_below hbase htidy hfile⟩

end Discovery

end BlockCheck
