import BlockCheck.Proofs.Disk.Contents
import BlockCheck.Proofs.Disk.Writing
import BlockCheck.Proofs.Json.DistinctKeys
import BlockCheck.Proofs.Path.Normal

/-!
# One file more on a disk

A file is written to a place where there was none. Other paths lead where they led before, and what is read
there stays the same. Below a directory the same files are found, and the new one if it lies there. So there is
one document more, between two that were next to each other, and no source in which imports are looked for.
-/

namespace BlockCheck

namespace Path

theorem parts_inj_of_tidy {a b : String} (ha : isAbsolute a = true) (hb : isAbsolute b = true)
    (htidy : tidy a = a) (htidy' : tidy b = b) (h : parts a = parts b) : a = b := by
  have hparts : parts a = parts b ++ [] := h.trans (List.append_nil _).symm
  obtain ⟨hmark, more, hsteps, hmore⟩ := exists_steps_of_parts hb ha hparts
  obtain rfl : more = [] := by simpa using hmore.symm
  rw [List.append_nil] at hsteps
  rw [← htidy, ← htidy', tidy_eq, tidy_eq, hmark, hsteps]

end Path

namespace Disk

variable {disk disk' : Disk} {place found base path text : String} {done cs steps : List (List Char)}

structure AddsFile (disk disk' : Disk) (place : String) : Prop where
  fresh : place ∉ Record.keys disk.files
  directories : disk'.directories = disk.directories
  keys : Record.keys disk'.files = Record.keys disk.files ++ [place]
  others : ∀ key, key ≠ place → disk.SameAt disk' key

def deny (disk : Disk) (path : String) : Disk :=
  match disk.locate path with
  | .ok place => { disk with denied := place :: disk.denied }
  | .error _ => disk

theorem samePlaces_deny (disk : Disk) (path : String) : disk.SamePlaces (disk.deny path) := by
  unfold deny
  split <;> exact ⟨rfl, rfl⟩

theorem samePlaces_or_addsFile {bytes : List UInt8} (h : disk.writeFile path bytes = .ok disk') :
    disk.SamePlaces disk' ∨ ∃ place, disk.locate path = .ok place ∧ disk.AddsFile disk' place := by
  unfold writeFile at h
  split at h
  · cases h
  rename_i place hplace
  split at h
  · cases h
  split at h
  · cases h
    by_cases hkey : place ∈ Record.keys disk.files
    · exact Or.inl ⟨rfl, Record.keys_insert_of_mem hkey⟩
    · refine Or.inr ⟨place, hplace, hkey, rfl, Record.keys_insert_of_not_mem hkey, fun key hne => ⟨?_, .rfl⟩⟩
      rw [Record.lookup_insert, if_neg hne]
  · cases h

theorem writeFile_of_new {bytes : List UInt8} (hlocate : disk.locate path = .ok place)
    (hfree : disk.hasDirectory place = false) (hparent : disk.hasDirectory (Path.directory place) = true)
    (hnew : place ∉ Record.keys disk.files) :
    disk.writeFile path bytes = .ok { disk with files := disk.files ++ [(place, bytes)] } := by
  unfold writeFile
  rw [hlocate]
  dsimp only
  rw [if_neg (Bool.eq_false_iff.1 hfree), if_pos hparent, Record.insert_of_not_mem hnew]

/-! ## Where paths lead -/

theorem Sound.locate_normalize (h : disk.Sound) {key : String} (hkey : key ∈ Record.keys disk.files)
    (habsolute : Path.isAbsolute path = true) (htarget : pathOf (target path) = key) :
    disk.locate (Path.normalize path) = .ok key := by
  refine h.locate_of_steps hkey ?_
  rw [(Path.isNormal_normalize habsolute).steps_eq, target_normalize habsolute, ← htarget, steps_pathOf_target]

theorem Sound.locate_of_wayFrom (h : disk.Sound) {key : String} (hkey : key ∈ Record.keys disk.files)
    (habsolute : Path.isAbsolute base = true) (hdirectory : disk.isDirectory base = true) {way : List String}
    (hway : wayFrom (Path.parts (pathOf (target base))) key = some way) :
    disk.locate (Path.normalize (Path.below base (Text.join "/" way))) = .ok key := by
  obtain ⟨rest, rfl, hne, hstep, hdots, hsteps⟩ := goes_down_of_wayFrom h hkey hdirectory hway
  refine h.locate_normalize hkey (Path.isAbsolute_below habsolute) ?_
  rw [target_below_join hne hstep hdots, ← h.written key hkey, placeOf, hsteps]
  simp

theorem text_eq_ok_iff : disk.text path = .ok text ↔
    ∃ place bytes cs, disk.locate path = .ok place ∧ disk.files.lookup place = some bytes ∧
      place ∉ disk.denied ∧ Text.Utf8.decode bytes = .ok cs ∧
        String.ofList (withLineFeeds cs) = text := by
  unfold Disk.text
  cases disk.locate path with
  | error throughFile => simp
  | ok place =>
    cases hlookup : disk.files.lookup place with
    | none => simp [hlookup]
    | some bytes =>
      by_cases hdenied : place ∈ disk.denied
      · simp [hlookup, hdenied]
      · cases hdecode : Text.Utf8.decode bytes with
        | error fault => simp [hlookup, hdenied, hdecode]
        | ok cs => simp [hlookup, hdenied, hdecode]

theorem getLastD_of_wayFrom {start way : List String} {key : String} (hway : wayFrom start key = some way)
    (hne : way ≠ []) : way.getLastD "" = (Path.parts key).getLastD "" := by
  unfold wayFrom at hway
  split at hway
  · cases hway
    have hlength : ¬(Path.parts key).length ≤ start.length := by simpa using hne
    rw [List.getLastD_eq_getLast?, List.getLastD_eq_getLast?, List.getLast?_drop, if_neg hlength]
  · cases hway

theorem modulesOf_congr {file : String}
    (h : ∀ text, disk'.text file = .ok text ↔ disk.text file = .ok text) (localPrefix : String) :
    disk'.modulesOf localPrefix file = disk.modulesOf localPrefix file := by
  unfold modulesOf
  obtain ⟨text, hfound', hfound⟩ | ⟨fault', fault, hfound', hfound⟩ := ReadFault.same_text_or_none h
  · rw [hfound', hfound]
  · rw [hfound', hfound]

namespace AddsFile

variable (h : disk.AddsFile disk' place)

include h

theorem mem_keys : place ∈ Record.keys disk'.files := by simp [h.keys]

theorem hasDirectory_eq (path : String) : disk'.hasDirectory path = disk.hasDirectory path := by
  unfold hasDirectory
  rw [h.directories]

theorem hasFile_iff : disk'.hasFile path = true ↔ disk.hasFile path = true ∨ path = place := by
  unfold hasFile
  rw [Record.hasKey_iff, Record.hasKey_iff, h.keys, List.mem_append, List.mem_singleton]

theorem follow_eq_ok_iff : disk'.follow done cs = .ok steps ↔ disk.follow done cs = .ok steps := by
  induction cs generalizing done with
  | nil => exact Iff.rfl
  | cons c rest ih =>
    rw [follow, follow, h.hasDirectory_eq]
    split
    · exact ih
    split
    · exact iff_of_false (by rintro ⟨⟩) (by rintro ⟨⟩)
    split
    · exact ih
    · exact ih

theorem locate_eq_ok_iff : disk'.locate path = .ok found ↔ disk.locate path = .ok found := by
  simp only [exists_of_locate_iff, h.follow_eq_ok_iff]

theorem isDirectory_eq (path : String) : disk'.isDirectory path = disk.isDirectory path := by
  rw [Bool.eq_iff_iff, isDirectory_iff, isDirectory_iff, h.follow_eq_ok_iff, h.hasDirectory_eq]

theorem isFile_iff : disk'.isFile path = true ↔ disk.isFile path = true ∨ disk.locate path = .ok place := by
  simp only [exists_of_isFile_iff, h.locate_eq_ok_iff, h.hasFile_iff, and_or_left, exists_or, exists_eq_right]

theorem deny (hplace : disk.locate path = .ok place) : disk.AddsFile (disk'.deny path) place := by
  unfold Disk.deny
  rw [h.locate_eq_ok_iff.2 hplace]
  refine ⟨h.fresh, h.directories, h.keys, fun key hne => ?_⟩
  obtain ⟨hcontent, hdenied⟩ := h.others key hne
  exact ⟨hcontent, by rw [List.mem_cons, hdenied, or_iff_right hne]⟩

theorem text_eq_ok_iff (hother : disk.locate path ≠ .ok place) :
    disk'.text path = .ok text ↔ disk.text path = .ok text := by
  simp only [Disk.text_eq_ok_iff, h.locate_eq_ok_iff]
  refine exists_congr fun found => exists_congr fun bytes => exists_congr fun cs => ?_
  refine and_congr_right fun hfound => ?_
  obtain ⟨hcontent, hdenied⟩ := h.others found fun heq => hother (heq ▸ hfound)
  rw [hcontent, hdenied]

theorem text_eq (hfound : disk.locate path = .ok found) (hother : found ≠ place) :
    disk'.text path = disk.text path := by
  unfold Disk.text
  rw [hfound, h.locate_eq_ok_iff.2 hfound]
  dsimp only
  rw [(h.others found hother).content, (h.others found hother).contains_eq, h.hasDirectory_eq]

/-! ## Files below a directory -/

theorem exists_way (base : String) : ∃ way? : Option (List String),
    disk'.filesBelow base = disk.filesBelow base ++ way?.toList ∧
      ∀ way ∈ way?, wayFrom (Path.parts (pathOf (target base))) place = some way := by
  cases hlocate : disk.locate base with
  | error throughFile =>
    have hlocate' : ∀ found, disk'.locate base ≠ .ok found := by
      intro found hfound
      cases hlocate.symm.trans (h.locate_eq_ok_iff.1 hfound)
    refine ⟨none, ?_, by rintro _ ⟨⟩⟩
    unfold filesBelow
    rw [hlocate]
    cases hfound : disk'.locate base with
    | error throughFile => rfl
    | ok found => exact absurd hfound (hlocate' found)
  | ok found =>
    refine ⟨wayFrom (Path.parts found) place, ?_, ?_⟩
    · rw [filesBelow_of_locate hlocate, filesBelow_of_locate (h.locate_eq_ok_iff.2 hlocate), h.keys,
        List.filterMap_append, List.filterMap_cons, List.filterMap_nil]
      cases wayFrom (Path.parts found) place <;> rfl
    · rw [locate_eq_ok hlocate]
      exact fun way hway => hway

end AddsFile

end Disk

/-! ## What there is in a project -/

namespace Discovery

variable {disk disk' : Disk} {base path place : String}

theorem documents_eq_sorted (disk : Disk) (base : String) :
    documents disk base = Path.sorted (unsortedDocuments disk base) := by
  unfold documents unsortedDocuments
  split
  · rfl
  · simp [Path.sorted]

theorem tidy_of_mem_documents (hpath : path ∈ documents disk base) : Path.tidy path = path := by
  obtain ⟨-, way, -, -, rfl⟩ := mem_documents_iff.1 hpath
  exact Path.tidy_tidy _

theorem parts_inj_of_mem_documents (habsolute : Path.isAbsolute base = true) {a b : String}
    (ha : a ∈ documents disk base) (hb : b ∈ documents disk base) (h : Path.parts a = Path.parts b) :
    a = b :=
  Path.parts_inj_of_tidy (isAbsolute_of_mem_documents habsolute ha)
    (isAbsolute_of_mem_documents habsolute hb) (tidy_of_mem_documents ha) (tidy_of_mem_documents hb) h

/-- A document that can be found is a file of its own. -/
theorem exists_place_of_document (hsound : disk.Sound) (habsolute : Path.isAbsolute base = true)
    (hpath : path ∈ documents disk base) :
    ∃ key ∈ Record.keys disk.files, disk.locate (Path.normalize path) = .ok key := by
  obtain ⟨hdirectory, way, hway, -, rfl⟩ := mem_documents_iff.1 hpath
  obtain ⟨key, hkey, hway⟩ := Disk.exists_way_of_mem_filesBelow hway
  exact ⟨key, hkey, hsound.locate_of_wayFrom hkey habsolute hdirectory hway⟩

def filesIn (disk : Disk) (project : String) (root : Root) : List String :=
  if disk.isDirectory (Path.below project root.1) then
    filesUnder disk (Path.below project root.1) fun name => Text.endsWithAny name root.2
  else []

theorem components_eq_sorted (disk : Disk) (project : String) (roots : List Root) :
    components disk project roots = Path.sorted (roots.flatMap (filesIn disk project)).eraseDups := rfl

end Discovery

namespace Disk.AddsFile

open Discovery

variable {disk disk' : Disk} {place base path : String} (h : disk.AddsFile disk' place)

include h

theorem filesUnder_eq (base : String) (wanted : String → Bool) : ∃ more? : Option String,
    filesUnder disk' base wanted = filesUnder disk base wanted ++ more?.toList ∧
      ∀ path ∈ more?, ∃ way, wayFrom (Path.parts (pathOf (target base))) place = some way ∧
        wanted (way.getLastD "") = true ∧ path = Path.below base (Text.join "/" way) := by
  obtain ⟨way?, hbelow, hway⟩ := h.exists_way base
  refine ⟨(way?.filter fun way => wanted (way.getLastD "")).map fun way =>
    Path.below base (Text.join "/" way), ?_, ?_⟩
  · rw [filesUnder, filesUnder, hbelow, List.filter_append, List.map_append]
    cases way? with
    | none => rfl
    | some way =>
      rw [Option.toList_some, List.filter_cons, Option.filter_some]
      split <;> rfl
  · intro path hpath
    obtain ⟨way, hfiltered, rfl⟩ := Option.map_eq_some_iff.1 hpath
    obtain ⟨hsome, hwanted⟩ := Option.filter_eq_some_iff.1 hfiltered
    exact ⟨way, hway way hsome, hwanted, rfl⟩

theorem unsortedDocuments_eq (hpath : path ∈ documents disk' base) (hnew : path ∉ documents disk base) :
    unsortedDocuments disk' base = unsortedDocuments disk base ++ [path] ∧
      ∃ way, wayFrom (Path.parts (pathOf (target base))) place = some way ∧
        Text.endsWith (way.getLastD "") BlockName.fileExtension = true ∧
        path = Path.below base (Text.join "/" way) := by
  obtain ⟨hdirectory, -⟩ := mem_documents_iff.1 hpath
  rw [← mem_unsortedDocuments_iff] at hpath hnew
  rw [h.isDirectory_eq] at hdirectory
  obtain ⟨more?, hfiles, hmore⟩ :=
    h.filesUnder_eq base fun name => Text.endsWith name BlockName.fileExtension
  have hsplit : unsortedDocuments disk' base = unsortedDocuments disk base ++ more?.toList := by
    rw [unsortedDocuments, unsortedDocuments, h.isDirectory_eq, if_pos hdirectory, if_pos hdirectory, hfiles]
  have hhere := (List.mem_append.1 (hsplit ▸ hpath)).resolve_left hnew
  obtain rfl : more? = some path := Option.mem_toList.1 hhere
  exact ⟨hsplit, hmore path rfl⟩

theorem locate_document (hsound : disk'.Sound) (habsolute : Path.isAbsolute base = true)
    (hpath : path ∈ documents disk' base) (hnew : path ∉ documents disk base) :
    disk.locate (Path.normalize path) = .ok place := by
  obtain ⟨hdirectory, -⟩ := mem_documents_iff.1 hpath
  obtain ⟨-, way, hway, -, rfl⟩ := h.unsortedDocuments_eq hpath hnew
  rw [← h.locate_eq_ok_iff]
  exact hsound.locate_of_wayFrom h.mem_keys habsolute hdirectory hway

theorem exists_documents_eq (habsolute : Path.isAbsolute base = true)
    (hpath : path ∈ documents disk' base) (hnew : path ∉ documents disk base) :
    ∃ before after, documents disk base = before ++ after ∧
      documents disk' base = before ++ path :: after := by
  obtain ⟨hsplit, -⟩ := h.unsortedDocuments_eq hpath hnew
  obtain ⟨before, after, hmore, hless⟩ := Path.exists_sorted_cons path (unsortedDocuments disk base)
  rw [documents_eq_sorted, documents_eq_sorted]
  refine ⟨before, after, hless, (Path.sorted_congr ?_ ?_).trans hmore⟩
  · rw [hsplit]
    exact List.perm_append_singleton path _
  · intro a ha b hb
    rw [mem_unsortedDocuments_iff] at ha hb
    exact parts_inj_of_mem_documents habsolute ha hb

/-! ### Components -/

theorem components_eq (hsound : disk'.Sound) {project : String} {roots : List Root}
    (habsolute : Path.isAbsolute project = true)
    (hapart : ∀ source ∈ components disk' project roots, disk.locate (Path.normalize source) ≠ .ok place) :
    components disk' project roots = components disk project roots := by
  have hsame : ∀ root ∈ roots, filesIn disk' project root = filesIn disk project root := by
    intro root hroot
    have hin : ∀ source ∈ filesIn disk' project root, source ∈ components disk' project roots := by
      intro source hsource
      rw [components_eq_sorted, (Path.sorted_perm _).mem_iff, List.mem_eraseDups]
      exact List.mem_flatMap.2 ⟨root, hroot, hsource⟩
    unfold filesIn at hin ⊢
    rw [h.isDirectory_eq] at hin ⊢
    split
    · rename_i hdirectory
      obtain ⟨more?, hfiles, hmore⟩ :=
        h.filesUnder_eq (Path.below project root.1) fun name => Text.endsWithAny name root.2
      rw [if_pos hdirectory, hfiles] at hin
      rw [hfiles]
      cases more? with
      | none => exact List.append_nil _
      | some source =>
        -- The new file would be a component.
        obtain ⟨way, hway, -, rfl⟩ := hmore source rfl
        refine absurd ?_ (hapart _ (hin _ (List.mem_append_right _ (Option.mem_toList.2 rfl))))
        rw [← h.locate_eq_ok_iff]
        exact hsound.locate_of_wayFrom h.mem_keys (Path.isAbsolute_below habsolute)
          ((h.isDirectory_eq _).trans hdirectory) hway
    · rfl
  rw [components_eq_sorted, components_eq_sorted, List.flatMap_congr hsame]

/-! ### Imports -/

theorem sources_eq (hpath : path ∈ documents disk' base) (hnew : path ∉ documents disk base)
    (project : String) : Imports.sources disk' project = Imports.sources disk project := by
  obtain ⟨-, documentWay, hdocument, hending, -⟩ := h.unsortedDocuments_eq hpath hnew
  obtain ⟨way?, hbelow, hway⟩ := h.exists_way project
  unfold Imports.sources
  rw [hbelow, List.filterMap_append]
  cases way? with
  | none => exact List.append_nil _
  | some way =>
    -- Whatever directory the way starts in, it ends in the name of the document.
    have hother : Text.endsWithAny (way.getLastD "") Imports.sourceExtensions = false := by
      by_cases hempty : way = []
      · rw [hempty]
        decide
      · have hne : documentWay ≠ [] := by
          rintro rfl
          exact absurd hending (by decide)
        rw [getLastD_of_wayFrom (hway way rfl) hempty, ← getLastD_of_wayFrom hdocument hne]
        exact endsWithAny_sourceExtensions_of_json hending
    rw [Option.toList_some, List.filterMap_cons, if_neg (Bool.eq_false_iff.1 hother), ite_self]
    exact List.append_nil _

theorem analyze_eq (hsound : disk'.Sound) (habsolute : Path.isAbsolute base = true)
    (hpath : path ∈ documents disk' base) (hnew : path ∉ documents disk base) (project localPrefix : String) :
    Imports.analyze disk' project localPrefix = Imports.analyze disk project localPrefix := by
  have hpathAbsolute := isAbsolute_of_mem_documents habsolute hpath
  have hmodules : (Imports.sources disk' project).flatMap (disk'.modulesOf localPrefix) =
      (Imports.sources disk project).flatMap (disk.modulesOf localPrefix) := by
    rw [h.sources_eq hpath hnew]
    refine List.flatMap_congr fun file hfile => ?_
    refine modulesOf_congr (fun text => h.text_eq_ok_iff fun hplace => ?_) localPrefix
    -- The source would be the document.
    have htarget := target_eq_of_locate hplace (h.locate_document hsound habsolute hpath hnew)
    rw [target_normalize hpathAbsolute] at htarget
    rw [← h.sources_eq hpath hnew] at hfile
    exact target_source_ne_document hsound hfile hpath htarget
  rw [Disk.analyze_eq, Disk.analyze_eq, hmodules, h.sources_eq hpath hnew]

end Disk.AddsFile

end BlockCheck
