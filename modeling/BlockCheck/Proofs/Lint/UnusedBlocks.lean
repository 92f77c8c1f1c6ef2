import BlockCheck.Proofs.Blocks.Reach
import BlockCheck.Proofs.Disk.Entries
import BlockCheck.Proofs.Lint.Escapes
import BlockCheck.Proofs.Lint.UnusedComponents
import BlockCheck.Proofs.Lint.UnusedProperties
import BlockCheck.Proofs.Lists

/-!
# Unused blocks

A run over documents marks the blocks that it meets, also those that it meets while it expands other
blocks. A block that can be expanded is a document of the project itself. So what is marked in the end
is what some document refers to, and a block is unused if no document refers to it.
-/

namespace BlockCheck

/-! ## Sorted lists of names -/

theorem Text.pairwise_sorted (texts : List String) : (Text.sorted texts).Pairwise (· ≤ ·) := by
  have htrans : ∀ a b c : String, decide (a ≤ b) = true → decide (b ≤ c) = true → decide (a ≤ c) = true := by
    simpa using fun a b c => String.le_trans
  have htotal : ∀ a b : String, (decide (a ≤ b) || decide (b ≤ a)) = true := by
    simpa using String.le_total
  simpa [Text.sorted] using List.pairwise_mergeSort htrans htotal texts

theorem Usage.pairwise_unused (used known excluded : List String) :
    (unused used known excluded).Pairwise (· < ·) := by
  have hnodup : (unused used known excluded).Nodup := by
    unfold unused Text.sorted
    rw [(List.mergeSort_perm _ _).nodup_iff]
    exact nodup_eraseDups _
  refine ((Text.pairwise_sorted _).and hnodup).imp ?_
  rintro a b ⟨hle, hne⟩
  exact Std.lt_of_le_of_ne hle hne

/-! ## What a document marks -/

namespace Document

variable {around : Surroundings} {file text name : String} {inProgress : List String}

theorem exists_mention_of_mem_usedBlocks (h : name ∈ (check around file inProgress text).usedBlocks) :
    Mentions around text name ∨
      ∃ block content, around.blocks.read block = some (.ok content) ∧ Mentions around content name := by
  induction inProgress, text using expanding_induction around with
  | step inProgress text ih =>
    obtain ⟨first, hfirst, rfl | ⟨hfree, content, hread, hname⟩⟩ := mem_usedBlocks_check.1 h
    · exact Or.inl hfirst
    · refine Or.inr ((ih first content hfree hread hname).elim (fun hmentions => ?_) id)
      exact ⟨first, content, hread, hmentions⟩

theorem mem_usedBlocks_of_mentions (h : Mentions around text name) :
    name ∈ (check around file inProgress text).usedBlocks :=
  mem_usedBlocks_check.2 ⟨name, h, Or.inl rfl⟩

theorem mentions_iff :
    Mentions around text name ↔ ∃ value, Json.parse text = .ok value ∧
      ∃ r ∈ Scan.references around.naming around.key value, r.kind = .savedBlock ∧ r.identifier = name := by
  unfold Mentions blockReferences references
  cases Json.parse text with
  | error reason => simp
  | ok value => simp [and_assoc]

end Document

namespace Lint

variable {disk : Disk} {cwd content name : String} {config : Config}

/-- A file right in the directory of blocks stands for the block. -/
def IsBlock (disk : Disk) (config : Config) (name : String) : Prop :=
  ∃ file, Path.IsName file ∧ Text.endsWith file BlockName.fileExtension = true ∧
    disk.isFile (Path.append config.blocksDir file) = true ∧ BlockName.ofFileName file = name

def ReferredTo (disk : Disk) (cwd : String) (config : Config) (name : String) : Prop :=
  ∃ value, IsDocument disk cwd config value ∧
    ∃ r ∈ Scan.references config.naming config.settings.discriminator value,
      r.kind = .savedBlock ∧ r.identifier = name

theorem referredTo_iff :
    ReferredTo disk cwd config name ↔
      ∃ path ∈ Discovery.documents disk config.blocksDir, ∃ text,
        (disk.toFiles cwd).text ((disk.toFiles cwd).key path) = .ok text ∧
          Document.Mentions (surroundings (disk.toFiles cwd) config) text name := by
  unfold ReferredTo IsDocument
  simp only [Document.mentions_iff]
  constructor
  · rintro ⟨value, ⟨path, hpath, text, htext, hparse⟩, hr⟩
    exact ⟨path, hpath, text, htext, value, hparse, hr⟩
  · rintro ⟨path, hpath, text, htext, value, hparse, hr⟩
    exact ⟨value, ⟨path, hpath, text, htext, hparse⟩, hr⟩

def referredBlocks (disk : Disk) (cwd : String) (config : Config) : List String :=
  (Discovery.unsortedDocuments disk config.blocksDir).flatMap fun path =>
    match (disk.toFiles cwd).text ((disk.toFiles cwd).key path) with
    | .ok text =>
      (Document.blockReferences (surroundings (disk.toFiles cwd) config) text).map (·.identifier)
    | .error _ => []

theorem mem_referredBlocks_iff :
    name ∈ referredBlocks disk cwd config ↔ ReferredTo disk cwd config name := by
  rw [referredTo_iff, referredBlocks, List.mem_flatMap]
  refine exists_congr fun path => and_congr Discovery.mem_unsortedDocuments_iff ?_
  cases (disk.toFiles cwd).text ((disk.toFiles cwd).key path) with
  | error fault => simp
  | ok text => simp [Document.Mentions]

instance : Decidable (ReferredTo disk cwd config name) := decidable_of_iff _ mem_referredBlocks_iff

/-! ## Blocks are documents -/

theorem blocks_surroundings (files : Files) (config : Config) :
    (surroundings files config).blocks = .ofDirectory config.blocksDir files := rfl

section Placed

variable (habsolute : Path.isAbsolute config.blocksDir = true)

include habsolute

theorem exists_document_of_read (hdirectory : disk.isDirectory config.blocksDir = true)
    (hread : (surroundings (disk.toFiles cwd) config).blocks.read name = some (.ok content)) :
    ∃ path ∈ Discovery.documents disk config.blocksDir,
      (disk.toFiles cwd).text ((disk.toFiles cwd).key path) = .ok content := by
  have hname := BlockName.isName_toFileName name
  have hstore : Path.isAbsolute (Path.append (Path.normalize config.blocksDir)
      (BlockName.toFileName name)) = true :=
    Path.isAbsolute_append (Path.isAbsolute_normalize.trans habsolute)
  have hbelow : Path.isAbsolute (Path.below config.blocksDir (BlockName.toFileName name)) = true :=
    Path.isAbsolute_below habsolute
  rw [blocks_surroundings, BlockStore.read_ofDirectory_iff] at hread
  obtain ⟨hisFile, htext⟩ := hread
  rw [Disk.isFile_toFiles disk cwd hstore] at hisFile
  rw [Disk.text_toFiles disk cwd hstore] at htext
  refine ⟨_, Discovery.below_mem_documents hname (BlockName.endsWith_toFileName name) ?_, ?_⟩
  · exact Disk.isFile_append_normalize habsolute hname hdirectory hisFile
  · rw [Disk.text_toFiles disk cwd hbelow, Disk.normalize_below_name habsolute hname, htext]

/-- Whatever is expanded is a document too, so a run that has room for every document is stopped only if one of
them refers to a block whose name cannot be written as bytes. -/
theorem not_stopsDocuments {room : Nat → Nat} {path : String}
    (hroom : ∀ n, ∀ path ∈ Discovery.documents disk config.blocksDir, ¬StopsComponents (room n) disk cwd path)
    (hnames : ∀ name ∈ referredBlocks disk cwd config, Text.Surrogate.isUnencodable name = false)
    (hpath : path ∈ Discovery.documents disk config.blocksDir) :
    ¬StopsDocuments room disk cwd config path := by
  rintro ⟨text, htext, hescapes⟩
  refine Document.not_escapes_of_within
    (P := fun text => ∃ path ∈ Discovery.documents disk config.blocksDir,
      (disk.toFiles cwd).text ((disk.toFiles cwd).key path) = .ok text) ?_ ?_ ?_ ⟨path, hpath, htext⟩ hescapes
  · rintro text ⟨path, hpath, htext⟩ n
    rw [Option.eq_none_iff_forall_ne_some]
    exact fun bracket hbracket => hroom n path hpath ⟨text, bracket, htext, hbracket⟩
  · rintro text ⟨path, hpath, htext⟩ name hmentions
    exact hnames name (mem_referredBlocks_iff.2 (referredTo_iff.2 ⟨path, hpath, text, htext, hmentions⟩))
  · rintro text ⟨path, hpath, -⟩ name content - hread
    obtain ⟨hdirectory, -⟩ := Discovery.mem_documents_iff.1 hpath
    exact exists_document_of_read habsolute hdirectory hread

theorem mem_usedBlocks_documents_iff :
    name ∈ (Outcome.concat ((Discovery.documents disk config.blocksDir).map
        (documentAt (disk.toFiles cwd) config))).usedBlocks ↔ ReferredTo disk cwd config name := by
  rw [Outcome.usedBlocks_concat, List.flatMap_map, List.mem_flatMap, referredTo_iff]
  constructor
  · rintro ⟨path, hpath, hname⟩
    obtain ⟨hdirectory, -⟩ := Discovery.mem_documents_iff.1 hpath
    unfold documentAt at hname
    cases htext : (disk.toFiles cwd).text ((disk.toFiles cwd).key path) with
    | error fault =>
      rw [htext] at hname
      cases hname
    | ok text =>
      rw [htext] at hname
      rcases Document.exists_mention_of_mem_usedBlocks hname with hmentions | ⟨block, content, hread, hmentions⟩
      · exact ⟨path, hpath, text, htext, hmentions⟩
      · obtain ⟨inner, hinner, hcontent⟩ := exists_document_of_read habsolute hdirectory hread
        exact ⟨inner, hinner, content, hcontent, hmentions⟩
  · rintro ⟨path, hpath, text, htext, hmentions⟩
    refine ⟨path, hpath, ?_⟩
    unfold documentAt
    rw [htext]
    exact Document.mem_usedBlocks_of_mentions hmentions

theorem mem_reusableBlocks_iff (hsound : disk.Sound)
    (htidy : Path.tidy config.blocksDir = config.blocksDir) :
    name ∈ reusableBlocks config (Discovery.documents disk config.blocksDir) ↔
      IsBlock disk config name ∧ config.settings.isEntryBlock name = false := by
  unfold reusableBlocks IsBlock
  simp only [List.mem_filter, List.mem_map, decide_eq_true_eq,
    Discovery.mem_documents_and_directory_iff hsound habsolute htidy, Bool.not_eq_true']
  refine and_congr_left fun _ => ?_
  constructor
  · rintro ⟨path, ⟨file, hfile, hending, hisFile, rfl⟩, rfl⟩
    exact ⟨file, hfile, hending, hisFile, by rw [Discovery.fileName_below hfile]⟩
  · rintro ⟨file, hfile, hending, hisFile, rfl⟩
    exact ⟨_, ⟨file, hfile, hending, hisFile, rfl⟩, by rw [Discovery.fileName_below hfile]⟩

end Placed

theorem blocksDir_of_forProject {root : String} {blocks : Option String} {settings : Settings}
    (hconfig : Config.forProject disk cwd root blocks settings = .ok config) :
    Path.isAbsolute config.blocksDir = true ∧ Path.tidy config.blocksDir = config.blocksDir := by
  obtain ⟨rfl, -, -⟩ := Config.eq_of_forProject hconfig
  exact ⟨Path.isAbsolute_below (Path.isAbsolute_resolve cwd root), Path.tidy_tidy _⟩

theorem unusedBlocks_iff (disk : Disk) (cwd : String) (config : Config) (hsound : disk.Sound)
    (habsolute : Path.isAbsolute config.blocksDir = true)
    (htidy : Path.tidy config.blocksDir = config.blocksDir) :
    (documents disk cwd config).unusedBlocks.Pairwise (· < ·) ∧
      ∀ name, name ∈ (documents disk cwd config).unusedBlocks ↔
        IsBlock disk config name ∧ config.settings.isEntryBlock name = false ∧
          ¬ReferredTo disk cwd config name := by
  refine ⟨Usage.pairwise_unused _ _ _, fun name => ?_⟩
  unfold documents
  rw [Usage.mem_unused_iff, mem_usedBlocks_documents_iff habsolute,
    mem_reusableBlocks_iff habsolute hsound htidy, and_assoc]
  simp

/-- A run over documents lists, in order and each once, the blocks in the directory that are no entry
points and that no document refers to, or a document stops it. The directory is given by a tidy path. -/
theorem unusedBlocks_of_runDocuments (room : Nat → Nat) (disk : Disk) (cwd : String) (config : Config)
    (hsound : disk.Sound) (habsolute : Path.isAbsolute config.blocksDir = true)
    (htidy : Path.tidy config.blocksDir = config.blocksDir) :
    (∀ found, runDocuments room disk cwd config = .ok found →
      found.unusedBlocks.Pairwise (· < ·) ∧
        ∀ name, name ∈ found.unusedBlocks ↔
          IsBlock disk config name ∧ config.settings.isEntryBlock name = false ∧
            ¬ReferredTo disk cwd config name) ∧
    ((∃ found, runDocuments room disk cwd config = .ok found) ↔
      ∀ path ∈ Discovery.documents disk config.blocksDir, ¬StopsDocuments room disk cwd config path) := by
  refine ⟨fun found hfound => ?_, exists_runDocuments_eq_ok_iff⟩
  rw [runDocuments_eq_ok hfound]
  exact unusedBlocks_iff disk cwd config hsound habsolute htidy

/-! ## A spare block -/

def spareDisk : Disk where
  files := [("/p/b/pages-home.json", "\x7b\"__resolveType\":\"Banner\"\x7d".toUTF8.toList),
    ("/p/b/Banner.json", "[\x7b\"__resolveType\":\"Site Footer\"\x7d]".toUTF8.toList),
    ("/p/b/Site%20Footer.json", "\x7b\x7d".toUTF8.toList),
    ("/p/b/Spare.json", "\x7b\x7d".toUTF8.toList)]
  directories := ["/", "/p", "/p/b"]

def spareConfig : Config := ⟨"/p", "/p/b", {}⟩

/-- A reference to a block that has half of a surrogate pair for its name. -/
def halfText : String := "\x7b\"__resolveType\":\"\\ud800\"\x7d"

def halfDisk : Disk where
  files := spareDisk.files ++
    [("/p/b/Half.json", halfText.toUTF8.toList)]
  directories := spareDisk.directories

theorem referredBlocks_spare : referredBlocks spareDisk "/" spareConfig = ["Banner", "Site Footer"] := by
  decide +kernel

theorem not_stopsDocuments_spare {path : String}
    (hpath : path ∈ Discovery.documents spareDisk spareConfig.blocksDir) :
    ¬StopsDocuments (fun _ => 100) spareDisk "/" spareConfig path := by
  have hroom : ∀ path ∈ Discovery.unsortedDocuments spareDisk spareConfig.blocksDir,
      ¬StopsComponents 100 spareDisk "/" path := by decide +kernel
  refine not_stopsDocuments (by decide) (fun _ path hpath => ?_) ?_ hpath
  · exact hroom path (Discovery.mem_unsortedDocuments_iff.2 hpath)
  · rw [referredBlocks_spare]
    decide

theorem stopsDocuments_half : "/p/b/Half.json" ∈ Discovery.documents halfDisk spareConfig.blocksDir ∧
    StopsDocuments (fun _ => 100) halfDisk "/" spareConfig "/p/b/Half.json" := by
  have htext : (halfDisk.toFiles "/").text ((halfDisk.toFiles "/").key "/p/b/Half.json") =
      .ok halfText := by decide +kernel
  exact ⟨Discovery.mem_unsortedDocuments_iff.1 (by decide +kernel),
    stopsDocuments_of_unencodable htext (by decide +kernel)⟩

/-- The footer is used inside the banner only, the spare block nowhere. With a document that refers to a block
which has no file name, nothing is listed. -/
theorem spare_block_unused :
    spareDisk.Sound ∧ halfDisk.Sound ∧ Path.isAbsolute spareConfig.blocksDir = true ∧
      Path.tidy spareConfig.blocksDir = spareConfig.blocksDir ∧
      (∃ found, runDocuments (fun _ => 100) spareDisk "/" spareConfig = .ok found ∧
        "Spare" ∈ found.unusedBlocks ∧ "Site Footer" ∉ found.unusedBlocks) ∧
      ¬∃ found, runDocuments (fun _ => 100) halfDisk "/" spareConfig = .ok found := by
  have hsound : spareDisk.Sound := by constructor <;> decide +kernel
  have hsoundHalf : halfDisk.Sound := by constructor <;> decide +kernel
  have habsolute : Path.isAbsolute spareConfig.blocksDir = true := by decide +kernel
  have htidy : Path.tidy spareConfig.blocksDir = spareConfig.blocksDir := by decide +kernel
  obtain ⟨hlist, hruns⟩ := unusedBlocks_of_runDocuments (fun _ => 100) spareDisk "/" spareConfig hsound habsolute htidy
  obtain ⟨-, hruns'⟩ := unusedBlocks_of_runDocuments (fun _ => 100) halfDisk "/" spareConfig hsoundHalf habsolute htidy
  obtain ⟨found, hfound⟩ := hruns.2 fun path hpath => not_stopsDocuments_spare hpath
  obtain ⟨-, hiff⟩ := hlist found hfound
  obtain ⟨hhalf, hstops⟩ := stopsDocuments_half
  refine ⟨hsound, hsoundHalf, habsolute, htidy, ⟨found, hfound, ?_, ?_⟩, fun hfound' => hruns'.1 hfound' _ hhalf hstops⟩
  · rw [hiff, ← mem_referredBlocks_iff, referredBlocks_spare]
    refine ⟨⟨"Spare.json", ⟨?_, ?_, ?_, ?_⟩, ?_, ?_, ?_⟩, ?_, ?_⟩ <;> decide +kernel
  · rw [hiff, ← mem_referredBlocks_iff, referredBlocks_spare]
    simp

end Lint

end BlockCheck
