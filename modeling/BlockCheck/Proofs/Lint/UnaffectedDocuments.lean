import BlockCheck.Proofs.Blocks.Surroundings
import BlockCheck.Proofs.Lint.DocumentSessions
import BlockCheck.Proofs.Lint.RenamedProjects
import BlockCheck.Proofs.Lint.UnusedBlocks

/-!
# Documents that a block does not affect

Two projects differ in what one file in the directory of blocks holds. A document comes to the same in both,
whatever the documents before it have come to, unless it is that file, reaches the block in it, or refers to a
component whose props are read from it. It stops both runs or neither.
-/

namespace BlockCheck

/-! ## Entries of a directory -/

namespace Disk

variable {disk disk' : Disk} {base file path place : String}

def entryPlace (base file : String) : String := pathOf (file.toList :: target base)

theorem pathOf_inj {place place' : List (List Char)} (h : ∀ c ∈ place, Path.IsStep c)
    (h' : ∀ c ∈ place', Path.IsStep c) : pathOf place = pathOf place' ↔ place = place' := by
  refine ⟨fun heq => ?_, congrArg pathOf⟩
  have hsteps {place : List (List Char)} (h : ∀ c ∈ place, Path.IsStep c) :
      Path.steps (pathOf place) = place.reverse := by
    rw [pathOf_eq]
    exact Path.steps_ofSteps (Or.inr (Or.inl rfl)) fun c hc => h c (List.mem_reverse.1 hc)
  rw [← List.reverse_inj, ← hsteps h, ← hsteps h', heq]

theorem locate_entry (hbase : Path.isAbsolute base = true) (hname : Path.IsName file)
    (h : disk.locate (Path.normalize (Path.append (Path.normalize base) file)) = .ok place) :
    place = entryPlace base file := by
  have habsolute : Path.isAbsolute (Path.append (Path.normalize base) file) = true :=
    Path.isAbsolute_append (Path.isAbsolute_normalize.trans hbase)
  rw [locate_eq_ok h, target_normalize habsolute, target_append_name hname, target_normalize hbase]
  rfl

theorem entryPlace_inj {file' : String} (hname : Path.IsName file) (hname' : Path.IsName file') :
    entryPlace base file = entryPlace base file' ↔ file = file' := by
  have hsteps {file : String} (hname : Path.IsName file) : ∀ c ∈ file.toList :: target base, Path.IsStep c :=
    List.forall_mem_cons.2 ⟨hname.isStep, fun c => isStep_of_mem_target⟩
  unfold entryPlace
  rw [pathOf_inj (hsteps hname) (hsteps hname'), List.cons.injEq, String.toList_inj]
  exact and_iff_left rfl

theorem locate_document_ne (hsound : disk.Sound) (hbase : Path.isAbsolute base = true)
    (hname : Path.IsName file) (hpath : path ∈ Discovery.documents disk base)
    (hother : path ≠ Path.below base file)
    (h : disk.locate (Path.normalize path) = .ok place) : place ≠ entryPlace base file := by
  obtain ⟨hdirectory, way, hway, -, rfl⟩ := Discovery.mem_documents_iff.1 hpath
  obtain ⟨rest, rfl, hrest, hstep, hdots, -⟩ := exists_steps_of_mem_filesBelow hsound hdirectory hway
  rw [locate_eq_ok h, target_normalize (Path.isAbsolute_below hbase), target_below_join hrest hstep hdots,
    entryPlace, ne_eq, pathOf_inj]
  · intro heq
    -- The way goes one step, and that is the name.
    obtain rfl : rest = [file.toList] := by
      have hlength := congrArg List.length heq
      obtain ⟨c, rfl⟩ : ∃ c, rest = [c] := by
        rw [← List.length_eq_one_iff]
        simp only [List.length_append, List.length_reverse, List.length_cons] at hlength
        omega
      simpa using (List.cons.inj heq).1
    exact hother (by simp [Text.join])
  · exact fun c hc => (List.mem_append.1 hc).elim (fun hc => hstep c (List.mem_reverse.1 hc))
      isStep_of_mem_target
  · exact List.forall_mem_cons.2 ⟨hname.isStep, fun c => isStep_of_mem_target⟩

end Disk

namespace Lint

open Document (Reaches Visits)

variable {disk disk' : Disk} {cwd file path : String} {config : Config}

/-- The second disk may hold something else in the file `file` right in the directory of blocks. -/
structure DiffersInBlock (disk disk' : Disk) (config : Config) (file : String) : Prop where
  sound : disk.Sound
  absolute : Path.isAbsolute config.blocksDir = true
  name : Path.IsName file
  places : disk.SamePlaces disk'
  others : ∀ place, place ≠ Disk.entryPlace config.blocksDir file → disk.SameAt disk' place

def DocumentReaches (disk : Disk) (cwd : String) (config : Config) (path name : String) : Prop :=
  let files := disk.toFiles cwd
  ∃ text, files.text (files.key path) = .ok text ∧ Reaches (surroundings files config) [] text name

/-- The document at the path, or a block that it reaches, refers to a component whose props are found by
reading the file `read`. -/
def DocumentConsults (disk : Disk) (cwd : String) (config : Config) (path read : String) : Prop :=
  let files := disk.toFiles cwd
  ∃ text, files.text (files.key path) = .ok text ∧
    ∃ content, Visits (surroundings files config) [] text content ∧
      ∃ r ∈ Document.references (surroundings files config) content, r.kind ≠ .savedBlock ∧
        ∃ source, config.naming.locate config.root files.isFile r.identifier = some source ∧
          Props.Reads files config.root source read

theorem naming_surroundings (files : Files) (config : Config) :
    (surroundings files config).naming = config.naming := rfl

theorem key_surroundings (files : Files) (config : Config) :
    (surroundings files config).key = config.settings.discriminator := rfl

theorem mode_surroundings (files : Files) (config : Config) :
    (surroundings files config).mode = config.mode := rfl

theorem checkComponent_congr {around around' : Surroundings} {r : Scan.Reference}
    (hmode : around'.mode = around.mode) (hlocate : around'.locate = around.locate)
    (hprops : ∀ source, around.locate r.identifier = some source →
      around'.props source = around.props source) (file : String) :
    Document.checkComponent around' file r = Document.checkComponent around file r := by
  unfold Document.checkComponent
  rw [hmode, hlocate]
  cases hfound : around.locate r.identifier with
  | none => rfl
  | some source =>
    dsimp only
    rw [hprops source hfound]

namespace DiffersInBlock

variable (h : DiffersInBlock disk disk' config file)

include h

theorem schemaOfFile_eq {source : String}
    (hreads : ∀ read, Props.Reads (disk.toFiles cwd) config.root source read →
      disk.locate ((disk.toFiles cwd).key read) ≠ .ok (Disk.entryPlace config.blocksDir file)) :
    Props.schemaOfFile (disk'.toFiles cwd) config.root source =
      Props.schemaOfFile (disk.toFiles cwd) config.root source := by
  refine Props.schemaOfFile_congr_files rfl (h.places.isFile_toFiles_eq cwd) h.places.keys fun read hread => ?_
  rw [Disk.toFiles_text, Disk.toFiles_text]
  refine h.places.text_eq fun place hplace => h.others place ?_
  rintro rfl
  exact hreads read hread hplace

theorem read_blocks_eq {name : String} (hname : BlockName.toFileName name ≠ file) :
    (surroundings (disk'.toFiles cwd) config).blocks.read name =
      (surroundings (disk.toFiles cwd) config).blocks.read name := by
  rw [read_blocks h.absolute, read_blocks h.absolute]
  dsimp only
  rw [h.places.isFile_eq, h.places.text_eq fun place hplace => h.others place ?_]
  rwa [Disk.locate_entry h.absolute (BlockName.isName_toFileName name) hplace, ne_eq,
    Disk.entryPlace_inj (BlockName.isName_toFileName name) h.name]

theorem text_eq (hpath : path ∈ Discovery.documents disk config.blocksDir)
    (hother : path ≠ Path.below config.blocksDir file) :
    (disk'.toFiles cwd).text ((disk'.toFiles cwd).key path) =
      (disk.toFiles cwd).text ((disk.toFiles cwd).key path) := by
  have habsolute := Discovery.isAbsolute_of_mem_documents h.absolute hpath
  rw [Disk.text_toFiles disk cwd habsolute, Disk.text_toFiles disk' cwd habsolute]
  refine h.places.text_eq fun place hplace => h.others place ?_
  exact Disk.locate_document_ne h.sound h.absolute h.name hpath hother hplace

section Apart

variable (hreach : ∀ name, DocumentReaches disk cwd config path name → BlockName.toFileName name ≠ file)
  (hconsults : ∀ read, DocumentConsults disk cwd config path read →
    disk.locate ((disk.toFiles cwd).key read) ≠ .ok (Disk.entryPlace config.blocksDir file))

include hreach hconsults

theorem agree {text : String} (htext : (disk.toFiles cwd).text ((disk.toFiles cwd).key path) = .ok text)
    (name : String) :
    Document.Agree (surroundings (disk.toFiles cwd) config) (surroundings (disk'.toFiles cwd) config) name
      [] [] text where
  naming := (naming_surroundings _ _).trans (naming_surroundings _ _).symm
  key := (key_surroundings _ _).trans (key_surroundings _ _).symm
  inProgress _ _ := Iff.rfl
  blocks block hblock := h.read_blocks_eq (hreach block ⟨text, htext, hblock⟩)
  components content hcontent r hr hkind := by
    have hmode : (surroundings (disk'.toFiles cwd) config).mode =
        (surroundings (disk.toFiles cwd) config).mode :=
      (mode_surroundings _ _).trans (mode_surroundings _ _).symm
    have hlocate : (surroundings (disk'.toFiles cwd) config).locate =
        (surroundings (disk.toFiles cwd) config).locate := by
      rw [locate_surroundings, locate_surroundings, h.places.isFile_toFiles_eq cwd]
    refine checkComponent_congr hmode hlocate (fun source hsource => ?_) _
    rw [props_surroundings, props_surroundings]
    rw [locate_surroundings] at hsource
    refine h.schemaOfFile_eq fun read hread => ?_
    exact hconsults read ⟨text, htext, content, hcontent, r, hr, hkind, source, hsource, hread⟩

variable (hpath : path ∈ Discovery.documents disk config.blocksDir)
  (hother : path ≠ Path.below config.blocksDir file)

include hpath hother

theorem documentAt_eq :
    documentAt (disk'.toFiles cwd) config path = documentAt (disk.toFiles cwd) config path := by
  unfold documentAt
  rw [h.text_eq hpath hother]
  cases htext : (disk.toFiles cwd).text ((disk.toFiles cwd).key path) with
  | error fault => rfl
  | ok text => exact Document.check_congr (h.agree hreach hconsults htext _)

theorem stopsDocuments_iff (room : Nat → Nat) :
    StopsDocuments room disk' cwd config path ↔ StopsDocuments room disk cwd config path := by
  unfold StopsDocuments
  dsimp only
  rw [h.text_eq hpath hother]
  refine exists_congr fun text => and_congr_right fun htext => ?_
  exact Document.escapes_congr (h.agree hreach hconsults htext "")

end Apart

end DiffersInBlock

/-- A run says of a project what comes of its documents one after the other, if none of them stops it. If two
projects differ in one file in the directory of blocks, then another document comes to the same in both runs,
unless it reaches the block in the file, or what is read for the props of the components that are checked for it
leads there. -/
theorem outcomes_eq_of_not_reached (room : Nat → Nat) (disk disk' : Disk) (cwd : String) (config : Config)
    (file : String) (h : DiffersInBlock disk disk' config file) :
    (∀ d ∈ [disk, disk'],
      ((∃ lint, runDocuments room d cwd config = .ok lint) ↔
        ∀ path ∈ Discovery.documents d config.blocksDir, ¬StopsDocuments room d cwd config path) ∧
      ∀ lint, runDocuments room d cwd config = .ok lint →
        lint.reports = (outcomes d cwd config).flatMap (·.reports) ∧
          lint.unresolved = (outcomes d cwd config).flatMap (·.unresolved)) ∧
    ∀ (n : Nat) (path : String), (Discovery.documents disk config.blocksDir)[n]? = some path →
      path ≠ Path.below config.blocksDir file →
      (∀ name, DocumentReaches disk cwd config path name → BlockName.toFileName name ≠ file) →
      (∀ read, DocumentConsults disk cwd config path read →
        disk.locate ((disk.toFiles cwd).key read) ≠ .ok (Disk.entryPlace config.blocksDir file)) →
      (StopsDocuments room disk' cwd config path ↔ StopsDocuments room disk cwd config path) ∧
      ∃ outcome : Outcome, (outcomes disk cwd config)[n]? = some outcome ∧
        (outcomes disk' cwd config)[n]? = some outcome := by
  refine ⟨fun d _ => ⟨exists_runDocuments_eq_ok_iff, fun lint hlint => ?_⟩, ?_⟩
  · obtain rfl := runDocuments_eq_ok hlint
    exact documents_eq_outcomes d cwd config
  intro n path hn hother hreach hconsults
  have hpath := List.mem_of_getElem? hn
  refine ⟨h.stopsDocuments_iff hreach hconsults hpath hother room, ?_⟩
  refine ⟨documentAt (disk.toFiles cwd) config path, ?_, ?_⟩
  · rw [outcomes_eq, List.getElem?_map, hn, Option.map_some]
  · rw [outcomes_eq, h.places.documents_eq, List.getElem?_map, hn, Option.map_some,
      h.documentAt_eq hreach hconsults hpath hother]

/-! ## A component among the blocks -/

def emptyText : String := "\x7b\x7d"

def propsText : String := "interface Props\x7bt:string\x7d"

def cardUse : String := "\x7b\"__resolveType\":\"site/b/c.json\",\"t\":1\x7d"

def pageText : String := "\x7b\"__resolveType\":\"site/s.json\",\"f\":\x7b\"__resolveType\":\"e\"\x7d\x7d"

def cardDisk (card : String) : Disk where
  files := [("/p/b/c.json", card.toUTF8.toList), ("/p/b/e.json", emptyText.toUTF8.toList),
    ("/p/b/h.json", cardUse.toUTF8.toList), ("/p/b/p.json", pageText.toUTF8.toList),
    ("/p/s.json", propsText.toUTF8.toList)]
  directories := ["/", "/p", "/p/b"]

def cardConfig : Config := ⟨"/p", "/p/b", { sourceExtensions := [".json"] }⟩

theorem differs_card : DiffersInBlock (cardDisk emptyText) (cardDisk propsText) cardConfig "c.json" where
  sound := by constructor <;> decide
  absolute := by decide
  name := by constructor <;> decide
  places := ⟨rfl, rfl⟩
  others place hplace := by
    have hentry : Disk.entryPlace cardConfig.blocksDir "c.json" = "/p/b/c.json" := by decide
    rw [hentry] at hplace
    have hother : (place == "/p/b/c.json") = false := by simpa using hplace
    exact ⟨by simp only [cardDisk, List.lookup_cons, hother], .rfl⟩

theorem documents_card (card : String) : Discovery.documents (cardDisk card) cardConfig.blocksDir =
    ["/p/b/c.json", "/p/b/e.json", "/p/b/h.json", "/p/b/p.json"] := by
  have hfound : Discovery.unsortedDocuments (cardDisk "") cardConfig.blocksDir =
      ["/p/b/c.json", "/p/b/e.json", "/p/b/h.json", "/p/b/p.json"] := by decide
  -- What the card holds plays no part in it.
  have hcard : Discovery.unsortedDocuments (cardDisk card) cardConfig.blocksDir =
      Discovery.unsortedDocuments (cardDisk "") cardConfig.blocksDir := rfl
  rw [Discovery.documents_eq_of_pairwise (hcard ▸ hfound ▸ by decide), hcard, hfound]

theorem not_stopsDocuments_card : ∀ card ∈ [emptyText, propsText],
    ∀ path ∈ Discovery.documents (cardDisk card) cardConfig.blocksDir,
      ¬StopsDocuments (fun _ => 100) (cardDisk card) "/" cardConfig path := by
  have hnames : ∀ card ∈ [emptyText, propsText], ∀ name ∈ referredBlocks (cardDisk card) "/" cardConfig,
      Text.Surrogate.isUnencodable name = false := by decide +kernel
  have hroom : ∀ card ∈ [emptyText, propsText],
      ∀ path ∈ ["/p/b/c.json", "/p/b/e.json", "/p/b/h.json", "/p/b/p.json"],
        ¬StopsComponents 100 (cardDisk card) "/" path := by decide +kernel
  intro card hcard path hpath
  refine not_stopsDocuments (by decide) (fun _ => ?_) (hnames card hcard) hpath
  rw [documents_card]
  exact hroom card hcard

theorem texts_page :
    ((cardDisk emptyText).toFiles "/").text (((cardDisk emptyText).toFiles "/").key "/p/b/p.json") = .ok pageText ∧
    (surroundings ((cardDisk emptyText).toFiles "/") cardConfig).blocks.read "e" = some (.ok emptyText) ∧
    (Document.references (surroundings ((cardDisk emptyText).toFiles "/") cardConfig) emptyText).map
      (·.identifier) = [] := by
  refine ⟨?_, ?_, ?_⟩
  all_goals decide +kernel

theorem eq_of_reaches_page {name : String}
    (h : Reaches (surroundings ((cardDisk emptyText).toFiles "/") cardConfig) [] pageText name) : name = "e" := by
  obtain ⟨-, hread, hempty⟩ := texts_page
  have hblocks : (Document.blockReferences (surroundings ((cardDisk emptyText).toFiles "/") cardConfig)
      pageText).map (·.identifier) = ["e"] := by decide +kernel
  refine Reaches.within (P := (· = "e")) ?_ ?_ h
  · intro first hfirst
    exact List.mem_singleton.1 (hblocks ▸ List.mem_map.2 hfirst)
  · rintro block content rfl hcontent inner ⟨r, hr, -⟩
    cases hread.symm.trans hcontent
    rw [Document.blockReferences, List.map_eq_nil_iff.1 hempty] at hr
    cases hr

theorem page_apart :
    (∀ name, DocumentReaches (cardDisk emptyText) "/" cardConfig "/p/b/p.json" name → name = "e") ∧
    ∀ read, DocumentConsults (cardDisk emptyText) "/" cardConfig "/p/b/p.json" read →
      read = "/p/deno.json" ∨ read = "/p/s.json" := by
  obtain ⟨hpage, hread, hempty⟩ := texts_page
  refine ⟨?_, ?_⟩
  · rintro name ⟨text, htext, hname⟩
    cases hpage.symm.trans htext
    exact eq_of_reaches_page hname
  rintro read ⟨text, htext, content, hcontent, r, hr, hkind, source, hsource, hconsults⟩
  cases hpage.symm.trans htext
  -- The block refers to nothing, so the component is the page's.
  obtain rfl : content = pageText := by
    rcases hcontent with rfl | ⟨name, hname, -, hcontent⟩
    · rfl
    · cases eq_of_reaches_page hname
      cases hread.symm.trans hcontent
      rw [List.map_eq_nil_iff.1 hempty] at hr
      cases hr
  have hlocate : ∀ r ∈ Document.references (surroundings ((cardDisk emptyText).toFiles "/") cardConfig) pageText,
      r.kind ≠ .savedBlock → cardConfig.naming.locate cardConfig.root ((cardDisk emptyText).toFiles "/").isFile
        r.identifier = some "/p/s.json" := by decide +kernel
  cases (hlocate r hr hkind).symm.trans hsource
  have haliases : Props.aliasFile cardConfig.root = "/p/deno.json" := by decide +kernel
  have hnormal : Path.normalize "/p/s.json" = "/p/s.json" := by decide +kernel
  have hmissing : ((cardDisk emptyText).toFiles "/").text (((cardDisk emptyText).toFiles "/").key
      (Props.aliasFile cardConfig.root)) = .error (.noEntry "/p/deno.json") := by decide +kernel
  have hprops : ((cardDisk emptyText).toFiles "/").text (((cardDisk emptyText).toFiles "/").key
      (Path.normalize "/p/s.json")) = .ok propsText := by decide +kernel
  have hends := hconsults.eq_of_no_reexport hmissing hprops (by decide +kernel)
  rwa [haliases, hnormal] at hends

theorem outcomes_page_eq :
    DiffersInBlock (cardDisk emptyText) (cardDisk propsText) cardConfig "c.json" ∧
      (∃ lint, runDocuments (fun _ => 100) (cardDisk emptyText) "/" cardConfig = .ok lint) ∧
      (∃ lint, runDocuments (fun _ => 100) (cardDisk propsText) "/" cardConfig = .ok lint) ∧
      ∃ outcome : Outcome, (outcomes (cardDisk emptyText) "/" cardConfig)[3]? = some outcome ∧
        (outcomes (cardDisk propsText) "/" cardConfig)[3]? = some outcome := by
  obtain ⟨hruns, hsame⟩ := outcomes_eq_of_not_reached (fun _ => 100) (cardDisk emptyText) (cardDisk propsText) "/"
    cardConfig "c.json" differs_card
  obtain ⟨hreach, hconsults⟩ := page_apart
  refine ⟨differs_card, (hruns _ (by simp)).1.2 (not_stopsDocuments_card _ (by simp)),
    (hruns _ (by simp)).1.2 (not_stopsDocuments_card _ (by simp)), ?_⟩
  refine (hsame 3 "/p/b/p.json" ?_ (by decide +kernel) ?_ ?_).2
  · rw [documents_card]
    rfl
  · intro name hname
    rw [hreach name hname]
    decide +kernel
  · have hapart : ∀ read ∈ ["/p/deno.json", "/p/s.json"],
        (cardDisk emptyText).locate (((cardDisk emptyText).toFiles "/").key read) ≠
          .ok (Disk.entryPlace cardConfig.blocksDir "c.json") := by decide +kernel
    intro read hread
    exact hapart read (by simpa using hconsults read hread)

/-- A document that reaches no block depends on the bytes of the card, as it is checked against the props in
them. -/
theorem outcomes_card_differ :
    DiffersInBlock (cardDisk emptyText) (cardDisk propsText) cardConfig "c.json" ∧
    (∀ disk ∈ [cardDisk emptyText, cardDisk propsText],
      ∃ lint, runDocuments (fun _ => 100) disk "/" cardConfig = .ok lint) ∧
    Path.below cardConfig.blocksDir "c.json" ≠ Props.aliasFile cardConfig.root ∧
    (∀ disk ∈ [cardDisk emptyText, cardDisk propsText], ∀ path ∈ ["/p/b/c.json", "/p/s.json"],
      (disk.text path).toOption.bind (fun text => (Props.outlineOf path text).reexportedDefault?) = none) ∧
    (Discovery.documents (cardDisk emptyText) cardConfig.blocksDir)[2]? = some "/p/b/h.json" ∧
    "/p/b/h.json" ≠ Path.below cardConfig.blocksDir "c.json" ∧
    (∀ name, ¬DocumentReaches (cardDisk emptyText) "/" cardConfig "/p/b/h.json" name) ∧
    (outcomes (cardDisk emptyText) "/" cardConfig)[2]?.map (fun o => o.reports.flatMap (·.issues)) =
      some [⟨"", .propsNotFound⟩] ∧
    (outcomes (cardDisk propsText) "/" cardConfig)[2]?.map (fun o => o.reports.flatMap (·.issues)) =
      some [⟨"t", .mismatch "string" .number⟩] := by
  have hread : ∀ card ∈ [emptyText, propsText], ((cardDisk card).toFiles "/").text
      (((cardDisk card).toFiles "/").key "/p/b/h.json") = .ok cardUse := by decide +kernel
  have hkinds : ∀ card ∈ [emptyText, propsText], ∀ r ∈ Document.references
      (surroundings ((cardDisk card).toFiles "/") cardConfig) cardUse, r.kind ≠ .savedBlock := by
    decide +kernel
  have hparse : (Json.parse cardUse).toOption.isSome = true := by decide +kernel
  have houtcome : ∀ card ∈ [emptyText, propsText], (outcomes (cardDisk card) "/" cardConfig)[2]? =
      some (.concat ((Document.references (surroundings ((cardDisk card).toFiles "/") cardConfig) cardUse).map
        (Document.checkComponent (surroundings ((cardDisk card).toFiles "/") cardConfig)
          (Path.within cardConfig.blocksDir "/p/b/h.json")))) := by
    intro card hcard
    rw [outcomes_eq, documents_card, List.getElem?_map]
    refine congrArg some ?_
    unfold documentAt
    rw [hread card hcard]
    exact Document.check_eq_components hparse (hkinds card hcard)
  have hruns : ∀ card ∈ [emptyText, propsText],
      ∃ lint, runDocuments (fun _ => 100) (cardDisk card) "/" cardConfig = .ok lint := by
    exact fun card hcard => exists_runDocuments_eq_ok_iff.2 (not_stopsDocuments_card card hcard)
  refine ⟨differs_card, ?_, by decide +kernel, by decide +kernel, ?_, by decide +kernel, ?_, ?_, ?_⟩
  · simpa using hruns
  · rw [documents_card]
    rfl
  · rintro name ⟨text, htext, first, ⟨r, hr, -⟩, -⟩
    cases (hread emptyText (by simp)).symm.trans htext
    obtain ⟨hr, hkind⟩ := List.mem_filter.1 hr
    exact hkinds emptyText (by simp) r hr (by simpa using hkind)
  · rw [houtcome emptyText (by simp)]
    decide +kernel
  · rw [houtcome propsText (by simp)]
    decide +kernel

end Lint

end BlockCheck
