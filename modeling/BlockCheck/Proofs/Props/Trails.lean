import BlockCheck.Document
import BlockCheck.Proofs.Props.Chains
import Mathlib.Logic.Relation

/-!
# The files along a chain

A file that passes on the default of another one has the props of the other one, and so on to the end of the
chain. The chain comes to an end: each file on it is read once, in order, and it stops at the first file that
cannot be read, that has its own default, or that leads back to a file on the chain. Only in the second case
can there be props. Names that are relative to a directory of a disk can grow from file to file, and then nothing
leads back.
-/

namespace BlockCheck.Props

/-! ## Reading along a chain -/

/-- Follows a chain like `follow`, by any way of reading a text and of finding what a specifier names. -/
def followWith {m : Type → Type} [Monad m] (read : String → m (Except ReadFault String))
    (resolve : String → String → m String) : Nat → List String → String → m (Option Schema)
  | 0, _, _ => return none
  | fuel + 1, chain, path => do
    if chain.contains path then return none
    match ← read path with
    | .error _ => return none
    | .ok text =>
      match (outlineOf path text).reexportedDefault? with
      | some specifier => followWith read resolve fuel (path :: chain) (← resolve specifier path)
      | none => return schemaOf? (outlineOf path text)

theorem follow_eq_followWith (fuel : Nat) (chain : List String) (path : String) :
    follow fuel chain path = followWith readText resolveImport fuel chain path := by
  induction fuel generalizing chain path with
  | zero => rfl
  | succ fuel ih =>
    unfold follow
    simp only [ih]
    rfl

namespace Start

variable (start : Start)

def readNoted (path : String) : StateM (List String) (Except ReadFault String) := do
  modify (· ++ [start.files.key path])
  return start.files.text (start.files.key path)

def followNoted : Nat → List String → String → StateM (List String) (Option Schema) :=
  followWith start.readNoted fun specifier file => return start.importedFile specifier file

def outline? (path : String) : Option Source.Outline :=
  (start.files.text (start.files.key path)).toOption.map (outlineOf path)

def passedOn? (path : String) : Option String :=
  ((start.outline? path).bind (·.reexportedDefault?)).map (start.importedFile · path)

/-- The props of the source at a path, unless it passes on another default. -/
def ownProps? (path : String) : Option Schema :=
  (start.outline? path).bind fun outline =>
    if outline.reexportedDefault?.isSome then none else schemaOf? outline

/-- The files along the chain from a path on, which has come through `before`. -/
inductive Trail : List String → String → List String → Prop
  /-- Nothing is passed on. -/
  | ends {before : List String} {path : String} : path ∉ before → start.passedOn? path = none →
      Trail before path [path]
  | closes {before : List String} {path next : String} : path ∉ before →
      start.passedOn? path = some next → next ∈ path :: before → Trail before path [path]
  | goesOn {before files : List String} {path next : String} : path ∉ before →
      start.passedOn? path = some next → Trail (path :: before) next files →
      Trail before path (path :: files)

def propsAtEnd (files : List String) : Option Schema := files.getLast?.bind start.ownProps?

def Leads : String → String → Prop := Relation.ReflTransGen fun file next => start.passedOn? file = some next

variable {start : Start} {before files : List String} {path next last : String}

theorem outline?_of_text {text : String} (h : start.files.text (start.files.key path) = .ok text) :
    start.outline? path = some (outlineOf path text) := by
  rw [outline?, h]
  rfl

/-! ## What a trail says -/

theorem ownProps?_of_passedOn? (h : start.passedOn? path = some next) : start.ownProps? path = none := by
  obtain ⟨specifier, hspecifier, -⟩ := Option.map_eq_some_iff.1 h
  obtain ⟨outline, houtline, hreexport⟩ := Option.bind_eq_some_iff.1 hspecifier
  rw [ownProps?, houtline, Option.bind_some, if_pos (by simp [hreexport])]

namespace Trail

theorem mem_head (h : start.Trail before path files) : path ∈ files := by
  cases h with
  | ends => exact List.mem_cons_self
  | closes => exact List.mem_cons_self
  | goesOn => exact List.mem_cons_self

theorem ne_nil (h : start.Trail before path files) : files ≠ [] := List.ne_nil_of_mem h.mem_head

theorem not_mem_before (h : start.Trail before path files) : ∀ file ∈ files, file ∉ before := by
  induction h with
  | ends hnew => simpa using hnew
  | closes hnew => simpa using hnew
  | goesOn hnew _ _ ih =>
    refine List.forall_mem_cons.2 ⟨hnew, fun file hfile => ?_⟩
    exact List.not_mem_of_not_mem_cons (ih file hfile)

theorem nodup (h : start.Trail before path files) : files.Nodup := by
  induction h with
  | ends => exact List.pairwise_singleton _ _
  | closes => exact List.pairwise_singleton _ _
  | goesOn _ _ hrest ih =>
    refine List.nodup_cons.2 ⟨fun hmem => ?_, ih⟩
    exact hrest.not_mem_before _ hmem List.mem_cons_self

theorem leads (h : start.Trail before path files) : ∀ file ∈ files, start.Leads path file := by
  induction h with
  | ends => exact List.forall_mem_singleton.2 .refl
  | closes => exact List.forall_mem_singleton.2 .refl
  | goesOn _ hnext _ ih =>
    exact List.forall_mem_cons.2 ⟨.refl, fun file hfile => .head hnext (ih file hfile)⟩

theorem unique {files' : List String} (h : start.Trail before path files)
    (h' : start.Trail before path files') : files' = files := by
  -- A file and those before it decide whether the chain ends, closes or goes on.
  induction h generalizing files' with
  | ends _ hends =>
    cases h' with
    | ends => rfl
    | closes _ hpassed => cases hpassed.symm.trans hends
    | goesOn _ hpassed => cases hpassed.symm.trans hends
  | closes _ hpassed hback =>
    cases h' with
    | ends _ hends => cases hpassed.symm.trans hends
    | closes => rfl
    | goesOn _ hpassed' hrest =>
      obtain rfl := Option.some.inj (hpassed'.symm.trans hpassed)
      exact absurd hback (hrest.not_mem_before _ hrest.mem_head)
  | goesOn _ hpassed hrest ih =>
    cases h' with
    | ends _ hends => cases hpassed.symm.trans hends
    | closes _ hpassed' hback =>
      obtain rfl := Option.some.inj (hpassed'.symm.trans hpassed)
      exact absurd hback (hrest.not_mem_before _ hrest.mem_head)
    | goesOn _ hpassed' hrest' =>
      obtain rfl := Option.some.inj (hpassed'.symm.trans hpassed)
      rw [ih hrest']

theorem mem_of_passedOn? (h : start.Trail before path files) {file : String} (hfile : file ∈ files)
    (hnext : start.passedOn? file = some next) : next ∈ before ++ files := by
  induction h with
  | ends _ hends =>
    rw [List.mem_singleton.1 hfile] at hnext
    cases hends.symm.trans hnext
  | closes _ hpassed hback =>
    rw [List.mem_singleton.1 hfile] at hnext
    obtain rfl := Option.some.inj (hnext.symm.trans hpassed)
    exact List.perm_append_singleton _ _ |>.mem_iff.2 hback
  | goesOn _ hpassed hrest ih =>
    rcases List.mem_cons.1 hfile with rfl | hfile
    · obtain rfl := Option.some.inj (hnext.symm.trans hpassed)
      exact List.mem_append_right _ (List.mem_cons_of_mem _ hrest.mem_head)
    · exact List.perm_middle.mem_iff.2 (ih hfile)

theorem getLast?_eq_of_ends (h : start.Trail before path files) {file : String} (hfile : file ∈ files)
    (hends : start.passedOn? file = none) : files.getLast? = some file := by
  induction h with
  | ends => rw [List.mem_singleton.1 hfile, List.getLast?_singleton]
  | closes => rw [List.mem_singleton.1 hfile, List.getLast?_singleton]
  | goesOn _ hpassed hrest ih =>
    rcases List.mem_cons.1 hfile with rfl | hfile
    · cases hpassed.symm.trans hends
    · rw [List.getLast?_cons_of_ne_nil hrest.ne_nil, ih hfile]

end Trail

/-! ## What is read and found -/

theorem match_passedOn? {α : Type} (start : Start) (path : String) (own : Option Schema → α)
    (onward : String → α) :
    (match start.passedOn? path with
      | some next => onward next
      | none => own (start.ownProps? path)) =
    match start.files.text (start.files.key path) with
    | .error _ => own none
    | .ok text =>
      match (outlineOf path text).reexportedDefault? with
      | some specifier => onward (start.importedFile specifier path)
      | none => own (schemaOf? (outlineOf path text)) := by
  unfold passedOn? ownProps? outline?
  cases start.files.text (start.files.key path) with
  | error fault => rfl
  | ok text =>
    simp only [Except.toOption, Option.map_some, Option.bind_some]
    cases (outlineOf path text).reexportedDefault? with
    | none => rfl
    | some specifier => rfl

/-- The file on which the chain closes is not read again. -/
theorem run_followNoted_of_mem (h : path ∈ before) (fuel : Nat) (noted : List String) :
    (start.followNoted fuel before path).run noted = (none, noted) := by
  cases fuel with
  | zero => rfl
  | succ fuel =>
    unfold followNoted followWith
    rw [if_pos (by simpa using h)]
    rfl

theorem run_followNoted_succ (hnew : path ∉ before) (fuel : Nat) (noted : List String) :
    (start.followNoted (fuel + 1) before path).run noted =
      (match start.passedOn? path with
        | some next => start.followNoted fuel (path :: before) next
        | none => pure (start.ownProps? path) : StateM (List String) (Option Schema)).run
          (noted ++ [start.files.key path]) := by
  have hmatch := start.match_passedOn? path (pure : Option Schema → StateM (List String) (Option Schema))
    (start.followNoted fuel (path :: before))
  rw [hmatch, followNoted, followWith, if_neg (by simpa using hnew)]
  rfl

theorem Trail.run_followNoted (h : start.Trail before path files) {fuel : Nat} (hfuel : files.length ≤ fuel)
    (noted : List String) :
    (start.followNoted fuel before path).run noted =
      (start.propsAtEnd files, noted ++ files.map start.files.key) := by
  induction h generalizing fuel noted with
  | ends hnew hends =>
    obtain ⟨fuel, rfl⟩ := Nat.exists_eq_add_of_le' (show 1 ≤ fuel from hfuel)
    rw [run_followNoted_succ hnew, hends]
    rfl
  | closes hnew hpassed hback =>
    obtain ⟨fuel, rfl⟩ := Nat.exists_eq_add_of_le' (show 1 ≤ fuel from hfuel)
    rw [run_followNoted_succ hnew, hpassed]
    dsimp only
    rw [run_followNoted_of_mem hback, propsAtEnd, List.getLast?_singleton, Option.bind_some,
      ownProps?_of_passedOn? hpassed]
    rfl
  | goesOn hnew hpassed hrest ih =>
    obtain ⟨fuel, rfl⟩ := Nat.exists_eq_add_of_le' (Nat.le_trans (Nat.le_add_left 1 _) hfuel)
    rw [run_followNoted_succ hnew, hpassed]
    dsimp only
    rw [ih (Nat.le_of_succ_le_succ hfuel), propsAtEnd, propsAtEnd,
      List.getLast?_cons_of_ne_nil hrest.ne_nil, List.append_assoc]
    rfl

theorem chainSchema_eq_followNoted (fuel : Nat) (before : List String) (path : String) (noted : List String) :
    chainSchema start.files start.importedFile fuel before path =
      ((start.followNoted fuel before path).run noted).1 := by
  induction fuel generalizing before path noted with
  | zero => rfl
  | succ fuel ih =>
    unfold chainSchema
    by_cases hnew : path ∈ before
    · rw [if_pos (by simpa using hnew), run_followNoted_of_mem hnew]
    rw [if_neg (by simpa using hnew), run_followNoted_succ hnew]
    have hmatch := start.match_passedOn? path id
      (chainSchema start.files start.importedFile fuel (path :: before))
    refine Eq.trans hmatch.symm ?_
    cases start.passedOn? path with
    | none => rfl
    | some next => exact ih _ _ _

theorem Trail.propsAtEnd_eq_some_iff (h : start.Trail [] path files) {found : Schema} :
    start.propsAtEnd files = some found ↔
      ∃ last, start.Leads path last ∧ start.ownProps? last = some found := by
  constructor
  · intro hfound
    obtain ⟨last, hlast, hown⟩ := Option.bind_eq_some_iff.1 hfound
    exact ⟨last, h.leads last (List.mem_of_getLast? hlast), hown⟩
  · rintro ⟨last, hleads, hown⟩
    have hmem : last ∈ files := by
      clear hown
      induction hleads with
      | refl => exact h.mem_head
      | tail _ hpassed ih => exact h.mem_of_passedOn? ih hpassed
    have hends : start.passedOn? last = none := by
      cases hpassed : start.passedOn? last with
      | none => rfl
      | some next => cases (ownProps?_of_passedOn? hpassed).symm.trans hown
    rw [propsAtEnd, h.getLast?_eq_of_ends hmem hends, Option.bind_some, hown]

/-- Beginning one file further along the chain, the same props are found, whether or not the chain comes
back to the first file. -/
theorem Trail.propsAtEnd_eq_of_passedOn? {files' : List String} (h : start.Trail [] path files)
    (hpassed : start.passedOn? path = some next) (h' : start.Trail [] next files') :
    start.propsAtEnd files' = start.propsAtEnd files := by
  refine Option.ext fun found => ?_
  rw [h.propsAtEnd_eq_some_iff, h'.propsAtEnd_eq_some_iff]
  refine exists_congr fun last => ⟨fun ⟨hleads, hown⟩ => ⟨.head hpassed hleads, hown⟩, fun ⟨hleads, hown⟩ => ?_⟩
  rcases Relation.ReflTransGen.cases_head hleads with rfl | ⟨other, hother, hrest⟩
  · cases (ownProps?_of_passedOn? hpassed).symm.trans hown
  · obtain rfl := Option.some.inj (hother.symm.trans hpassed)
    exact ⟨hrest, hown⟩

theorem Trail.propsAtEnd_eq_none_iff (h : start.Trail [] path files) :
    start.propsAtEnd files = none ↔ ∃ last ∈ files.getLast?,
      (∃ fault, start.files.text (start.files.key last) = .error fault) ∨
      (∃ next ∈ files, start.passedOn? last = some next) ∨
      ∃ text, start.files.text (start.files.key last) = .ok text ∧
        (outlineOf last text).reexportedDefault? = none ∧ schemaOf? (outlineOf last text) = none := by
  obtain ⟨last, hlast⟩ := Option.ne_none_iff_exists'.1 (mt List.getLast?_eq_none_iff.1 h.ne_nil)
  have hmem : last ∈ files := List.mem_of_getLast? hlast
  rw [propsAtEnd, hlast, Option.bind_some]
  simp only [Option.mem_some_iff, exists_eq_left']
  cases htext : start.files.text (start.files.key last) with
  | error fault => simp [ownProps?, outline?, htext, Except.toOption]
  | ok text =>
    have houtline := outline?_of_text htext
    cases hreexport : (outlineOf last text).reexportedDefault? with
    | none => simp [ownProps?, passedOn?, houtline, hreexport]
    | some specifier =>
      have hpassed : start.passedOn? last = some (start.importedFile specifier last) := by
        simp [passedOn?, houtline, hreexport]
      have hback := h.mem_of_passedOn? hmem hpassed
      simp only [ownProps?_of_passedOn? hpassed, hpassed, true_iff]
      exact Or.inr (Or.inl ⟨_, hback, rfl⟩)

/-! ## Chains come to an end -/

def unvisited (names chain : List String) : List String := names.filter fun name => !chain.contains name

theorem length_unvisited_lt {names chain : List String} {name : String} (hname : name ∈ names)
    (hnew : name ∉ chain) : (unvisited names (name :: chain)).length < (unvisited names chain).length := by
  refine Document.length_filter_lt (fun other hother => ?_) hname (by simp) (by simpa using hnew)
  simp only [List.contains_cons, Bool.not_or, Bool.and_eq_true] at hother
  exact hother.2

/-- Names that a chain may come to: they lead to each other, few of them can be read, and each is the name
under which its file is known. -/
structure Visits (start : Start) (CanVisit : String → Prop) (names : List String) : Prop where
  few : names.length ≤ 2 * start.files.paths.length
  readable : ∀ file text, CanVisit file → start.files.text (start.files.key file) = .ok text → file ∈ names
  onward : ∀ file specifier, CanVisit file → CanVisit (start.importedFile specifier file)
  normal : ∀ file, CanVisit file → Path.normalize file = file
  key : ∀ file, CanVisit file → start.files.key file = file

namespace Visits

variable {CanVisit : String → Prop} {names : List String}

theorem passedOn? (h : start.Visits CanVisit names) (hpath : CanVisit path)
    (hpassed : start.passedOn? path = some next) : path ∈ names ∧ CanVisit next := by
  obtain ⟨specifier, hspecifier, rfl⟩ := Option.map_eq_some_iff.1 hpassed
  obtain ⟨outline, houtline, -⟩ := Option.bind_eq_some_iff.1 hspecifier
  refine ⟨?_, h.onward path specifier hpath⟩
  unfold outline? at houtline
  cases htext : start.files.text (start.files.key path) with
  | error fault => simp [htext, Except.toOption] at houtline
  | ok text => exact h.readable path text hpath htext

theorem exists_trail (h : start.Visits CanVisit names) (hpath : CanVisit path) (hnew : path ∉ before) :
    ∃ files, start.Trail before path files ∧ files.length ≤ (unvisited names before).length + 1 ∧
      ∀ file ∈ files, CanVisit file := by
  -- Each file that passes on a default is one that has not been visited yet.
  induction hleft : (unvisited names before).length using Nat.strong_induction_on
    generalizing before path with
  | _ left ih =>
    cases hpassed : start.passedOn? path with
    | none => exact ⟨[path], .ends hnew hpassed, Nat.le_add_left _ _, List.forall_mem_singleton.2 hpath⟩
    | some next =>
      obtain ⟨hname, hnext⟩ := h.passedOn? hpath hpassed
      by_cases hback : next ∈ path :: before
      · exact ⟨[path], .closes hnew hpassed hback, Nat.le_add_left _ _, List.forall_mem_singleton.2 hpath⟩
      have hlt := length_unvisited_lt hname hnew
      obtain ⟨files, hfiles, hlength, hvisited⟩ := ih _ (hleft ▸ hlt) hnext hback rfl
      refine ⟨path :: files, .goesOn hnew hpassed hfiles, ?_, List.forall_mem_cons.2 ⟨hpath, hvisited⟩⟩
      rw [List.length_cons]
      omega

end Visits

/-- The files of a project in memory, or of one on a disk that is named from the root of the disk on. -/
inductive Finite : Start → String → Prop
  | texts (given : Texts) (root : Option String) (table : Option ImportMap) (path : String) :
      Finite ⟨.ofTexts given, root, table⟩ path
  | disk (disk : Disk) (cwd : String) (root : Option String) (table : Option ImportMap) (path : String) :
      (∀ base ∈ root, Path.isAbsolute base = true) → Path.isAbsolute path = true →
      Finite ⟨disk.toFiles cwd, root, table⟩ path

theorem Finite.exists_visits (h : start.Finite path) :
    ∃ CanVisit names, start.Visits CanVisit names ∧ CanVisit (Path.normalize path) := by
  cases h with
  | texts given root table =>
    refine ⟨fun file => Path.normalize file = file, Record.keys given, ⟨?_, ?_, ?_, ?_, ?_⟩,
      Path.normalize_idem path⟩
    · exact Nat.le_mul_of_pos_left _ (by decide)
    · intro file text hfile htext
      have hknown : (given.lookup file).isSome = true := by
        unfold Files.ofTexts at htext
        dsimp only at htext
        rw [hfile, hfile] at htext
        split at htext
        · simp [*]
        · cases htext
      exact Record.isSome_lookup_iff.1 hknown
    · exact fun file specifier _ => normalize_probe _ _
    · exact fun file hfile => hfile
    · exact fun file hfile => hfile
  | disk disk cwd root table _ hroot hpath =>
    refine ⟨Path.IsNormal, fileNames disk, ⟨?_, ?_, ?_, ?_, ?_⟩, Path.isNormal_normalize hpath⟩
    · simp [fileNames, Disk.toFiles, Nat.two_mul]
    · intro file text hfile htext
      rw [text_of_isNormal hfile] at htext
      exact mem_fileNames_of_text hfile htext
    · exact fun file specifier hfile => Start.isNormal_importedFile hroot hfile.absolute specifier
    · exact fun file hfile => hfile.normal
    · exact fun file hfile => key_of_isNormal hfile

theorem Finite.onward (h : start.Finite path) (hpassed : start.passedOn? (Path.normalize path) = some next) :
    start.Finite next := by
  obtain ⟨specifier, -, rfl⟩ := Option.map_eq_some_iff.1 hpassed
  cases h with
  | texts given root table => exact .texts given root table _
  | disk disk cwd root table _ hroot hpath =>
    refine .disk disk cwd root table _ hroot ?_
    exact (Start.isNormal_importedFile hroot (Path.isAbsolute_normalize.trans hpath) specifier).absolute

/-! ## Along the way -/

theorem importedFile_normalize {name : String} (hname : Path.IsName name) (h : Path.LeadsTo path name)
    (specifier : String) :
    start.importedFile specifier (Path.normalize path) = start.importedFile specifier path := by
  have hhere := Path.normalize_append_parent hname h specifier
  have hbase : ∀ root table,
      Path.normalize (basePath root table specifier (Path.parent (Path.normalize path))) =
        Path.normalize (basePath root table specifier (Path.parent path)) := by
    intro root table
    unfold basePath
    dsimp only
    split
    · exact hhere
    split
    · split
      · rfl
      · exact hhere
    · exact hhere
  unfold importedFile probe
  dsimp only
  rw [hbase]

theorem Finite.exists_trail (h : start.Finite path) :
    ∃ files, start.Trail [] (Path.normalize path) files ∧ files.map start.files.key = files ∧
      files.length ≤ enoughFuel start.files ∧ start.schemaAt path = start.propsAtEnd files := by
  obtain ⟨CanVisit, names, hvisits, hpath⟩ := h.exists_visits
  obtain ⟨files, htrail, hlength, hvisited⟩ := hvisits.exists_trail hpath List.not_mem_nil
  have henough : files.length ≤ enoughFuel start.files := by
    have hunvisited : (unvisited names []).length ≤ names.length := List.length_filter_le _ _
    have hfew := hvisits.few
    unfold enoughFuel
    omega
  refine ⟨files, htrail, ?_, henough, ?_⟩
  · rw [List.map_congr_left fun file hfile => hvisits.key file (hvisited file hfile), List.map_id']
  · rw [schemaAt, chainSchema_eq_followNoted _ _ _ [], htrail.run_followNoted henough]

theorem Finite.chainSchema_of_le (h : start.Finite path) {fuel : Nat} (hfuel : enoughFuel start.files ≤ fuel) :
    chainSchema start.files start.importedFile fuel [] (Path.normalize path) = start.schemaAt path := by
  obtain ⟨files, htrail, -, henough, hschema⟩ := h.exists_trail
  rw [chainSchema_eq_followNoted _ _ _ [], htrail.run_followNoted (henough.trans hfuel), hschema]

theorem Finite.schemaAt_importedFile {outline : Source.Outline} {specifier : String} (h : start.Finite path)
    (houtline : start.outline? (Path.normalize path) = some outline)
    (hreexport : outline.reexportedDefault? = some specifier)
    (hwritten : Path.normalize path = path ∨ ∃ name, Path.IsName name ∧ Path.LeadsTo path name) :
    start.schemaAt (start.importedFile specifier path) = start.schemaAt path := by
  have hnamed : start.importedFile specifier (Path.normalize path) = start.importedFile specifier path := by
    rcases hwritten with heq | ⟨name, hname, hleads⟩
    · rw [heq]
    · exact importedFile_normalize hname hleads specifier
  have hpassed : start.passedOn? (Path.normalize path) = some (start.importedFile specifier path) := by
    rw [passedOn?, houtline, Option.bind_some, hreexport, Option.map_some, hnamed]
  have hnormal : Path.normalize (start.importedFile specifier path) = start.importedFile specifier path :=
    normalize_probe _ _
  obtain ⟨files, htrail, -, -, hschema⟩ := h.exists_trail
  obtain ⟨files', htrail', -, -, hschema'⟩ := (h.onward hpassed).exists_trail
  rw [hnormal] at htrail'
  rw [hschema, hschema', htrail.propsAtEnd_eq_of_passedOn? hpassed htrail']

end Start

theorem schemaOfFile_eq_of_le {disk : Disk} {cwd root path : String} {fuel : Nat}
    (hroot : Path.isAbsolute root = true) (hpath : Path.isAbsolute path = true)
    (h : enoughFuel (disk.toFiles cwd) ≤ fuel) :
    schemaOfFile (disk.toFiles cwd) root path =
      chainSchema (disk.toFiles cwd) (importedFile (disk.toFiles cwd) root) fuel [] (Path.normalize path) := by
  have hfinite : (Start.ofProject (disk.toFiles cwd) root).Finite path :=
    .disk disk cwd (some root) none path (by simpa using hroot) hpath
  rw [schemaOfFile_eq, ← Start.importedFile_ofProject]
  exact (hfinite.chainSchema_of_le h).symm

variable {start : Start} {path : String}

theorem gives_extract_imported {outline : Source.Outline} {specifier : String} (h : start.Finite path)
    (houtline : start.outline? (Path.normalize path) = some outline)
    (hreexport : outline.reexportedDefault? = some specifier)
    (hwritten : Path.normalize path = path ∨ ∃ name, Path.IsName name ∧ Path.LeadsTo path name) :
    Gives start (resolveImport specifier path >>= extract) (start.schemaAt path) := by
  rw [← h.schemaAt_importedFile houtline hreexport hwritten]
  exact .bind (gives_resolveImport specifier path) (gives_extract _)

/-- Noting down what is read does not change how a chain is followed. From every path there is one chain, and
it is never too long to be followed to its end. However many files it may come to at most, it reads the same
ones, none of them twice, and finds the same props. They are the props of the file that the first one passes on
the default of, and there are none if and only if the last file cannot be read, leads back into the chain, or
has none. -/
theorem extract_along_trail (h : start.Finite path) :
    (∀ fuel chain file, follow fuel chain file = followWith readText resolveImport fuel chain file) ∧
    ∃ files, (∀ other, start.Trail [] (Path.normalize path) other ↔ other = files) ∧
      (files.map start.files.key).Nodup ∧ files.length ≤ enoughFuel start.files ∧
      (∀ fuel noted, files.length ≤ fuel →
        (start.followNoted fuel [] (Path.normalize path)).run noted =
            (start.propsAtEnd files, noted ++ files.map start.files.key) ∧
          Gives start (follow fuel [] (Path.normalize path)) (start.propsAtEnd files)) ∧
      Gives start (extract path) (start.propsAtEnd files) ∧
      (∀ outline specifier, start.outline? (Path.normalize path) = some outline →
        outline.reexportedDefault? = some specifier →
        (Path.normalize path = path ∨ ∃ name, Path.IsName name ∧ Path.LeadsTo path name) →
        Gives start (resolveImport specifier path >>= extract) (start.propsAtEnd files)) ∧
      (start.propsAtEnd files = none ↔ ∃ last ∈ files.getLast?,
        (∃ fault, start.files.text (start.files.key last) = .error fault) ∨
        (∃ next ∈ files, start.passedOn? last = some next) ∨
        ∃ text, start.files.text (start.files.key last) = .ok text ∧
          (outlineOf last text).reexportedDefault? = none ∧ schemaOf? (outlineOf last text) = none) := by
  obtain ⟨files, htrail, hkeys, henough, hschema⟩ := h.exists_trail
  refine ⟨follow_eq_followWith, files, fun other => ⟨htrail.unique, fun heq => heq ▸ htrail⟩,
    hkeys.symm ▸ htrail.nodup, henough, fun fuel noted hfuel => ⟨htrail.run_followNoted hfuel noted, ?_⟩,
    hschema ▸ gives_extract path, fun outline specifier houtline hreexport hwritten => ?_,
    htrail.propsAtEnd_eq_none_iff⟩
  · have hfound : Gives start _ _ := gives_follow fuel [] (Path.normalize path)
    rwa [Start.chainSchema_eq_followNoted _ _ _ [], htrail.run_followNoted hfuel] at hfound
  · rw [← hschema]
    exact gives_extract_imported h houtline hreexport hwritten

def passingText : String := "export \x7b default \x7d from './b'"

def loop : Start where
  files := .ofTexts [("a.ts", passingText), ("b.ts", passingText)]
  root := none
  given := none

theorem extract_into_loop :
    loop.Finite "a.ts" ∧ Gives loop (extract "a.ts") none ∧
      Gives loop (resolveImport "./b" "a.ts" >>= extract) none := by
  have hfinite : loop.Finite "a.ts" := .texts _ none none "a.ts"
  have hnormal : Path.normalize "a.ts" = "a.ts" := by decide +kernel
  have htext : loop.files.text (loop.files.key "a.ts") = .ok passingText := by decide +kernel
  have hreexport : (outlineOf "a.ts" passingText).reexportedDefault? = some "./b" := by decide +kernel
  have ha : loop.passedOn? "a.ts" = some "b.ts" := by decide +kernel
  have hb : loop.passedOn? "b.ts" = some "b.ts" := by decide +kernel
  obtain ⟨-, files, htrail, -, -, -, hextract, hpassed, -⟩ := extract_along_trail hfinite
  rw [hnormal] at htrail hpassed
  obtain rfl : ["a.ts", "b.ts"] = files :=
    (htrail _).1 (.goesOn List.not_mem_nil ha (.closes (by simp) hb List.mem_cons_self))
  have hnone : loop.propsAtEnd ["a.ts", "b.ts"] = none := by
    have hlast : ["a.ts", "b.ts"].getLast? = some "b.ts" := rfl
    rw [Start.propsAtEnd, hlast, Option.bind_some, Start.ownProps?_of_passedOn? hb]
  rw [hnone] at hextract hpassed
  exact ⟨hfinite, hextract, hpassed _ _ (Start.outline?_of_text htext) hreexport (Or.inl rfl)⟩

/-! ## Off the trail -/

def schemaText : String := "export interface Props \x7b t: string \x7d"

def dotted : Start where
  files := .ofTexts [("/p/a.ts", passingText), ("/p/b.ts", schemaText)]
  root := none
  given := none

def climbingText : String := "export \x7b default \x7d from '../a.ts'"

def climbingDisk : Disk where
  files := [("/a.ts", climbingText.toUTF8.toList)]
  directories := ["/"]

/-- A file right below the root of the disk names itself by a step up, which stays at the root. -/
def climbing : Start where
  files := climbingDisk.toFiles "/"
  root := some "/"
  given := none

/-- One of the names of the file, with so many steps up. -/
def stepsUp (n : Nat) : String := Path.ofSteps [] (List.replicate n ['.', '.'] ++ ["a.ts".toList])

theorem isName_climbing : Path.IsName "a.ts" := by constructor <;> decide

theorem isStep_stepsUp (n : Nat) : ∀ c ∈ List.replicate n ['.', '.'] ++ ["a.ts".toList], Path.IsStep c := by
  intro c hc
  rcases List.mem_append.1 hc with hc | hc
  · rw [List.eq_of_mem_replicate hc]
    constructor <;> decide
  · rw [List.mem_singleton.1 hc]
    exact isName_climbing.isStep

theorem steps_stepsUp (n : Nat) : Path.steps (stepsUp n) = List.replicate n ['.', '.'] ++ ["a.ts".toList] :=
  Path.steps_ofSteps (Or.inl rfl) (isStep_stepsUp n)

theorem isAbsolute_stepsUp (n : Nat) : Path.isAbsolute (stepsUp n) = false := by
  have hmark : Path.mark (stepsUp n) = [] := Path.mark_ofSteps (Or.inl rfl) (isStep_stepsUp n)
  rw [← Bool.not_eq_true, Path.isAbsolute_iff, hmark]
  exact fun h => h rfl

theorem stepsUp_inj {n k : Nat} : stepsUp n = stepsUp k ↔ n = k := by
  refine ⟨fun h => ?_, congrArg stepsUp⟩
  have hlength := congrArg (fun path => (Path.steps path).length) h
  simpa [steps_stepsUp] using hlength

theorem exists_front_stepsUp (n : Nat) :
    ∃ front, Path.IsFront front ∧ (stepsUp n).toList = front ++ "a.ts".toList := by
  refine ⟨(List.replicate n ['.', '.']).flatMap (· ++ ['/']), ?_, ?_⟩
  · cases n with
    | zero => exact Or.inl rfl
    | succ n =>
      refine Or.inr ⟨(List.replicate n ['.', '.']).flatMap (· ++ ['/']) ++ ['.', '.'], ?_⟩
      simp [List.replicate_succ']
  · rw [stepsUp, Path.toList_ofSteps (Or.inr (by simp)) (isStep_stepsUp n), Path.joinComponents_concat,
      List.nil_append]

theorem normalize_append_stepsUp (n : Nat) :
    Path.normalize (Path.append (Path.parent (stepsUp n)) "../a.ts") = stepsUp (n + 1) := by
  obtain ⟨front, hfront, hpath⟩ := exists_front_stepsUp n
  have hrelative : Path.isAbsolute "../a.ts" = false := by decide
  have hsteps : Path.steps "../a.ts" = [['.', '.'], "a.ts".toList] := by decide +kernel
  have hparent := (Path.steps_parent isName_climbing hfront hpath).symm.trans (steps_stepsUp n)
  have hmark : Path.mark (Path.parent (stepsUp n)) = [] := by
    rw [Path.mark_parent isName_climbing hfront hpath]
    exact Path.mark_ofSteps (Or.inl rfl) (isStep_stepsUp n)
  have hreduced : Path.reduce false (List.replicate (n + 1) ['.', '.'] ++ ["a.ts".toList]) =
      List.replicate (n + 1) ['.', '.'] ++ ["a.ts".toList] := by
    have hdone : Path.Reduced false ("a.ts".toList :: List.replicate (n + 1) ['.', '.']) :=
      .down (by decide) (.of_up rfl fun c => List.eq_of_mem_replicate)
    have hkept := hdone.foldl_reverse fun c hc => isStep_stepsUp (n + 1) c (by simpa [or_comm] using hc)
    rw [List.reverse_cons, List.reverse_replicate] at hkept
    rw [Path.reduce, hkept, List.reverse_cons, List.reverse_replicate]
  rw [Path.normalize_eq, Path.mark_append hrelative, Path.steps_append hrelative, hmark,
    List.append_cancel_right hparent, hsteps, stepsUp, ← hreduced, List.replicate_succ', List.append_assoc]
  rfl

theorem follow_stepsUp (n : Nat) :
    climbingDisk.follow [] (List.replicate n ['.', '.'] ++ ["a.ts".toList]) = .ok ["a.ts".toList] := by
  induction n with
  | zero => decide +kernel
  | succ n ih =>
    rw [List.replicate_succ, List.cons_append, Disk.follow, if_neg (by decide), if_neg (by decide), if_pos rfl]
    exact ih

theorem steps_append_stepsUp (n : Nat) :
    Path.steps (Path.append "/" (stepsUp n)) = List.replicate n ['.', '.'] ++ ["a.ts".toList] := by
  have hroot : Path.steps "/" = [] := by decide
  rw [Path.steps_append (isAbsolute_stepsUp n), hroot, steps_stepsUp, List.nil_append]

theorem key_stepsUp (n : Nat) : climbing.files.key (stepsUp n) = "/a.ts" := by
  have hmark : Path.mark (Path.append "/" (stepsUp n)) = ['/'] := Path.mark_append (isAbsolute_stepsUp n) "/"
  have hreduce : Path.reduce true (List.replicate n ['.', '.'] ++ ["a.ts".toList]) = ["a.ts".toList] := by
    rw [Path.reduce, ← Disk.follow_eq_ok List.not_mem_nil (follow_stepsUp n), List.reverse_singleton]
  have hkey : climbing.files.key (stepsUp n) = Path.normalize (Path.append "/" (stepsUp n)) := rfl
  rw [hkey, Path.normalize_eq, hmark, steps_append_stepsUp]
  exact congrArg (Path.ofSteps ['/']) hreduce

theorem isFile_stepsUp (n : Nat) : climbing.files.isFile (stepsUp n) = true := by
  have hlocate : climbingDisk.locate (Path.append "/" (stepsUp n)) = .ok "/a.ts" := by
    rw [Disk.locate, Disk.follow_steps, steps_append_stepsUp, follow_stepsUp]
    rfl
  have hfile : climbingDisk.hasFile "/a.ts" = true := by decide
  unfold climbing Disk.toFiles Disk.isFile
  simp only [hlocate, hfile]

theorem passedOn?_stepsUp (n : Nat) : climbing.passedOn? (stepsUp n) = some (stepsUp (n + 1)) := by
  have htext : climbing.files.text (climbing.files.key (stepsUp n)) = .ok climbingText := by
    rw [key_stepsUp]
    decide +kernel
  have hreexport : ∀ markup, (Source.Outline.ofText markup climbingText).reexportedDefault? = some "../a.ts" := by
    decide +kernel
  have hrelative : isRelative "../a.ts" = true := by decide
  have himported : climbing.importedFile "../a.ts" (stepsUp n) = stepsUp (n + 1) := by
    unfold Start.importedFile probe basePath
    dsimp only
    rw [if_pos hrelative, normalize_append_stepsUp, if_pos (isFile_stepsUp (n + 1))]
  rw [Start.passedOn?, Start.outline?_of_text htext, Option.bind_some, outlineOf, hreexport, Option.map_some,
    himported]

/-- The chain goes on for as long as it is followed. -/
theorem run_followNoted_stepsUp (fuel n : Nat) (before noted : List String)
    (hbefore : ∀ file ∈ before, ∃ k < n, file = stepsUp k) :
    (climbing.followNoted fuel before (stepsUp n)).run noted = (none, noted ++ List.replicate fuel "/a.ts") := by
  induction fuel generalizing n before noted with
  | zero =>
    rw [List.replicate_zero, List.append_nil]
    rfl
  | succ fuel ih =>
    have hnew : stepsUp n ∉ before := by
      intro hmem
      obtain ⟨k, hk, heq⟩ := hbefore _ hmem
      exact absurd (stepsUp_inj.1 heq) (by omega)
    rw [Start.run_followNoted_succ hnew, passedOn?_stepsUp, key_stepsUp]
    dsimp only
    rw [ih, List.append_assoc, List.replicate_succ, List.singleton_append]
    refine List.forall_mem_cons.2 ⟨⟨n, by omega, rfl⟩, fun file hfile => ?_⟩
    obtain ⟨k, hk, heq⟩ := hbefore file hfile
    exact ⟨k, by omega, heq⟩

/-- From the directory a relative name leads to one that is longer, so one file is read again and again. And a
name that ends in a dot is read as the file it is in, but what it passes on is looked for inside that file. -/
theorem extract_off_trail :
    (dotted.outline? "/p/a.ts/.").bind (·.reexportedDefault?) = some "./b" ∧
    (∃ found, Gives dotted (extract "/p/a.ts/.") (some found)) ∧
    Gives dotted (resolveImport "./b" "/p/a.ts/." >>= extract) none ∧
    (climbing.outline? "a.ts").bind (·.reexportedDefault?) = some "../a.ts" ∧
    ∀ fuel, (climbing.followNoted fuel [] "a.ts").run [] = (none, List.replicate fuel "/a.ts") := by
  refine ⟨by decide +kernel, ?_, ?_, by decide +kernel, fun fuel => ?_⟩
  · have hfound : (dotted.schemaAt "/p/a.ts/.").isSome = true := by decide +kernel
    obtain ⟨found, hfound⟩ := Option.isSome_iff_exists.1 hfound
    exact ⟨found, hfound ▸ gives_extract _⟩
  · have himported : dotted.importedFile "./b" "/p/a.ts/." = "/p/a.ts/b" := by decide +kernel
    have hnone : (dotted.schemaAt "/p/a.ts/b").isNone = true := by decide +kernel
    have hresolve : Gives dotted (resolveImport "./b" "/p/a.ts/.") "/p/a.ts/b" :=
      himported ▸ gives_resolveImport _ _
    exact .bind hresolve (Option.isNone_iff_eq_none.1 hnone ▸ gives_extract _)
  · have hstart : stepsUp 0 = "a.ts" := by decide +kernel
    rw [← hstart]
    exact run_followNoted_stepsUp fuel 0 [] [] nofun

end BlockCheck.Props
