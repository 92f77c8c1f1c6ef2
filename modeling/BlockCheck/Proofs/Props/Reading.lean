import BlockCheck.Props.Session

/-!
# What a session reads

A session that remembers nothing but what its files say answers as the files say, and remembers nothing
else afterwards. So the props that a fresh session finds follow from the texts along a chain of files, and
two sets of files give the same props if they agree on those texts.
-/

namespace BlockCheck.Props

/-! ## Without a memory -/

section Files

variable (files : Files) (root : String)

def aliasesAt (base : String) : ImportMap :=
  match files.text (files.key (Path.append base "deno.json")) with
  | .ok text => aliasesOf text
  | .error _ => []

/-- The configuration file that a session looks for aliases in. -/
def aliasFile : String := Path.append (Path.normalize (Path.normalize root)) "deno.json"

def projectAliases : ImportMap := aliasesAt files (Path.normalize (Path.normalize root))

def importedFile (specifier file : String) : String :=
  let table := if isRelative specifier then [] else projectAliases files root
  probe files (basePath (some (Path.normalize root)) table specifier (Path.parent file))

/-- The schema that a chain of files which pass on each other's default ends in; `next` is the file that a
specifier in a file names. -/
def chainSchema (next : String → String → String) : Nat → List String → String → Option Schema
  | 0, _, _ => none
  | fuel + 1, chain, path =>
    if chain.contains path then none
    else
      match files.text (files.key path) with
      | .error _ => none
      | .ok text =>
        match (outlineOf path text).reexportedDefault? with
        | some specifier => chainSchema next fuel (path :: chain) (next specifier path)
        | none => schemaOf? (outlineOf path text)

def enoughFuel : Nat := 2 * files.paths.length + 2

end Files

structure Start where
  files : Files
  root : Option String
  /-- The aliases, if they are given and need not be read. -/
  given : Option ImportMap

namespace Start

def ofProject (files : Files) (root : String) : Start := ⟨files, some root, none⟩

variable (start : Start)

def aliases : ImportMap :=
  match start.given with
  | some table => table
  | none =>
    match start.root with
    | some root => projectAliases start.files root
    | none => []

def importedFile (specifier file : String) : String :=
  let table := if isRelative specifier || start.root.isNone then [] else start.aliases
  probe start.files (basePath (start.root.map Path.normalize) table specifier (Path.parent file))

def schemaAt (path : String) : Option Schema :=
  chainSchema start.files start.importedFile (enoughFuel start.files) [] (Path.normalize path)

theorem importedFile_ofProject (files : Files) (root : String) :
    (ofProject files root).importedFile = Props.importedFile files root := by
  funext specifier file
  simp [importedFile, Props.importedFile, ofProject, aliases]

end Start

/-- What the session remembers is what the files say. -/
structure Honest (start : Start) (s : Session) : Prop where
  files_eq : s.files = start.files
  root_eq : s.root = start.root.map Path.normalize
  texts : ∀ key text, s.texts.bind (List.lookup key) = some text → start.files.text key = .ok text
  tables : ∀ base table, s.tables.lookup base = some table → table = aliasesAt start.files base
  imports : ∀ table, s.imports = some table → table = start.aliases
  unread : s.imports = none → start.given = none
  schemas : ∀ path found, s.schemas.bind (List.lookup path) = some found →
    found = chainSchema start.files start.importedFile (enoughFuel start.files) [] path

/-- Whatever an honest session has done before, it gives this answer and stays honest. -/
def Gives {α : Type} (start : Start) (run : Run α) (answer : α) : Prop :=
  ∀ s, Honest start s → (run.run s).1 = answer ∧ Honest start (run.run s).2

variable {files files' : Files} {root : String} {start : Start} {s : Session} {α β : Type}

theorem honest_fresh (files : Files) (root : String) :
    Honest (.ofProject files root) (.fresh files (some root)) where
  files_eq := rfl
  root_eq := rfl
  texts := nofun
  tables := nofun
  imports := nofun
  unread _ := rfl
  schemas := nofun

theorem lookup_bind_insert {γ : Type} {memory : Option (List (String × γ))} {key k : String} {value v : γ}
    (h : (memory.map (Record.insert key value)).bind (List.lookup k) = some v) :
    (k = key ∧ v = value) ∨ memory.bind (List.lookup k) = some v := by
  cases memory with
  | none => cases h
  | some record =>
    rw [Option.map_some, Option.bind_some, Record.lookup_insert] at h
    split at h
    · exact Or.inl ⟨‹_›, (Option.some.inj h).symm⟩
    · exact Or.inr h

/-! ## One step after the other -/

namespace Gives

theorem pure (a : α) : Gives start (Pure.pure a) a := fun _ hs => ⟨rfl, hs⟩

theorem bind {m : Run α} {f : α → Run β} {a : α} {b : β} (hm : Gives start m a)
    (hf : Gives start (f a) b) : Gives start (m >>= f) b := by
  intro s hs
  obtain ⟨ha, hs'⟩ := hm s hs
  have hrun : (m >>= f).run s = (f (m.run s).1).run (m.run s).2 := rfl
  rw [hrun, ha]
  exact hf _ hs'

theorem get_bind {f : Session → Run α} {a : α}
    (h : ∀ s, Honest start s → ((f s).run s).1 = a ∧ Honest start ((f s).run s).2) :
    Gives start (get >>= f) a := h

theorem modify {f : Session → Session} (h : ∀ s, Honest start s → Honest start (f s)) :
    Gives start (modify f) ⟨⟩ := fun s hs => ⟨rfl, h s hs⟩

theorem map {m : Run α} {a : α} (f : α → β) (hm : Gives start m a) : Gives start (f <$> m) (f a) := by
  rw [map_eq_pure_bind]
  exact hm.bind (.pure _)

theorem mapM {l : List α} {f : α → Run β} {g : α → β} (h : ∀ a ∈ l, Gives start (f a) (g a)) :
    Gives start (l.mapM f) (l.map g) := by
  induction l with
  | nil => exact .pure []
  | cons a rest ih =>
    obtain ⟨ha, hrest⟩ := List.forall_mem_cons.1 h
    rw [List.mapM_cons]
    exact ha.bind ((ih hrest).bind (.pure _))

theorem forM {l : List α} {f : α → Run PUnit} (h : ∀ a ∈ l, Gives start (f a) ⟨⟩) :
    Gives start (l.forM f) ⟨⟩ := by
  induction l with
  | nil => exact .pure PUnit.unit
  | cons a rest ih =>
    obtain ⟨ha, hrest⟩ := List.forall_mem_cons.1 h
    exact ha.bind (ih hrest)

end Gives

theorem Honest.remember (hs : Honest start s) {key text : String} (h : start.files.text key = .ok text) :
    Honest start { s with texts := s.texts.map (Record.insert key text) } where
  files_eq := hs.files_eq
  root_eq := hs.root_eq
  texts k other hk := by
    rcases lookup_bind_insert hk with ⟨rfl, rfl⟩ | hk
    · exact h
    · exact hs.texts k other hk
  tables := hs.tables
  imports := hs.imports
  unread := hs.unread
  schemas := hs.schemas

theorem gives_readText (path : String) :
    Gives start (readText path) (start.files.text (start.files.key path)) := by
  obtain ⟨files, root, given⟩ := start
  refine .get_bind fun s hs => ?_
  obtain rfl : s.files = files := hs.files_eq
  dsimp only
  cases hknown : s.texts.bind (List.lookup (s.files.key path)) with
  | some text => exact ⟨(hs.texts _ _ hknown).symm, hs⟩
  | none =>
    cases htext : s.files.text (s.files.key path) with
    | error fault => exact ⟨rfl, hs⟩
    | ok text => exact ⟨rfl, hs.remember htext⟩

/-! ## Aliases -/

theorem gives_loadAliases (base : String) :
    Gives start (loadAliases base) (aliasesAt start.files (Path.normalize base)) := by
  refine .get_bind fun s hs => ?_
  cases hknown : s.tables.lookup (Path.normalize base) with
  | some table => exact ⟨hs.tables _ _ hknown, hs⟩
  | none =>
    have hremember : ∀ table, table = aliasesAt start.files (Path.normalize base) →
        Gives start (do
          modify fun session : Session =>
            { session with tables := Record.insert (Path.normalize base) table session.tables }
          return table) (aliasesAt start.files (Path.normalize base)) := by
      rintro _ rfl
      refine .bind (.modify fun s hs => { hs with tables := fun k table hk => ?_ }) (.pure _)
      rw [Record.lookup_insert] at hk
      split at hk
      · rename_i hsame
        rw [hsame, Option.some.inj hk]
      · exact hs.tables k table hk
    exact Gives.bind (gives_readText _) (hremember _ rfl) s hs

theorem gives_importMap : Gives start importMap start.aliases := by
  refine .get_bind fun s hs => ?_
  cases hknown : s.imports with
  | some table => exact ⟨hs.imports _ hknown, hs⟩
  | none =>
    have hremember : Gives start (do
        modify fun session : Session => { session with imports := some start.aliases }
        return start.aliases) start.aliases := by
      refine .bind (.modify fun s hs => { hs with imports := fun table htable => ?_, unread := nofun }) (.pure _)
      exact (Option.some.inj htable).symm
    have haliases : start.aliases = (start.root.elim [] (projectAliases start.files)) := by
      unfold Start.aliases
      rw [hs.unread hknown]
      cases start.root <;> rfl
    rw [hs.root_eq]
    cases hroot : start.root with
    | none =>
      rw [hroot, Option.elim_none] at haliases
      refine Gives.bind (.pure []) ?_ s hs
      rwa [haliases] at hremember ⊢
    | some root =>
      rw [hroot, Option.elim_some] at haliases
      refine Gives.bind (gives_loadAliases _) ?_ s hs
      rwa [haliases] at hremember ⊢

theorem gives_resolveImport (specifier file : String) :
    Gives start (resolveImport specifier file) (start.importedFile specifier file) := by
  have hprobe : ∀ table, Gives start (do
      let session ← get
      return probe session.files (basePath session.root table specifier (Path.parent file)))
      (probe start.files (basePath (start.root.map Path.normalize) table specifier (Path.parent file))) := by
    intro table
    refine .get_bind fun s hs => ?_
    rw [hs.files_eq, hs.root_eq]
    exact ⟨rfl, hs⟩
  refine .get_bind fun s hs => ?_
  rw [hs.root_eq, Option.isNone_map]
  unfold Start.importedFile
  split
  · exact Gives.bind (.pure _) (hprobe []) s hs
  · exact Gives.bind gives_importMap (hprobe _) s hs

/-! ## Chains of files -/

theorem gives_follow (fuel : Nat) (chain : List String) (path : String) :
    Gives start (follow fuel chain path) (chainSchema start.files start.importedFile fuel chain path) := by
  induction fuel generalizing chain path with
  | zero => exact .pure none
  | succ fuel ih =>
    unfold follow chainSchema
    split
    · exact .pure none
    · refine .bind (gives_readText path) ?_
      cases start.files.text (start.files.key path) with
      | error fault => exact .pure none
      | ok text =>
        dsimp only
        cases (outlineOf path text).reexportedDefault? with
        | some specifier => exact .bind (gives_resolveImport _ _) (ih _ _)
        | none => exact .pure _

theorem gives_extract (path : String) : Gives start (extract path) (start.schemaAt path) := by
  refine .get_bind fun s hs => ?_
  cases hknown : s.schemas.bind (List.lookup (Path.normalize path)) with
  | some found => exact ⟨hs.schemas _ _ hknown, hs⟩
  | none =>
    have hremember : Gives start (do
        modify fun session : Session => { session with
          schemas := session.schemas.map (Record.insert (Path.normalize path) (start.schemaAt path)) }
        return start.schemaAt path) (start.schemaAt path) := by
      refine .bind (.modify fun s hs => { hs with schemas := fun other found h => ?_ }) (.pure _)
      rcases lookup_bind_insert h with ⟨rfl, rfl⟩ | h
      · rfl
      · exact hs.schemas other found h
    refine Gives.get_bind (fun s hs => ?_) s hs
    rw [hs.files_eq]
    exact Gives.bind (gives_follow _ _ _) hremember s hs

theorem schemaOfFile_eq (files : Files) (root path : String) :
    schemaOfFile files root path =
      chainSchema files (importedFile files root) (enoughFuel files) [] (Path.normalize path) := by
  rw [← Start.importedFile_ofProject]
  exact (gives_extract path _ (honest_fresh files root)).1

/-! ## Other files -/

/-- The files that are read to find the props of the source at `path`. The file of aliases may or may
not be needed. -/
inductive Reads (files : Files) (root path : String) : String → Prop
  | aliases : Reads files root path (aliasFile root)
  | source : Reads files root path (Path.normalize path)
  | imported {file text specifier : String} : Reads files root path file →
      files.text (files.key file) = .ok text →
      (outlineOf file text).reexportedDefault? = some specifier →
      Reads files root path (importedFile files root specifier file)

theorem Reads.eq_of_no_reexport {path read text : String} {fault : ReadFault}
    (haliases : files.text (files.key (aliasFile root)) = .error fault)
    (hsource : files.text (files.key (Path.normalize path)) = .ok text)
    (hown : (outlineOf (Path.normalize path) text).reexportedDefault? = none)
    (h : Reads files root path read) : read = aliasFile root ∨ read = Path.normalize path := by
  induction h with
  | aliases => exact Or.inl rfl
  | source => exact Or.inr rfl
  | imported _ htext hspecifier ih =>
    rcases ih with rfl | rfl
    · cases haliases.symm.trans htext
    · cases hsource.symm.trans htext
      cases hown.symm.trans hspecifier

theorem projectAliases_congr
    (h : ∀ text, files'.text (files'.key (aliasFile root)) = .ok text ↔
      files.text (files.key (aliasFile root)) = .ok text) :
    projectAliases files' root = projectAliases files root := by
  unfold aliasFile at h
  unfold projectAliases aliasesAt
  obtain ⟨text, hfound', hfound⟩ | ⟨fault', fault, hfound', hfound⟩ := ReadFault.same_text_or_none h
  · rw [hfound', hfound]
  · rw [hfound', hfound]

/-- Where what is read can be read among the other files as well, and holds the same, the chain ends the same way. -/
theorem chainSchema_congr {path : String}
    (htext : ∀ file, Reads files root path file → ∀ text,
      files'.text (files'.key file) = .ok text ↔ files.text (files.key file) = .ok text)
    (hnext : ∀ file specifier, Reads files root path file →
      Reads files root path (importedFile files root specifier file) →
        importedFile files' root specifier file = importedFile files root specifier file)
    (fuel : Nat) (chain : List String) {file : String} (hreads : Reads files root path file) :
    chainSchema files' (importedFile files' root) fuel chain file =
      chainSchema files (importedFile files root) fuel chain file := by
  induction fuel generalizing chain file with
  | zero => rfl
  | succ fuel ih =>
    unfold chainSchema
    split
    · rfl
    · obtain ⟨text, hfound', hfound⟩ | ⟨fault', fault, hfound', hfound⟩ :=
        ReadFault.same_text_or_none (htext file hreads)
      · rw [hfound', hfound]
        dsimp only
        cases hspecifier : (outlineOf file text).reexportedDefault? with
        | none => rfl
        | some specifier =>
          have himported := Reads.imported hreads hfound hspecifier
          dsimp only
          rw [hnext file specifier hreads himported]
          exact ih _ himported
      · rw [hfound', hfound]

section Congr

variable {path : String} (hkey : files'.key = files.key) (hfile : files'.isFile = files.isFile)
  (hpaths : files'.paths = files.paths)
  (htext : ∀ file, Reads files root path file →
    files'.text (files.key file) = files.text (files.key file))

include hkey hfile htext

theorem importedFile_congr (specifier file : String) :
    importedFile files' root specifier file = importedFile files root specifier file := by
  have haliases : projectAliases files' root = projectAliases files root := by
    refine projectAliases_congr fun text => ?_
    rw [hkey, htext _ .aliases]
  unfold importedFile probe
  rw [haliases, hfile]

include hpaths

theorem schemaOfFile_congr_files : schemaOfFile files' root path = schemaOfFile files root path := by
  rw [schemaOfFile_eq, schemaOfFile_eq, enoughFuel, enoughFuel, hpaths]
  refine chainSchema_congr (fun file hreads => ?_) (fun file specifier _ _ => ?_) _ _ .source
  · rw [hkey, htext file hreads]
    exact fun _ => Iff.rfl
  · exact importedFile_congr hkey hfile htext specifier file

end Congr

end BlockCheck.Props
