import BlockCheck.Proofs.Props.Calls
import BlockCheck.Proofs.Props.LongestAlias

/-!
# Sessions and changing files

Files may change while a session goes on. A session that is told to forget its texts, tables and schemas answers as
the files say that there are now, but for the aliases of the project: these it keeps as it has first known them.
-/

namespace BlockCheck.Props

inductive Event where
  | call (call : Call)
  /-- Files are written or removed, and these are there now. -/
  | change (files : Files)

def Session.after (s : Session) : Event → Session
  | .call call => (call.perform.run s).2
  | .change files => { s with files := files }

def Session.afterAll (s : Session) (events : List Event) : Session := events.foldl Session.after s

def Session.forgetAll (s : Session) : Session := s.forgetSchemas.forgetTables.forgetTexts

def filesAfter (files : Files) (events : List Event) : Files :=
  events.foldl (fun files event => match event with
    | .call _ => files
    | .change now => now) files

variable {start : Start} {s : Session} {α β : Type}

/-! ## What is never forgotten -/

/-- A session that was begun like this, whatever it remembers by now. -/
structure Begun (start : Start) (s : Session) : Prop where
  files_eq : s.files = start.files
  root_eq : s.root = start.root.map Path.normalize
  given : ∀ table, start.given = some table → s.imports = some table
  rootless : start.root = none → start.given = none → ∀ table, s.imports = some table → table = []

theorem begun_session (start : Start) (keepsTexts keepsSchemas : Bool) :
    Begun start (start.session keepsTexts keepsSchemas) where
  files_eq := rfl
  root_eq := rfl
  given _ h := h
  rootless _ hgiven _ himports := by
    cases hgiven.symm.trans himports

def Keeps (start : Start) (run : Run α) : Prop := ∀ s, Begun start s → Begun start (run.run s).2

namespace Keeps

theorem pure (a : α) : Keeps start (Pure.pure a) := fun _ hs => hs

theorem bind {m : Run α} {f : α → Run β} (hm : Keeps start m) (hf : ∀ a, Keeps start (f a)) :
    Keeps start (m >>= f) := fun s hs => hf _ _ (hm s hs)

theorem get_bind {f : Session → Run α} (h : ∀ s, Begun start s → Begun start ((f s).run s).2) :
    Keeps start (get >>= f) := h

theorem modify {f : Session → Session} (h : ∀ s, Begun start s → Begun start (f s)) : Keeps start (modify f) := h

theorem map {m : Run α} (f : α → β) (hm : Keeps start m) : Keeps start (f <$> m) := by
  rw [map_eq_pure_bind]
  exact hm.bind fun _ => .pure _

end Keeps

theorem keeps_readText (path : String) : Keeps start (readText path) := by
  refine .get_bind fun s hs => ?_
  dsimp only
  split
  · exact hs
  split
  · exact { hs with }
  · exact hs

theorem keeps_loadAliases (root : String) : Keeps start (loadAliases root) := by
  refine .get_bind fun s hs => ?_
  split
  · exact hs
  · refine Keeps.bind (keeps_readText _) (fun read => ?_) s hs
    exact .bind (.modify fun _ hs => { hs with }) fun _ => .pure _

theorem keeps_importMap : Keeps start importMap := by
  refine .get_bind fun s hs => ?_
  split
  · exact hs
  rename_i hunread
  -- The aliases were not given, so there is nothing to lose; without a root there are none.
  have hgiven : start.given = none := by
    cases hgiven : start.given with
    | none => rfl
    | some table => cases hunread.symm.trans (hs.given table hgiven)
  have hremember : ∀ table, (start.root = none → table = []) → Keeps start (do
      modify fun session : Session => { session with imports := some table }
      return table) := by
    intro table htable
    refine .bind (.modify fun s hs => { hs with given := ?_, rootless := ?_ }) fun _ => .pure _
    · exact fun given h => nomatch hgiven.symm.trans h
    · exact fun hroot _ other hother => Option.some.inj hother ▸ htable hroot
  rw [hs.root_eq]
  cases hroot : start.root with
  | none => exact hremember [] (fun _ => rfl) s hs
  | some root =>
    exact Keeps.bind (keeps_loadAliases _) (fun table => hremember table fun h => nomatch hroot.symm.trans h) s hs

theorem keeps_resolveImport (specifier file : String) : Keeps start (resolveImport specifier file) := by
  have hprobe : ∀ table, Keeps start (do
      let session ← get
      return probe session.files (basePath session.root table specifier (Path.parent file))) :=
    fun table => .get_bind fun _ hs => hs
  refine .get_bind fun s hs => ?_
  split
  · exact Keeps.bind (.pure []) hprobe s hs
  · exact Keeps.bind keeps_importMap hprobe s hs

theorem keeps_follow (fuel : Nat) (chain : List String) (path : String) : Keeps start (follow fuel chain path) := by
  induction fuel generalizing chain path with
  | zero => exact .pure none
  | succ fuel ih =>
    unfold follow
    split
    · exact .pure none
    · refine .bind (keeps_readText path) fun read => ?_
      split
      · exact .pure none
      · dsimp only
        split
        · exact .bind (keeps_resolveImport _ _) fun next => ih _ next
        · exact .pure _

theorem keeps_extract (path : String) : Keeps start (extract path) := by
  refine .get_bind fun s hs => ?_
  split
  · exact hs
  · refine Keeps.get_bind (fun s hs => ?_) s hs
    refine Keeps.bind (keeps_follow _ _ _) (fun found => ?_) s hs
    exact .bind (.modify fun _ hs => { hs with }) fun _ => .pure _

theorem keeps_perform (call : Call) : Keeps start call.perform := by
  cases call with
  | extract path => exact (keeps_extract path).map _
  | resolveImport specifier file => exact (keeps_resolveImport specifier file).map _
  | importMap => exact keeps_importMap.map _
  | loadAliases root => exact (keeps_loadAliases root).map _
  | readText path => exact (keeps_readText path).map _
  | isFile path => exact Keeps.map _ fun _ hs => hs
  | forgetSchemas => exact .bind (.modify fun _ hs => { hs with }) fun _ => .pure _
  | forgetTables => exact .bind (.modify fun _ hs => { hs with }) fun _ => .pure _
  | forgetTexts => exact .bind (.modify fun _ hs => { hs with }) fun _ => .pure _

theorem begun_afterAll (h : Begun start s) (events : List Event) :
    Begun { start with files := filesAfter start.files events } (s.afterAll events) := by
  induction events generalizing start s with
  | nil => exact h
  | cons event rest ih =>
    cases event with
    | call call => exact ih (keeps_perform call s h)
    | change files =>
      have hchanged : Begun { start with files := files } { s with files := files } := { h with files_eq := rfl }
      exact ih hchanged

/-! ## What is left -/

theorem Begun.honest_forgetAll (h : Begun start s) : Honest { start with given := s.imports } s.forgetAll where
  files_eq := h.files_eq
  root_eq := h.root_eq
  texts _ _ htext := absurd htext lookup_bind_forget
  tables := nofun
  imports table himports := by
    have hgiven : s.imports = some table := himports
    unfold Start.aliases
    rw [hgiven]
  unread := id
  schemas _ _ hfound := absurd hfound lookup_bind_forget

theorem Begun.aliases_eq (h : Begun start s)
    (hknown : s.imports = none ∨ start.given.isSome = true ∨ start.root = none) :
    Start.aliases { start with given := s.imports } = start.aliases := by
  cases hgiven : start.given with
  | some table => rw [h.given table hgiven, ← hgiven]
  | none =>
    cases himports : s.imports with
    | none => rw [← hgiven]
    | some table =>
      have hroot : start.root = none := by simpa [himports, hgiven] using hknown
      unfold Start.aliases
      rw [hgiven, hroot]
      exact h.rootless hroot hgiven table himports

theorem imports_afterAll (h : Begun start s) {table : ImportMap} (himports : s.imports = some table)
    (events : List Event) : (s.afterAll events).imports = some table := by
  have hknown : Begun { start with given := some table } s :=
    ⟨h.files_eq, h.root_eq, fun _ hgiven => hgiven ▸ himports, fun _ hgiven => nomatch hgiven⟩
  exact (begun_afterAll hknown events).given table rfl

theorem Start.answer_congr {start other : Start} (hfiles : other.files = start.files) (hroot : other.root = start.root)
    (haliases : other.aliases = start.aliases) : other.answer = start.answer := by
  have hnext : other.importedFile = start.importedFile := by
    funext specifier file
    rw [importedFile_eq, importedFile_eq, hfiles, hroot, haliases]
  funext call
  cases call with
  | extract path => rw [answer, answer, schemaAt, schemaAt, hfiles, hnext]
  | resolveImport specifier file => rw [answer, answer, hnext]
  | importMap => rw [answer, answer, haliases]
  | loadAliases root => rw [answer, answer, hfiles]
  | readText path => rw [answer, answer, hfiles]
  | isFile path => rw [answer, answer, hfiles]
  | _ => rfl

/-- Whatever has happened to a session, when it has forgotten all that it can be told to, it answers as a new one does
that is given the aliases that are still known. -/
theorem answers_after_forgetAll (start : Start) (keepsTexts keepsSchemas : Bool)
    (newKeepsTexts newKeepsSchemas : Bool) (events : List Event) :
    let session := start.session keepsTexts keepsSchemas
    let s := (session.afterAll events).forgetAll
    let now : Start := { start with files := filesAfter start.files events }
    let known : Start := { now with given := s.imports }
    let answers (begun : Start) (calls : List Call) : List Answer :=
      calls.map fun call => (call.perform.run (begun.session newKeepsTexts newKeepsSchemas)).1
    (∀ calls, ((calls.mapM Call.perform).run s).1 = answers known calls) ∧
      ((∀ calls, ((calls.mapM Call.perform).run s).1 = answers now calls) ↔ known.aliases = now.aliases) ∧
      (s.imports = none ∨ start.given.isSome = true ∨ start.root = none → known.aliases = now.aliases) ∧
      ∀ earlier later, events = earlier ++ later →
        ∀ table, (session.afterAll earlier).imports = some table → s.imports = some table := by
  intro session s now known answers
  have hbegun : Begun now (session.afterAll events) :=
    begun_afterAll (begun_session start keepsTexts keepsSchemas) events
  have hs : Honest known s := hbegun.honest_forgetAll
  have hanswers : ∀ begun calls, answers begun calls = calls.map begun.answer := fun begun calls =>
    List.map_congr_left fun call _ => (gives_perform call _ (honest_session begun _ _)).1
  have hrun : ∀ calls : List Call, ((calls.mapM Call.perform).run s).1 = calls.map known.answer := fun calls =>
    (Gives.mapM (fun call _ => gives_perform call) s hs).1
  refine ⟨fun calls => by rw [hrun, hanswers], ⟨fun h => ?_, fun haliases calls => ?_⟩, hbegun.aliases_eq,
    fun earlier later hevents table htable => ?_⟩
  · have hboth := h [.importMap]
    rw [hrun, hanswers] at hboth
    exact Answer.aliases.inj (List.singleton_inj.1 hboth)
  · have hsame : known.answer = now.answer := Start.answer_congr rfl rfl haliases
    rw [hrun, hanswers, hsame]
  · have hearlier := begun_afterAll (begun_session start keepsTexts keepsSchemas) earlier
    have hstays := imports_afterAll hearlier htable later
    unfold Session.afterAll at hstays
    rwa [← List.foldl_append, ← hevents] at hstays

def filesOf (target : String) : Files :=
  .ofTexts [("/proj/deno.json", "\x7b\"imports\": \x7b\"~/\": \"" ++ target ++ "\"\x7d\x7d"), ("/proj/a/x.ts", ""),
    ("/proj/b/x.ts", "")]

/-- The alias has got another target, and to forget does not bring it to light. -/
theorem resolveImport_after_forgetAll :
    let resolve := resolveImport "~/x" "/proj/sections/A.tsx"
    let session := (Start.ofProject (filesOf "./a/") "/proj").session true true
    let events := [.call (.resolveImport "~/x" "/proj/sections/A.tsx"), .change (filesOf "./b/")]
    (resolve.run (session.afterAll events).forgetAll).1 = "/proj/a/x.ts" ∧
      (resolve.run ((Start.ofProject (filesOf "./b/") "/proj").session true true)).1 = "/proj/b/x.ts" := by
  decide +kernel

end BlockCheck.Props
