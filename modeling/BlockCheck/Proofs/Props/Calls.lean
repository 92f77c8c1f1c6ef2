import BlockCheck.Proofs.Props.Reading

/-!
# Calls to a session

A session may be asked for props, paths, aliases and texts, and it may be told to forget, in any order.
What it remembers from the calls before makes no difference: it answers each call as the files say, which is
what a session answers that has just begun.
-/

namespace BlockCheck.Props

inductive Call where
  | extract (path : String)
  | resolveImport (specifier file : String)
  | importMap
  | loadAliases (root : String)
  | readText (path : String)
  | isFile (path : String)
  | forgetSchemas
  | forgetTables
  | forgetTexts

inductive Answer where
  | schema (found : Option Schema)
  | path (path : String)
  | aliases (table : ImportMap)
  | text (text : Except ReadFault String)
  | isFile (answer : Bool)
  /-- What is told is not answered. -/
  | done

def Call.perform : Call → Run Answer
  | .extract path => .schema <$> Props.extract path
  | .resolveImport specifier file => .path <$> Props.resolveImport specifier file
  | .importMap => .aliases <$> Props.importMap
  | .loadAliases root => .aliases <$> Props.loadAliases root
  | .readText path => .text <$> Props.readText path
  | .isFile path => .isFile <$> Props.isFile path
  | .forgetSchemas => do
    modify Session.forgetSchemas
    return .done
  | .forgetTables => do
    modify Session.forgetTables
    return .done
  | .forgetTexts => do
    modify Session.forgetTexts
    return .done

namespace Start

def session (start : Start) (keepsTexts keepsSchemas : Bool) : Session :=
  { Session.fresh start.files start.root with
    texts := if keepsTexts then some [] else none
    schemas := if keepsSchemas then some [] else none
    imports := start.given }

def answer (start : Start) : Call → Answer
  | .extract path => .schema (start.schemaAt path)
  | .resolveImport specifier file => .path (start.importedFile specifier file)
  | .importMap => .aliases start.aliases
  | .loadAliases root => .aliases (aliasesAt start.files (Path.normalize root))
  | .readText path => .text (start.files.text (start.files.key path))
  | .isFile path => .isFile (start.files.isFile path)
  | _ => .done

end Start

variable {start : Start} {s : Session}

/-! ## What an honest session does -/

theorem lookup_bind_forget {γ : Type} {memory : Option (List (String × γ))} {key : String} {value : γ} :
    (memory.map fun _ => []).bind (List.lookup key) ≠ some value := by
  cases memory <;> exact nofun

theorem Honest.forget (hs : Honest start s) :
    Honest start s.forgetSchemas ∧ Honest start s.forgetTables ∧ Honest start s.forgetTexts := by
  refine ⟨{ hs with schemas := ?_ }, { hs with tables := nofun }, { hs with texts := ?_ }⟩
  · exact fun _ _ hfound => absurd hfound lookup_bind_forget
  · exact fun _ _ htext => absurd htext lookup_bind_forget

theorem honest_session (start : Start) (keepsTexts keepsSchemas : Bool) :
    Honest start (start.session keepsTexts keepsSchemas) where
  files_eq := rfl
  root_eq := rfl
  texts _ _ htext := by cases keepsTexts <;> cases htext
  tables := nofun
  imports table htable := by
    obtain ⟨files, root, given⟩ := start
    obtain rfl : given = some table := htable
    rfl
  unread := id
  schemas _ _ hfound := by cases keepsSchemas <;> cases hfound

theorem gives_isFile (path : String) : Gives start (isFile path) (start.files.isFile path) := by
  refine .get_bind fun s hs => ?_
  rw [hs.files_eq]
  exact ⟨rfl, hs⟩

/-- One call: the answer is what the files say, and nothing else is remembered. -/
theorem gives_perform (call : Call) : Gives start call.perform (start.answer call) := by
  cases call with
  | extract path => exact (gives_extract path).map _
  | resolveImport specifier file => exact (gives_resolveImport specifier file).map _
  | importMap => exact gives_importMap.map _
  | loadAliases root => exact (gives_loadAliases root).map _
  | readText path => exact (gives_readText path).map _
  | isFile path => exact (gives_isFile path).map _
  | forgetSchemas => exact .bind (.modify fun _ hs => hs.forget.1) (.pure _)
  | forgetTables => exact .bind (.modify fun _ hs => hs.forget.2.1) (.pure _)
  | forgetTexts => exact .bind (.modify fun _ hs => hs.forget.2.2) (.pure _)

/-- However many calls a session has answered before, it answers the next one as a session that has just
begun, and it makes no difference what either of them keeps. -/
theorem answers_eq_of_new_session (start : Start) (keepsTexts keepsSchemas : Bool)
    (newKeepsTexts newKeepsSchemas : Bool) (calls : List Call) :
    ((calls.mapM Call.perform).run (start.session keepsTexts keepsSchemas)).1 =
      calls.map fun call => (call.perform.run (start.session newKeepsTexts newKeepsSchemas)).1 := by
  have hrun : Gives start (calls.mapM Call.perform) (calls.map start.answer) :=
    .mapM fun call _ => gives_perform call
  rw [(hrun _ (honest_session start keepsTexts keepsSchemas)).1]
  refine List.map_congr_left fun call _ => ?_
  exact (gives_perform call _ (honest_session start newKeepsTexts newKeepsSchemas)).1.symm

end BlockCheck.Props
