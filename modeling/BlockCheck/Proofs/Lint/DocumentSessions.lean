import BlockCheck.Proofs.Lint.UnusedProperties
import BlockCheck.Proofs.Props.Reading

/-!
# Documents in one session

A run over documents checks one document after the other in a session that remembers what it has read. What
the documents before have left in its memory makes no difference: each comes to what it comes to in a session
of its own.
-/

namespace BlockCheck

variable {files : Files} {root : String}

namespace Document

open Props

theorem surroundings_of_honest (rules : Rules) {s : Session} (hs : Honest (.ofProject files root) s) :
    rules.surroundings s = rules.surroundings (.fresh files (some root)) := by
  have hprops : (fun path => ((extract path).run s).1) =
      fun path => ((extract path).run (.fresh files (some root))).1 := by
    funext path
    exact (gives_extract path s hs).1.trans (gives_extract path _ (honest_fresh files root)).1.symm
  unfold Rules.surroundings
  rw [hprops, hs.files_eq]
  rfl

theorem gives_checkWithin (rules : Rules) (file : String) (inProgress : List String) (text : String) :
    Gives (.ofProject files root) (checkWithin rules file inProgress text)
      (check (rules.surroundings (.fresh files (some root))) file inProgress text) := by
  refine .get_bind fun s hs => ?_
  rw [surroundings_of_honest rules hs]
  have hremember : ∀ outcome : Outcome, Gives (.ofProject files root) (do
      outcome.sources.forM fun source => discard (extract source)
      return outcome) outcome :=
    fun outcome => .bind (.forM fun source _ => (gives_extract source).map _) (.pure outcome)
  exact hremember _ s hs

end Document

namespace Lint

open Props

def checkAt (config : Config) (path : String) : Run Outcome := do
  let name := Path.within config.blocksDir path
  match ← readText path with
  | .error fault => return .ofProblem name "" "" (.unreadable fault.message)
  | .ok text => Document.checkWithin (rules config) name [] text

/-- What comes of the documents of a project, one after the other in one session. -/
def outcomes (disk : Disk) (cwd : String) (config : Config) : List Outcome :=
  let run := (Discovery.documents disk config.blocksDir).mapM (checkAt config)
  (run.run (.fresh (disk.toFiles cwd) (some config.root))).1

theorem gives_checkAt (config : Config) (path : String) :
    Gives (.ofProject files config.root) (checkAt config path) (documentAt files config path) := by
  refine .bind (gives_readText path) ?_
  unfold documentAt
  dsimp only [Start.ofProject]
  cases files.text (files.key path) with
  | error fault => exact .pure _
  | ok text => exact Document.gives_checkWithin _ _ _ _

theorem outcomes_eq (disk : Disk) (cwd : String) (config : Config) :
    outcomes disk cwd config =
      (Discovery.documents disk config.blocksDir).map (documentAt (disk.toFiles cwd) config) :=
  (Gives.mapM (fun path _ => gives_checkAt config path) _ (honest_fresh _ _)).1

theorem documents_eq_outcomes (disk : Disk) (cwd : String) (config : Config) :
    (documents disk cwd config).reports = (outcomes disk cwd config).flatMap (·.reports) ∧
      (documents disk cwd config).unresolved = (outcomes disk cwd config).flatMap (·.unresolved) := by
  rw [outcomes_eq]
  exact ⟨Outcome.reports_concat _, Outcome.unresolved_concat _⟩

end Lint

end BlockCheck
