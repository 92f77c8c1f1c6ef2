import BlockCheck.Document
import BlockCheck.Props.Session

/-!
# Checking documents within a session

Documents that are checked one after the other share what a session has found out about the
components of the project.
-/

namespace BlockCheck.Document

/-- The rules that documents are checked by, wherever their files are. -/
structure Rules where
  naming : Naming := {}
  key : String := discriminator
  mode : Mode := .lenient
  root : String
  blocksDir : String

def Rules.surroundings (rules : Rules) (session : Props.Session) : Surroundings where
  naming := rules.naming
  key := rules.key
  mode := rules.mode
  locate := rules.naming.locate rules.root session.files.isFile
  props path := ((Props.extract path).run session).1
  blocks := .ofDirectory rules.blocksDir session.files

/-- Checks a document. The session then knows the props of every component that was asked for. -/
def checkWithin (rules : Rules) (file : String) (inProgress : List String) (text : String) :
    Props.Run Outcome := do
  let outcome := check (rules.surroundings (← get)) file inProgress text
  outcome.sources.forM fun source => discard (Props.extract source)
  return outcome

end BlockCheck.Document
