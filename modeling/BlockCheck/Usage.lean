import BlockCheck.Text.Affix

/-!
# Use of identifiers

Which of the identifiers that exist have been referred to.
-/

namespace BlockCheck.Usage

/-- The known identifiers that are neither used nor excluded, in order and each once. -/
def unused (used known excluded : List String) : List String :=
  Text.sorted ((known.filter (fun i => !used.contains i && !excluded.contains i)).eraseDups)

end BlockCheck.Usage
