import BlockCheck.Lint.Components
import BlockCheck.Lint.Documents
import BlockCheck.Proofs.Blocks.Escapes

/-!
# Runs that are stopped

A run over documents is stopped by any document that stops it, a run over components by any document that is
nested too deep. Otherwise each says what it has to say, and says the same where there is more room.
-/

namespace BlockCheck.Lint

variable {disk : Disk} {cwd path : String} {config : Config} {target : Option String}
  {lint : ComponentLint} {found : DocumentLint}

def StopsDocuments (room : Nat → Nat) (disk : Disk) (cwd : String) (config : Config) (path : String) : Prop :=
  let files := disk.toFiles cwd
  ∃ text, files.text (files.key path) = .ok text ∧
    Document.Escapes room (surroundings files config) [] text

def StopsComponents (room : Nat) (disk : Disk) (cwd path : String) : Prop :=
  let files := disk.toFiles cwd
  ∃ text bracket, files.text (files.key path) = .ok text ∧ Json.overflow? room text = some bracket

section Documents

variable {room : Nat → Nat}

theorem documentEscape?_isSome_iff :
    (documentEscape? room (disk.toFiles cwd) config path).isSome = true ↔
      StopsDocuments room disk cwd config path := by
  unfold documentEscape? StopsDocuments
  dsimp only
  cases (disk.toFiles cwd).text ((disk.toFiles cwd).key path) with
  | error fault => simp
  | ok text => simp [Document.isSome_escape?_iff_escapes]

theorem stopsDocuments_of_unencodable {text : String}
    (htext : (disk.toFiles cwd).text ((disk.toFiles cwd).key path) = .ok text)
    (hname : ∃ r ∈ Document.blockReferences (surroundings (disk.toFiles cwd) config) text,
      Text.Surrogate.isUnencodable r.identifier = true) : StopsDocuments room disk cwd config path := by
  obtain ⟨r, hr, hname⟩ := hname
  exact ⟨text, htext, .unencodable ⟨r, hr, rfl⟩ List.not_mem_nil hname⟩

theorem exists_runDocuments_eq_ok_iff : (∃ found, runDocuments room disk cwd config = .ok found) ↔
    ∀ path ∈ Discovery.documents disk config.blocksDir, ¬StopsDocuments room disk cwd config path := by
  simp only [← documentEscape?_isSome_iff, Bool.not_eq_true, Option.isSome_eq_false_iff, Option.isNone_iff_eq_none,
    ← List.findSome?_eq_none_iff]
  unfold runDocuments
  dsimp only
  split
  · simp_all
  · simp_all

theorem runDocuments_eq_ok (h : runDocuments room disk cwd config = .ok found) :
    found = documents disk cwd config := by
  unfold runDocuments at h
  dsimp only at h
  split at h
  · cases h
  · exact (Except.ok.inj h).symm

theorem runDocuments_eq_ok_of_le {room' : Nat → Nat} (hle : ∀ n, room n ≤ room' n)
    (h : runDocuments room disk cwd config = .ok found) : runDocuments room' disk cwd config = .ok found := by
  have hruns : ∃ found, runDocuments room' disk cwd config = .ok found := by
    refine exists_runDocuments_eq_ok_iff.2 fun path hpath => ?_
    rintro ⟨text, htext, hescapes⟩
    exact exists_runDocuments_eq_ok_iff.1 ⟨found, h⟩ path hpath ⟨text, htext, hescapes.of_le hle⟩
  obtain ⟨found', h'⟩ := hruns
  rw [h', runDocuments_eq_ok h', runDocuments_eq_ok h]

end Documents

section Components

variable {room : Nat}

theorem loadEscape?_isSome_iff :
    (loadEscape? room (disk.toFiles cwd) path).isSome = true ↔ StopsComponents room disk cwd path := by
  unfold loadEscape? StopsComponents
  dsimp only
  cases (disk.toFiles cwd).text ((disk.toFiles cwd).key path) with
  | error fault => simp
  | ok text => simp [Option.isSome_iff_exists]

instance : Decidable (StopsComponents room disk cwd path) := decidable_of_iff _ loadEscape?_isSome_iff

theorem exists_runComponents_eq_ok_iff : (∃ lint, runComponents room disk cwd config target = .ok (some lint)) ↔
    (components disk cwd config target).isSome = true ∧
      ∀ path ∈ Discovery.documents disk config.blocksDir, ¬StopsComponents room disk cwd path := by
  simp only [← loadEscape?_isSome_iff, Bool.not_eq_true, Option.isSome_eq_false_iff, Option.isNone_iff_eq_none,
    ← List.findSome?_eq_none_iff]
  unfold runComponents
  cases components disk cwd config target with
  | none => simp
  | some lint =>
    dsimp only
    split
    · simp_all
    · simp_all

theorem runComponents_eq_ok
    (hroom : ∀ path ∈ Discovery.documents disk config.blocksDir, ¬StopsComponents room disk cwd path) :
    runComponents room disk cwd config target = .ok (components disk cwd config target) := by
  simp only [← loadEscape?_isSome_iff, Bool.not_eq_true, Option.isSome_eq_false_iff, Option.isNone_iff_eq_none,
    ← List.findSome?_eq_none_iff] at hroom
  unfold runComponents
  cases components disk cwd config target with
  | none => rfl
  | some lint =>
    dsimp only
    rw [hroom]

theorem components_eq_of_runComponents (h : runComponents room disk cwd config target = .ok (some lint)) :
    components disk cwd config target = some lint := by
  unfold runComponents at h
  cases hlint : components disk cwd config target with
  | none =>
    rw [hlint] at h
    cases h
  | some lint' =>
    rw [hlint] at h
    dsimp only at h
    split at h
    · cases h
    · exact Except.ok.inj h

theorem runComponents_eq_ok_of_le {room' : Nat} (hle : room ≤ room')
    (h : runComponents room disk cwd config target = .ok (some lint)) :
    runComponents room' disk cwd config target = .ok (some lint) := by
  have hroom := (exists_runComponents_eq_ok_iff.1 ⟨lint, h⟩).2
  rw [← components_eq_of_runComponents h]
  refine runComponents_eq_ok fun path hpath => ?_
  rintro ⟨text, bracket, htext, hbracket⟩
  obtain ⟨first, hfirst⟩ := Json.exists_overflow?_of_le hle hbracket
  exact hroom path hpath ⟨text, first, htext, hfirst⟩

end Components

end BlockCheck.Lint
