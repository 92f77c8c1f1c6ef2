import BlockCheck.Proofs.Disk.NormalNames
import BlockCheck.Reference

/-!
# Identifiers of files

A file below the root of a project has an identifier, which is made from its way from the root. The identifier leads
back to the file, unless another file stands at the same way in the directory that is tried first.
-/

namespace BlockCheck

/-! ## Endings of names -/

namespace Path

theorem endsWithAny_ofSteps {m last : List Char} {front : List (List Char)} {endings : List String}
    (h : ∀ c ∈ front ++ [last], IsStep c) (hlast : Text.endsWithAny (String.ofList last) endings = true) :
    Text.endsWithAny (ofSteps m (front ++ [last])) endings = true := by
  unfold Text.endsWithAny at hlast ⊢
  rw [List.any_eq_true] at hlast ⊢
  obtain ⟨ending, hending, hsuffix⟩ := hlast
  refine ⟨ending, hending, ?_⟩
  unfold Text.endsWith at hsuffix ⊢
  rw [List.isSuffixOf_iff_suffix, String.toList_ofList] at hsuffix
  rw [List.isSuffixOf_iff_suffix, toList_ofSteps (Or.inr (by simp)) h, joinComponents_concat,
    ← List.append_assoc]
  exact hsuffix.trans (List.suffix_append _ _)

end Path

namespace Naming

variable {naming : Naming} {files : Files} {cwd root path file : String} {rest : List (List Char)}

/-! ## From an identifier back to the file -/

theorem startsWith_identifierOf (naming : Naming) (file : String) :
    Text.startsWith (naming.identifierOf file) naming.localPrefix = true := by
  unfold Text.startsWith identifierOf
  rw [List.isPrefixOf_iff_prefix, String.toList_append]
  exact List.prefix_append _ _

theorem identifierOf_ne_sentinel (h : Text.startsWith naming.sentinel naming.localPrefix = false) (file : String) :
    naming.identifierOf file ≠ naming.sentinel := by
  intro heq
  have hlocal := startsWith_identifierOf naming file
  rw [heq, h] at hlocal
  cases hlocal

theorem classify_identifierOf_iff :
    naming.classify (naming.identifierOf file) = .localComponent ↔ naming.identifierOf file ≠ naming.sentinel := by
  unfold classify
  rw [if_pos (startsWith_identifierOf naming file)]
  by_cases hsentinel : naming.identifierOf file = naming.sentinel
  · rw [if_pos hsentinel]
    exact iff_of_false nofun (not_not.2 hsentinel)
  · rw [if_neg hsentinel]
    exact iff_of_true rfl hsentinel

theorem drop_identifierOf (naming : Naming) (file : String) :
    Text.drop (naming.identifierOf file) naming.localPrefix.length = file := by
  rw [Text.drop, identifierOf, String.toList_append, ← String.length_toList, List.drop_left,
    String.ofList_toList]

theorem candidates_identifierOf (h : naming.identifierOf file ≠ naming.sentinel)
    (hextension : Text.endsWithAny file naming.sourceExtensions = true) :
    naming.candidates (naming.identifierOf file) = [naming.componentsDir ++ "/" ++ file, file] := by
  unfold candidates
  rw [classify_identifierOf_iff.2 h]
  dsimp only
  rw [drop_identifierOf, if_pos hextension]

/-- An identifier leads back to the file that it was made from, unless there is one that is tried first. -/
theorem locate_identifierOf {isFile : String → Bool} (h : naming.identifierOf file ≠ naming.sentinel)
    (hextension : Text.endsWithAny file naming.sourceExtensions = true)
    (hfile : isFile (Path.normalize (Path.append root file)) = true) :
    let first := Path.normalize (Path.append root (naming.componentsDir ++ "/" ++ file))
    naming.locate root isFile (naming.identifierOf file) =
      some (if isFile first then first else Path.normalize (Path.append root file)) := by
  intro first
  unfold locate
  rw [candidates_identifierOf h hextension, List.map_cons, List.map_cons, List.find?_cons, List.find?_cons, hfile]
  by_cases hfirst : isFile first = true
  · rw [if_pos hfirst, hfirst]
  · rw [if_neg hfirst, eq_false_of_ne_true hfirst]

theorem locate_of_sentinel (h : naming.identifierOf file = naming.sentinel) (root : String)
    (isFile : String → Bool) : naming.locate root isFile (naming.identifierOf file) = none := by
  have hexternal : naming.classify (naming.identifierOf file) = .external := by
    unfold classify
    rw [if_pos h]
  unfold locate candidates
  rw [hexternal]
  rfl

/-! ## Files below the root -/

/-- A source file of a project, which is also known by its way from the root. If it is not written like the root, it
has to be found as it is seen from there. -/
structure IsSource (naming : Naming) (files : Files) (cwd root path : String) (rest : List (List Char)) : Prop where
  absolute : Path.isAbsolute cwd = true
  ne_empty : path ≠ ""
  below : Path.absoluteComponents cwd path = Path.absoluteComponents cwd root ++ rest
  extension : ∃ name, rest.getLast? = some name ∧
    Text.endsWithAny (String.ofList name) naming.sourceExtensions = true
  isFile : files.Settled ∧ Path.LiesBelow root path rest ∧ files.isFile path = true ∨
    files.isFile (Path.normalize (Path.append root (Text.join "/" (rest.map String.ofList)))) = true

theorem isSource_of_liesBelow (hsettled : files.Settled) (hcwd : Path.isAbsolute cwd = true)
    (hbelow : Path.LiesBelow root path rest)
    (hextension : ∃ name, rest.getLast? = some name ∧
      Text.endsWithAny (String.ofList name) naming.sourceExtensions = true)
    (hfile : files.isFile path = true) : naming.IsSource files cwd root path rest := by
  have hne : rest ≠ [] := by
    rintro rfl
    obtain ⟨name, hname, -⟩ := hextension
    cases hname
  refine ⟨hcwd, ?_, hbelow.absoluteComponents_eq hcwd, hextension, Or.inl ⟨hsettled, hbelow, hfile⟩⟩
  rintro rfl
  have hnone : Path.steps (Path.normalize "") = [] := rfl
  exact hne (List.append_eq_nil_iff.1 (hbelow.steps_eq.symm.trans hnone)).2

namespace IsSource

variable (h : naming.IsSource files cwd root path rest)

include h

theorem ne_nil : rest ≠ [] := by
  rintro rfl
  obtain ⟨name, hname, -⟩ := h.extension
  cases hname

theorem isStep : ∀ c ∈ rest, Path.IsStep c := fun _ hc =>
  Path.isStep_of_mem_absoluteComponents h.absolute (h.below ▸ List.mem_append_right _ hc)

theorem endsWithAny_join :
    Text.endsWithAny (Text.join "/" (rest.map String.ofList)) naming.sourceExtensions = true := by
  obtain ⟨name, hname, hends⟩ := h.extension
  obtain ⟨front, rfl⟩ := List.getLast?_eq_some_iff.1 hname
  rw [Path.join_eq_ofSteps h.ne_nil h.isStep]
  exact Path.endsWithAny_ofSteps h.isStep hends

theorem isFile_join :
    files.isFile (Path.normalize (Path.append root (Text.join "/" (rest.map String.ofList)))) = true := by
  obtain ⟨hsettled, hbelow, hfile⟩ | hfile := h.isFile
  · rw [hbelow.normalize_append_join h.ne_nil]
    exact hsettled path hfile
  · exact hfile

theorem identifierBelow_eq :
    naming.identifierBelow cwd root path = .ok (naming.identifierOf (Text.join "/" (rest.map String.ofList))) := by
  rw [identifierBelow, Path.wayTo, if_neg (by simpa using h.ne_empty), Path.relative_eq_join h.below h.ne_nil]
  rfl

end IsSource

/-- The identifier of a source file is that of a component, unless it is the mark of resolved values. It leads back to
the file exactly if no other one stands at the same way in the directory that is tried first. -/
theorem locate_identifierBelow (h : naming.IsSource files cwd root path rest) :
    let way := Text.join "/" (rest.map String.ofList)
    let identifier := naming.identifierOf way
    let first := Path.normalize (Path.append root (naming.componentsDir ++ "/" ++ way))
    let named := Path.normalize (Path.append root way)
    naming.identifierBelow cwd root path = .ok identifier ∧
      (naming.classify identifier = .localComponent ↔ identifier ≠ naming.sentinel) ∧
      (Text.startsWith naming.sentinel naming.localPrefix = false → identifier ≠ naming.sentinel) ∧
      (identifier ≠ naming.sentinel →
        naming.locate root files.isFile identifier = some (if files.isFile first then first else named)) ∧
      (naming.locate root files.isFile identifier = some named ↔
        identifier ≠ naming.sentinel ∧ (files.isFile first = true → first = named)) ∧
      Path.absoluteComponents cwd named = Path.absoluteComponents cwd path ∧
      (Path.LiesBelow root path rest → named = Path.normalize path) := by
  intro way identifier first named
  have hlocate : identifier ≠ naming.sentinel →
      naming.locate root files.isFile identifier = some (if files.isFile first then first else named) :=
    fun hsentinel => locate_identifierOf hsentinel h.endsWithAny_join h.isFile_join
  refine ⟨h.identifierBelow_eq, classify_identifierOf_iff, fun hdefault => identifierOf_ne_sentinel hdefault way,
    hlocate, ?_, Path.absoluteComponents_append_join h.absolute h.below h.ne_nil,
    fun hbelow => hbelow.normalize_append_join h.ne_nil⟩
  by_cases hsentinel : identifier = naming.sentinel
  · rw [locate_of_sentinel hsentinel]
    exact iff_of_false nofun fun hnamed => hnamed.1 hsentinel
  · rw [hlocate hsentinel, Option.some_inj]
    by_cases hfirst : files.isFile first = true
    · rw [if_pos hfirst]
      exact ⟨fun heq => ⟨hsentinel, fun _ => heq⟩, fun hnamed => hnamed.2 hfirst⟩
    · rw [if_neg hfirst]
      exact iff_of_true rfl ⟨hsentinel, fun hfirst' => absurd hfirst' hfirst⟩

def searchDisk : Disk where
  files := [("/proj/loaders/search.ts", []), ("/proj/sections/Header.tsx", [])]
  directories := ["/", "/proj", "/proj/loaders", "/proj/sections"]

def searchFiles : Files := .ofTexts [("/proj/loaders/search.ts", "")]

/-- The source file is found on a disk, and in files that are given. -/
theorem locate_search_identifierBelow :
    (IsSource {} (searchDisk.toFiles "/") "/" "/proj" "/proj/loaders/./search.ts"
        ["loaders".toList, "search.ts".toList] ∧
      identifierBelow {} "/" "/proj" "/proj/loaders/./search.ts" = .ok "site/loaders/search.ts" ∧
      locate {} "/proj" (searchDisk.toFiles "/").isFile "site/loaders/search.ts" =
        some "/proj/loaders/search.ts") ∧
    IsSource {} searchFiles "/" "/proj" "/proj/loaders/./search.ts" ["loaders".toList, "search.ts".toList] ∧
      locate {} "/proj" searchFiles.isFile "site/loaders/search.ts" = some "/proj/loaders/search.ts" := by
  have hbelow : Path.LiesBelow "/proj" "/proj/loaders/./search.ts" ["loaders".toList, "search.ts".toList] :=
    ⟨by decide, by decide, by decide⟩
  have hextension : ∃ name, ["loaders".toList, "search.ts".toList].getLast? = some name ∧
      Text.endsWithAny (String.ofList name) ({} : Naming).sourceExtensions = true :=
    ⟨"search.ts".toList, rfl, by decide⟩
  have hdisk : IsSource {} (searchDisk.toFiles "/") "/" "/proj" "/proj/loaders/./search.ts"
      ["loaders".toList, "search.ts".toList] :=
    isSource_of_liesBelow (Files.settled_toFiles _ _) (by decide) hbelow hextension (by decide +kernel)
  have hfiles : IsSource {} searchFiles "/" "/proj" "/proj/loaders/./search.ts"
      ["loaders".toList, "search.ts".toList] :=
    isSource_of_liesBelow (Files.settled_ofTexts _) (by decide) hbelow hextension (by decide +kernel)
  obtain ⟨hidentifier, -, hsentinel, -, hlocate, -, -⟩ := locate_identifierBelow hdisk
  obtain ⟨-, -, -, -, hlocate', -, -⟩ := locate_identifierBelow hfiles
  refine ⟨⟨hdisk, hidentifier, ?_⟩, hfiles, ?_⟩
  · exact hlocate.2 ⟨hsentinel (by decide), fun hfirst => absurd hfirst (by decide +kernel)⟩
  · exact hlocate'.2 ⟨hsentinel (by decide), fun hfirst => absurd hfirst (by decide +kernel)⟩

/-- A source file, and one at the same way in the directory that is tried first. -/
def shadowedFiles : Files := .ofTexts [("/proj/loaders/search.ts", ""), ("/proj/sections/loaders/search.ts", "")]

/-- A file in the directory that is tried first stands in the way, and so does a mark of resolved values that looks like
the identifier of a component. A file may be written as it is seen from the root of all files, and be found as it is
seen from elsewhere. -/
theorem locate_identifierBelow_elsewhere :
    (shadowedFiles.isFile "/proj/loaders/search.ts" = true ∧
        identifierBelow {} "/" "/proj" "/proj/loaders/search.ts" = .ok "site/loaders/search.ts" ∧
        locate {} "/proj" shadowedFiles.isFile "site/loaders/search.ts" =
          some "/proj/sections/loaders/search.ts") ∧
      (identifierBelow { sentinel := "site/a.ts" } "/" "/proj" "/proj/a.ts" = .ok "site/a.ts" ∧
        classify { sentinel := "site/a.ts" } "site/a.ts" = .external) ∧
      (searchDisk.toFiles "/").isFile "/proj/loaders/search.ts" = true ∧
        identifierBelow {} "/" "proj" "/proj/loaders/search.ts" = .ok "site/loaders/search.ts" ∧
        locate {} "proj" (searchDisk.toFiles "/").isFile "site/loaders/search.ts" =
          some "proj/loaders/search.ts" := by
  refine ⟨⟨?_, rfl, ?_⟩, ⟨rfl, ?_⟩, ?_, rfl, ?_⟩
  all_goals decide +kernel

end Naming

end BlockCheck
