import BlockCheck.Proofs.Path.Joined
import BlockCheck.Proofs.Props.Chains
import BlockCheck.Proofs.Props.LongestAlias

/-!
# What an alias leads to

The target of an alias is a directory, and the rest of the specifier is a path that is seen from there. This is the
target written in place of the alias as long as the target ends in a slash and the rest does not begin with one.
-/

namespace BlockCheck.Props

variable {base path target : String} {more : List (List Char)}

theorem isRelative_iff : isRelative path = true ↔
    ∃ behind, path.toList = '.' :: '/' :: behind ∨ path.toList = '.' :: '.' :: '/' :: behind := by
  unfold isRelative Text.startsWithAny Text.startsWith
  rw [List.any_eq_true]
  simp only [List.mem_cons, List.not_mem_nil, or_false, List.isPrefixOf_iff_prefix]
  constructor
  · rintro ⟨beginning, rfl | rfl, behind, hbehind⟩
    · exact ⟨behind, Or.inl hbehind.symm⟩
    · exact ⟨behind, Or.inr hbehind.symm⟩
  · rintro ⟨behind, hbehind | hbehind⟩
    · exact ⟨_, Or.inl rfl, behind, hbehind.symm⟩
    · exact ⟨_, Or.inr rfl, behind, hbehind.symm⟩

theorem slash_mem_of_isRelative (h : isRelative path = true) : '/' ∈ path.toList := by
  obtain ⟨behind, hlist | hlist⟩ := isRelative_iff.1 h
  · simp [hlist]
  · simp [hlist]

theorem isAbsolute_of_isRelative (h : isRelative path = true) : Path.isAbsolute path = false := by
  rw [← Bool.not_eq_true, Path.isAbsolute_iff_cons]
  rintro ⟨rest, hrest⟩
  obtain ⟨behind, hlist | hlist⟩ := isRelative_iff.1 h
  · simp [hlist] at hrest
  · simp [hlist] at hrest

/-- What is found for a path below a directory lies below it, unless it is the directory with an extension. -/
theorem probe_liesBelow (files : Files) (h : Path.LiesBelow base path more) :
    (∃ rest, Path.LiesBelow base (probe files path) rest) ∨
      Path.normalize path = Path.normalize base ∧
        ∃ ending ∈ probeExtensions, probe files path = Path.normalize base ++ ending := by
  rcases probe_cases files path with heq | ⟨ending, hending, heq⟩
  · exact Or.inl ⟨more, heq ▸ h.normalize⟩
  rcases List.eq_nil_or_concat more with rfl | ⟨front, last, rfl⟩
  · have hsame : Path.normalize path = Path.normalize base :=
      Path.eq_of_steps_normalize h.mark_eq (by rw [h.steps_eq, List.append_nil])
    exact Or.inr ⟨hsame, ending, hending, hsame ▸ heq⟩
  · rw [List.concat_eq_append] at h
    exact Or.inl ⟨_, heq ▸ h.ending (isEnding_of_mem_probeExtensions hending)⟩

theorem importedFile_of_alias {start : Start} {root name rest : String} (hroot : start.root = some root)
    (hgiven : ∀ table ∈ start.given, (Record.keys table).Nodup)
    (hlongest : Longest (name ++ rest) start.aliases (name, target))
    (hspecifier : isRelative (name ++ rest) = false) (htarget : isRelative target = true) (file : String) :
    start.importedFile (name ++ rest) file =
      probe start.files (Path.append (Path.append (Path.normalize root) target) rest) := by
  have hfound := (longestAlias_eq_some_iff (nodup_keys_aliases hgiven)).2 hlongest
  have hdrop : Text.drop (name ++ rest) name.length = rest := by
    rw [Text.drop, String.toList_append, ← String.length_toList, List.drop_left, String.ofList_toList]
  rw [Start.importedFile_eq, hroot, Option.map_some, basePath_of_longest hspecifier hfound htarget, hdrop]

/-- The text of the target in place of the alias is what is probed if the target ends in a slash and the rest does not
begin with one. -/
theorem resolveImport_of_alias (start : Start) {root name target rest : String} (hroot : start.root = some root)
    (hgiven : ∀ table ∈ start.given, (Record.keys table).Nodup)
    (hlongest : Longest (name ++ rest) start.aliases (name, target))
    (hspecifier : isRelative (name ++ rest) = false) (htarget : isRelative target = true) (file : String) :
    let base := Path.normalize root
    let probed := Path.append (Path.append base target) rest
    let replaced := Path.append base (target ++ rest)
    (Gives start (resolveImport (name ++ rest) file) (probe start.files probed) ∧
        (base ≠ "/" → base ≠ "//" → replaced = base ++ "/" ++ (target ++ rest))) ∧
      (rest = "" ∨ Text.endsWith target "/" = true ∧ Path.isAbsolute rest = false →
        Path.normalize probed = Path.normalize replaced) ∧
      (['.'] ∉ Path.components rest → ['.', '.'] ∉ Path.components rest →
        Path.normalize probed = Path.normalize replaced →
          rest = "" ∨ Text.endsWith target "/" = true ∧ Path.isAbsolute rest = false ∨
            Path.isAbsolute rest = true ∧ Path.steps (Path.normalize (Path.append base target)) = []) ∧
      (Path.isAbsolute rest = true → probed = rest) ∧
      ∀ front, Path.LiesBelow base (Path.append base target) front → Path.isAbsolute rest = false →
        ['.', '.'] ∉ Path.components rest →
          (∃ more, Path.LiesBelow base (probe start.files probed) more) ∨
            Path.normalize probed = base ∧ ∃ ending ∈ probeExtensions, probe start.files probed = base ++ ending := by
  intro base probed replaced
  have hrelative : Path.isAbsolute target = false := isAbsolute_of_isRelative htarget
  have hslash : '/' ∈ target.toList := slash_mem_of_isRelative htarget
  have hlonger : Path.isAbsolute (target ++ rest) = false :=
    (Path.isAbsolute_append_text (Path.ne_empty_of_mem hslash) rest).trans hrelative
  have hnamed : start.importedFile (name ++ rest) file = probe start.files probed :=
    importedFile_of_alias hroot hgiven hlongest hspecifier htarget file
  refine ⟨⟨hnamed ▸ gives_resolveImport (name ++ rest) file, fun hbase hbase' =>
      Path.append_normalize_of_ne_root hbase hbase' hlonger⟩, Path.normalize_append_append hrelative,
    fun hdot hdots => Path.eq_empty_or_of_normalize_append_append hrelative hslash hdot hdots,
    fun hrest => Path.append_of_isAbsolute hrest _, fun front hbelow hrest hdots => ?_⟩
  have hdown : ['.', '.'] ∉ Path.steps rest := fun hmem => hdots (List.mem_of_mem_filter hmem)
  have hcases := probe_liesBelow start.files (hbelow.append hrest hdown)
  rwa [Path.normalize_idem] at hcases

def lanes : Start where
  files := .ofTexts [("/proj/src/foo.ts", ""), ("/proj/lib/v2.ts", ""), ("/proj/lib/v/2.ts", "")]
  root := some "/proj"
  given := some [("~", "./src"), ("src/", "./src/"), ("$v", "./lib/v")]

theorem liesBelow_lanes : Path.LiesBelow (Path.normalize "/proj") (Path.append (Path.normalize "/proj") "./src/")
    [['s', 'r', 'c']] :=
  ⟨by decide +kernel, by decide +kernel, by decide⟩

/-- What is probed is the target in place of the alias, and the file that is found lies in the project. -/
theorem resolveImport_src_of_alias :
    lanes.root = some "/proj" ∧ (∀ table ∈ lanes.given, (Record.keys table).Nodup) ∧
      Longest ("src/" ++ "foo") lanes.aliases ("src/", "./src/") ∧ isRelative ("src/" ++ "foo") = false ∧
      isRelative "./src/" = true ∧
      Gives lanes (resolveImport "src/foo" "/proj/sections/A.tsx") "/proj/src/foo.ts" ∧
      Path.append (Path.normalize "/proj") ("./src/" ++ "foo") = "/proj" ++ "/" ++ ("./src/" ++ "foo") ∧
      Path.normalize (Path.append (Path.append (Path.normalize "/proj") "./src/") "foo") =
        Path.normalize (Path.append (Path.normalize "/proj") ("./src/" ++ "foo")) ∧
      ∃ more, Path.LiesBelow "/proj" "/proj/src/foo.ts" more := by
  have hgiven : ∀ table ∈ lanes.given, (Record.keys table).Nodup := by
    rintro _ ⟨⟩
    decide
  have hlongest : Longest ("src/" ++ "foo") lanes.aliases ("src/", "./src/") :=
    ⟨by decide, by decide, by decide⟩
  have hspecifier : isRelative ("src/" ++ "foo") = false := by decide
  have htarget : isRelative "./src/" = true := by decide
  obtain ⟨⟨hgives, hwritten⟩, hreplaced, -, -, hinside⟩ :=
    resolveImport_of_alias lanes rfl hgiven hlongest hspecifier htarget "/proj/sections/A.tsx"
  refine ⟨rfl, hgiven, hlongest, hspecifier, htarget, hgives, hwritten (by decide +kernel) (by decide +kernel),
    hreplaced (Or.inr ⟨by decide, by decide⟩), ?_⟩
  -- The directory itself is no answer here, as what is probed is not the directory.
  obtain hbelow | ⟨hsame, -⟩ := hinside _ liesBelow_lanes (by decide) (by decide)
  · exact hbelow
  · exact absurd hsame (by decide +kernel)

/-- Without a slash at the end of the target the rest is a path of its own: it is taken from the root of all files if
it begins with a slash, and becomes another step if it does not. -/
theorem importedFile_apart_from_target :
    (Longest "~/foo" lanes.aliases ("~", "./src") ∧
        probe lanes.files ("/proj" ++ "/" ++ ("./src" ++ "/foo")) = "/proj/src/foo.ts" ∧
        lanes.importedFile "~/foo" "/proj/sections/A.tsx" = "/foo") ∧
      Longest "$v2" lanes.aliases ("$v", "./lib/v") ∧
        probe lanes.files ("/proj" ++ "/" ++ ("./lib/v" ++ "2")) = "/proj/lib/v2.ts" ∧
        lanes.importedFile "$v2" "/proj/sections/A.tsx" = "/proj/lib/v/2.ts" := by
  refine ⟨⟨⟨by decide, by decide, by decide⟩, ?_, ?_⟩, ⟨by decide, by decide, by decide⟩, ?_, ?_⟩
  all_goals decide +kernel

end BlockCheck.Props
