import BlockCheck.Proofs.Lint.RenamedComponents

/-!
# Runs after the discriminator is renamed

A project whose documents and settings have another key in place of the discriminator is checked as
before, with one exception: a reference that stands in place of a list is let pass under its usual name
only.
-/

namespace BlockCheck.Lint

variable {disk disk' : Disk} {cwd new : String} {config : Config}

theorem wantedPaths_renamed (h : RenamedProject disk disk' cwd config new) (target : Option String) :
    wantedPaths disk' (config.keyed new) target = wantedPaths disk config target := by
  cases target with
  | none => exact congrArg some (h.places.components_eq _ _)
  | some target =>
    unfold wantedPaths
    dsimp only
    rw [h.places.isFile_eq]
    rfl

/-- After the discriminator is renamed in the documents and in the settings, the runs find the same
components, blocks and documents to be unused or unresolved, and the failures that they found before.
They find more of them if and only if something that they check is given a reference in place of a list;
only then anything else differs. -/
theorem runs_renamed_iff (disk disk' : Disk) (cwd : String) (config : Config) (new : String)
    (h : RenamedProject disk disk' cwd config new) :
    (∀ target, (∀ path, IsChecked disk config target path → Suits disk cwd config new path) →
      (components disk' cwd (config.keyed new) target).map ComponentLint.unused =
        (components disk cwd config target).map ComponentLint.unused ∧
      ((components disk' cwd (config.keyed new) target).map ComponentLint.unplaced =
          (components disk cwd config target).map ComponentLint.unplaced ↔
        ¬ComponentsDefer disk cwd config target) ∧
      (InPlace disk disk' config new → Text.Plain new →
        (∀ path, IsChecked disk config target path →
          Text.Plain (config.naming.identifierOf (Path.within config.root path))) →
        ((components disk' cwd (config.keyed new) target).map ComponentLint.components =
            (components disk cwd config target).map ComponentLint.components ↔
          ¬ComponentsDefer disk cwd config target)) ∧
      ((components disk cwd config target).map ComponentLint.ok =
          (components disk' cwd (config.keyed new) target).map ComponentLint.ok ↔
        ((components disk cwd config target).map ComponentLint.ok = some true →
          ¬ComponentsDefer disk cwd config target))) ∧
    (documents disk' cwd (config.keyed new)).unresolved = (documents disk cwd config).unresolved ∧
    (documents disk' cwd (config.keyed new)).unusedBlocks = (documents disk cwd config).unusedBlocks ∧
    ((documents disk' cwd (config.keyed new)).reports = (documents disk cwd config).reports ↔
      ¬DocumentsDefer disk cwd config) ∧
    ((documents disk cwd config).ok = (documents disk' cwd (config.keyed new)).ok ↔
      ((documents disk cwd config).ok = true → ¬DocumentsDefer disk cwd config)) := by
  obtain ⟨hunresolved, hunused, hreports, hfailures⟩ := h.documents_renamed
  refine ⟨fun target hsuits => ?_, hunresolved, hunused, hreports,
    ok_eq_iff_of_failures hfailures (DocumentLint.ok_iff _) (DocumentLint.ok_iff _)⟩
  rw [components_eq_map, components_eq_map, wantedPaths_renamed h]
  cases hpaths : wantedPaths disk config target with
  | none => simp [ComponentsDefer, IsChecked, hpaths]
  | some paths =>
    have hchecked : ∀ path, IsChecked disk config target path ↔ path ∈ wantedAmong config paths := by
      simp [IsChecked, wantedAmong, hpaths]
    have hdefer : ¬ComponentsDefer disk cwd config target ↔
        ∀ path ∈ wantedAmong config paths, ¬ComponentDefers disk cwd config path := by
      simp only [ComponentsDefer, hchecked, not_exists, not_and]
    simp only [hchecked] at hsuits ⊢
    rw [hdefer]
    simp only [Option.map_some, Option.some.injEq]
    refine ⟨h.unused_componentsAt_renamed hsuits _, h.unplaced_componentsAt_renamed_iff hsuits _,
      fun hplace hplain hidentifiers =>
        h.components_componentsAt_renamed_iff hsuits _ hplace hplain hidentifiers, ?_⟩
    exact ok_eq_iff_of_failures (h.failures_componentsAt_renamed hsuits _) (ComponentLint.ok_iff _)
      (ComponentLint.ok_iff _)

/-! ## A reference in place of the items of a header -/

def listText : String :=
  "\x7b\"__resolveType\":\"site/sections/Header.tsx\",\"items\":\x7b\"__resolveType\":\"x\"\x7d\x7d"

def renamedListText : String :=
  "\x7b\"__d\":\"site/sections/Header.tsx\",\"items\":\x7b\"__d\":\"x\"\x7d\x7d"

def listSource : String := "export interface Props \x7b items: string[] \x7d"

def listDisk (text : String) : Disk where
  files := [("/p/.deco/blocks/home.json", text.toUTF8.toList),
    ("/p/sections/Header.tsx", listSource.toUTF8.toList)]
  directories := ["/", "/p", "/p/.deco", "/p/.deco/blocks", "/p/sections"]

def listConfig : Config := ⟨"/p", "/p/.deco/blocks", {}⟩

theorem found_list :
    Discovery.documents (listDisk listText) listConfig.blocksDir = ["/p/.deco/blocks/home.json"] ∧
    (listDisk listText).locate (Path.normalize "/p/.deco/blocks/home.json") =
      .ok "/p/.deco/blocks/home.json" ∧
    wantedPaths (listDisk listText) listConfig none = some ["/p/sections/Header.tsx"] ∧
    ∀ text ∈ [listText, renamedListText],
      (listDisk text).text (Path.normalize "/p/.deco/blocks/home.json") = .ok text := by
  refine ⟨?_, ?_, ?_, ?_⟩
  all_goals decide +kernel

theorem documents_list :
    Discovery.documents (listDisk listText) listConfig.blocksDir = ["/p/.deco/blocks/home.json"] :=
  found_list.1

theorem holdsDocument_list {place : String} :
    HoldsDocument (listDisk listText) listConfig place ↔ place = "/p/.deco/blocks/home.json" := by
  simp [HoldsDocument, documents_list, found_list.2.1, eq_comm]

theorem read_list : ∀ text ∈ [listText, renamedListText],
    (listDisk text).text (Path.normalize "/p/.deco/blocks/home.json") = .ok text := found_list.2.2.2

theorem renamedText_list : RenamedText "__d" listText renamedListText := by
  refine ⟨.object [("__resolveType", .string "site/sections/Header.tsx"),
    ("items", .object [("__resolveType", .string "x")])], by cbv, ?_, by cbv⟩
  simp [Json.hasKey_object, Record.keys]
  constructor <;> rintro ⟨⟩

theorem suits_list :
    Suits (listDisk listText) "/" listConfig "__d" "/p/sections/Header.tsx" where
  apart := by
    -- Nothing is read but the source, and the file of aliases, which does not exist.
    have hreads : ∀ file, Props.Reads ((listDisk listText).toFiles "/") "/p" "/p/sections/Header.tsx" file →
        file = "/p/deno.json" ∨ file = "/p/sections/Header.tsx" := by
      intro file hfile
      have haliases : Props.aliasFile "/p" = "/p/deno.json" := by decide +kernel
      have hnormal : Path.normalize "/p/sections/Header.tsx" = "/p/sections/Header.tsx" := by decide +kernel
      have hmissing : ((listDisk listText).toFiles "/").text (((listDisk listText).toFiles "/").key
          (Props.aliasFile "/p")) = .error (.noEntry "/p/deno.json") := by decide +kernel
      have hsource : ((listDisk listText).toFiles "/").text (((listDisk listText).toFiles "/").key
          (Path.normalize "/p/sections/Header.tsx")) = .ok listSource := by decide +kernel
      have hends := hfile.eq_of_no_reexport hmissing hsource (by decide +kernel)
      rwa [haliases, hnormal] at hends
    intro file hfile place hplace hdocument
    rw [holdsDocument_list] at hdocument
    rw [hdocument] at hplace
    rcases hreads file hfile with rfl | rfl
    · exact absurd hplace (by decide +kernel)
    · exact absurd hplace (by decide +kernel)
  undeclared := by
    have hundeclared : ∀ s ∈ Props.schemaOfFile ((listDisk listText).toFiles "/") "/p"
        "/p/sections/Header.tsx", ¬s.Declares discriminator ∧ ¬s.Declares "__d" := by decide +kernel
    exact hundeclared

theorem renamed_list :
    RenamedProject (listDisk listText) (listDisk renamedListText) "/" listConfig "__d" where
  sound := by constructor <;> decide +kernel
  absolute := by decide
  key := rfl
  reserved := by decide
  places := ⟨rfl, rfl⟩
  others place hplace := by
    rw [holdsDocument_list] at hplace
    have hother : (place == "/p/.deco/blocks/home.json") = false := by simpa using hplace
    exact ⟨by simp only [listDisk, List.lookup_cons, hother], .rfl⟩
  texts path hpath := by
    rw [documents_list, List.mem_singleton] at hpath
    subst hpath
    exact ⟨listText, renamedListText, read_list _ (by simp), read_list _ (by simp), renamedText_list⟩
  suits path hpath text htext r hr hkind source hlocate := by
    rw [documents_list, List.mem_singleton] at hpath
    subst hpath
    cases (read_list _ (by simp)).symm.trans htext
    have hreferences : (Document.references (surroundings ((listDisk listText).toFiles "/") listConfig)
        listText).map (fun r => (r.identifier, r.kind)) =
          [("site/sections/Header.tsx", .localComponent), ("x", .savedBlock)] := by decide +kernel
    have hmem : (r.identifier, r.kind) ∈ [("site/sections/Header.tsx", ReferenceKind.localComponent),
        ("x", .savedBlock)] := hreferences ▸ List.mem_map_of_mem hr
    have hlocated : listConfig.naming.locate listConfig.root ((listDisk listText).toFiles "/").isFile
        "site/sections/Header.tsx" = some "/p/sections/Header.tsx" := by decide +kernel
    simp only [List.mem_cons, Prod.mk.injEq, List.not_mem_nil, or_false] at hmem
    rcases hmem with ⟨hidentifier, -⟩ | ⟨-, hblock⟩
    · rw [hidentifier] at hlocate
      cases hlocated.symm.trans hlocate
      exact suits_list
    · exact absurd hblock hkind

theorem isChecked_list {path : String} (h : IsChecked (listDisk listText) listConfig none path) :
    path = "/p/sections/Header.tsx" := by
  obtain ⟨paths, hpaths, hpath, -⟩ := h
  cases found_list.2.2.1.symm.trans hpaths
  exact List.mem_singleton.1 hpath

theorem inPlace_list :
    InPlace (listDisk listText) (listDisk renamedListText) listConfig "__d" := by
  intro path hpath text text' htext htext'
  rw [documents_list, List.mem_singleton] at hpath
  subst hpath
  cases (read_list listText (by simp)).symm.trans htext
  cases (read_list renamedListText (by simp)).symm.trans htext'
  have hcolon : Text.IsColon [':'] := ⟨[], [], rfl, nofun, nofun⟩
  have hplain : Text.Plain discriminator ∧ Text.Plain "items" ∧ Text.Plain "x" ∧
      Text.Plain "site/sections/Header.tsx" := by decide
  obtain ⟨hkey, hitems, hx, hsite⟩ := hplain
  have hlast : Text.Respelled discriminator "__d" ['\x7d', '\x7d'] ['\x7d', '\x7d'] :=
    .other (by decide) (.other (by decide) .nil)
  have hinner := Text.Respelled.pair hkey (by decide) hcolon hx.isBody (by decide) hlast
  have hobject := Text.Respelled.other (c := '\x7b') (by decide) hinner
  have hmiddle := Text.Respelled.key hitems (by decide) hcolon (by decide) (by decide) hobject
  have hrest := Text.Respelled.other (c := ',') (by decide) hmiddle
  have houter := Text.Respelled.pair hkey (by decide) hcolon hsite.isBody (by decide) hrest
  exact .other (by decide) houter

theorem runs_list :
    (components (listDisk listText) "/" listConfig none).map
        (fun lint => (lint.ok, lint.components.flatMap ComponentResult.errors)) = some (true, []) ∧
    (components (listDisk renamedListText) "/" (listConfig.keyed "__d") none).map
        (fun lint => (lint.ok, lint.components.flatMap ComponentResult.errors)) =
      some (false, [⟨"items", .mismatch "array" .object⟩]) := by
  refine ⟨?_, ?_⟩
  all_goals decide +kernel

/-- Nothing becomes unused here or stops being so, but the header is no longer what it was. -/
theorem renamed_list_differs :
    RenamedProject (listDisk listText) (listDisk renamedListText) "/" listConfig "__d" ∧
    (components (listDisk renamedListText) "/" (listConfig.keyed "__d") none).map ComponentLint.unused =
      (components (listDisk listText) "/" listConfig none).map ComponentLint.unused ∧
    (components (listDisk renamedListText) "/" (listConfig.keyed "__d") none).map
        ComponentLint.components ≠
      (components (listDisk listText) "/" listConfig none).map ComponentLint.components := by
  have hruns := runs_renamed_iff (listDisk listText) (listDisk renamedListText) "/" listConfig "__d"
    renamed_list
  have hsuits : ∀ path, IsChecked (listDisk listText) listConfig none path →
      Suits (listDisk listText) "/" listConfig "__d" path := fun path hpath =>
    isChecked_list hpath ▸ suits_list
  have hidentifiers : ∀ path, IsChecked (listDisk listText) listConfig none path → Text.Plain
      (listConfig.naming.identifierOf (Path.within listConfig.root path)) := fun path hpath => by
    rw [isChecked_list hpath]
    decide +kernel
  have hlist : (components (listDisk listText) "/" listConfig none).map ComponentLint.ok = some true := by
    have hboth := congrArg (Option.map Prod.fst) runs_list.1
    rwa [Option.map_map] at hboth
  have hrenamed : (components (listDisk renamedListText) "/" (listConfig.keyed "__d") none).map
      ComponentLint.ok = some false := by
    have hboth := congrArg (Option.map Prod.fst) runs_list.2
    rwa [Option.map_map] at hboth
  obtain ⟨hunused, -, hcomponents, hok⟩ := hruns.1 none hsuits
  rw [hlist, hrenamed] at hok
  refine ⟨renamed_list, hunused, ?_⟩
  rw [ne_eq, hcomponents inPlace_list (by decide) hidentifiers]
  intro hdefers
  exact absurd (hok.2 fun _ => hdefers) (by decide)

theorem renamed_list_is_error :
    RenamedProject (listDisk listText) (listDisk renamedListText) "/" listConfig "__d" ∧
    InPlace (listDisk listText) (listDisk renamedListText) listConfig "__d" ∧
    (∀ path, IsChecked (listDisk listText) listConfig none path →
      Suits (listDisk listText) "/" listConfig "__d" path) ∧
    (components (listDisk listText) "/" listConfig none).map
        (fun lint => lint.components.flatMap ComponentResult.errors) = some [] ∧
    (components (listDisk renamedListText) "/" (listConfig.keyed "__d") none).map
        (fun lint => lint.components.flatMap ComponentResult.errors) =
      some [⟨"items", .mismatch "array" .object⟩] := by
  have hlist := congrArg (Option.map Prod.snd) runs_list.1
  have hrenamed := congrArg (Option.map Prod.snd) runs_list.2
  rw [Option.map_map] at hlist hrenamed
  exact ⟨renamed_list, inPlace_list, fun path hpath => isChecked_list hpath ▸ suits_list, hlist, hrenamed⟩

end BlockCheck.Lint
